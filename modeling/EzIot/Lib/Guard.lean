import EzIot.Lib.Logged

/-! # Locks as counters

A lock beside the state of a program. Its counter says how often it was taken and not given
back; whoever takes it writes the counter down, so that taking a lock that is not free can
be told afterwards. Functions that jump to a label in front of their end give the lock back
behind it, however they came there.
-/

namespace EzIot.Guard

open Program

structure Lock where
  count : Int
  -- the counter each time the lock was taken
  taken : List Int
deriving DecidableEq

def Lock.take (l : Lock) : Lock := ⟨l.count + 1, l.taken ++ [l.count]⟩

def Lock.release (l : Lock) : Lock := { l with count := l.count - 1 }

/-- Nobody has the lock, and it was only taken when nobody had it. -/
structure Lock.Free (l : Lock) : Prop where
  count : l.count = 0
  taken : ∀ n ∈ l.taken, n = 0

variable {σ ε ρ α β : Type}

def lock : Program (σ × Lock) ε Unit := write fun s => (s.1, s.2.take)

def unlock : Program (σ × Lock) ε Unit := write fun s => (s.1, s.2.release)

/-- The code before a label. It is left at its end or by a jump with a result; a program that
stops without a result does not get to the label. -/
def toLabel (x : Program σ (Option ρ) α) : Program σ (Option ρ) (Except ρ α) := fun s =>
  match x s with
  | (.ok a, s') => (.ok (.ok a), s')
  | (.error (some r), s') => (.ok (.error r), s')
  | (.error none, s') => (.error none, s')

/-- A function that takes the lock and gives it back behind its label. -/
def locked (x : Program (σ × Lock) (Option ρ) α) : Program (σ × Lock) (Option ρ) (Except ρ α) := do
  lock
  let r ← toLabel x
  unlock
  pure r

section Label

variable {x : Program σ (Option ρ) α} {s s' : σ}

theorem toLabel_of_ok {a : α} (h : x s = (.ok a, s')) : toLabel x s = (.ok (.ok a), s') := by
  rw [toLabel, h]

theorem toLabel_of_jump {r : ρ} (h : x s = (.error (some r), s')) :
    toLabel x s = (.ok (.error r), s') := by
  rw [toLabel, h]

theorem locked_run (x : Program (σ × Lock) (Option ρ) α) (s : σ × Lock) :
    locked x s = (toLabel x >>= fun r => do unlock; pure r) (s.1, s.2.take) := rfl

theorem locked_of_ok {x : Program (σ × Lock) (Option ρ) α} {s : σ × Lock} {a : α} {t : σ}
    {l : Lock} (h : x (s.1, s.2.take) = (.ok a, (t, l))) :
    locked x s = (.ok (.ok a), (t, l.release)) := by
  rw [locked_run, bind_run, toLabel_of_ok h]
  rfl

end Label

/-! ## Programs that leave the lock alone -/

def Untouched (x : Program (σ × Lock) ε α) : Prop := Within (fun s s' => s'.2 = s.2) x

instance : Std.Refl fun s s' : σ × Lock => s'.2 = s.2 := ⟨fun _ => rfl⟩

instance : IsTrans (σ × Lock) fun s s' => s'.2 = s.2 := ⟨fun _ _ _ h h' => h'.trans h⟩

namespace Untouched

theorem beside (x : Program σ ε α) : Untouched (Program.beside x : Program (σ × Lock) ε α) :=
  fun _ => rfl

theorem bind {x : Program (σ × Lock) ε α} {f : α → Program (σ × Lock) ε β} (hx : Untouched x)
    (hf : ∀ a, Untouched (f a)) : Untouched (x >>= f) := Within.bind hx hf

theorem pure (a : α) : Untouched (Pure.pure a : Program (σ × Lock) ε α) := Within.pure a

theorem ite {c : Prop} [Decidable c] {x y : Program (σ × Lock) ε α} (hx : Untouched x)
    (hy : Untouched y) : Untouched (if c then x else y) := Within.ite hx hy

theorem toLabel {x : Program (σ × Lock) (Option ρ) α} (hx : Untouched x) :
    Untouched (toLabel x) := by
  intro s
  have h : (x s).2.2 = s.2 := hx s
  unfold Guard.toLabel
  split
  all_goals
    next hrun =>
      rw [hrun] at h
      exact h

end Untouched

/-! ## Programs that keep the discipline -/

/-- From a free lock: the program takes the lock only when it is free, and where it returns
the lock is free again. -/
structure Disciplined (x : Program (σ × Lock) ε α) : Prop where
  taken : ∀ s, s.2.Free → ∀ n ∈ (x s).2.2.taken, n = 0
  free : ∀ s a s', s.2.Free → x s = (.ok a, s') → s'.2.Free

namespace Disciplined

theorem bind {x : Program (σ × Lock) ε α} {f : α → Program (σ × Lock) ε β} (hx : Disciplined x)
    (hf : ∀ a, Disciplined (f a)) : Disciplined (x >>= f) := by
  constructor
  · intro s hs
    have hfirst := hx.taken s hs
    rw [bind_run]
    cases hr : x s with
    | mk r s' =>
        rw [hr] at hfirst
        cases r with
        | error e => exact hfirst
        | ok a => exact (hf a).taken s' (hx.free s a s' hs hr)
  · intro s b s'' hs hr
    obtain ⟨a, s', hfirst, hrest⟩ := bind_returns.mp hr
    exact (hf a).free s' b s'' (hx.free s a s' hs hfirst) hrest

theorem of_untouched {x : Program (σ × Lock) ε α} (hx : Untouched x) : Disciplined x := by
  constructor
  · intro s hs
    have h : (x s).2.2 = s.2 := hx s
    rw [h]
    exact hs.taken
  · intro s a s' hs hr
    have h : s'.2 = s.2 := hx.run hr
    rw [h]
    exact hs

theorem pure (a : α) : Disciplined (Pure.pure a : Program (σ × Lock) ε α) :=
  of_untouched (Untouched.pure a)

theorem ite {c : Prop} [Decidable c] {x y : Program (σ × Lock) ε α} (hx : Disciplined x)
    (hy : Disciplined y) : Disciplined (if c then x else y) := by
  split
  · exact hx
  · exact hy

/-- Whoever takes a free lock writes down that it was free. -/
theorem taken_take {l : Lock} (hl : l.Free) : ∀ n ∈ l.take.taken, n = 0 := by
  intro n hn
  rcases List.mem_append.mp hn with hold | hnew
  · exact hl.taken n hold
  · rw [List.mem_singleton.mp hnew]
    exact hl.count

theorem free_release {l : Lock} (hl : l.Free) : l.take.release.Free := by
  constructor
  · show l.count + 1 - 1 = 0
    have hcount := hl.count
    omega
  · exact taken_take hl

/-- A function whose code before the label leaves the lock alone. -/
theorem locked {x : Program (σ × Lock) (Option ρ) α} (hx : Untouched x) :
    Disciplined (locked x) := by
  have hbody : Untouched (toLabel x) := hx.toLabel
  constructor
  · intro s hs
    rw [locked_run, bind_run]
    cases hr : toLabel x (s.1, s.2.take) with
    | mk r s' =>
        have hsame : s'.2 = s.2.take := hbody.run hr
        have hleft : ∀ n ∈ s'.2.taken, n = 0 := by
          rw [hsame]
          exact taken_take hs
        cases r with
        | error | ok => exact hleft
  · intro s a s'' hs h
    rw [locked_run] at h
    obtain ⟨r, s', hr, hend⟩ := bind_returns.mp h
    have hsame : s'.2 = s.2.take := hbody.run hr
    cases hend
    show s'.2.release.Free
    rw [hsame]
    exact free_release hs

end Disciplined

end EzIot.Guard
