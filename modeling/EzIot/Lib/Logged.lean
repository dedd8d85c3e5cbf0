import EzIot.Lib.Program

/-! # Programs that keep a log

A program beside which events are written down. Without its log it is a program as
before; what it logs says which memory it touched or which bytes it handed on.
-/

namespace EzIot.Program

variable {σ τ ε ω α β : Type}

/-- A program with a log of events. -/
abbrev Logged (σ ω ε α : Type) := Program (σ × List ω) ε α

def log (w : ω) : Logged σ ω ε Unit := write fun s => (s.1, s.2 ++ [w])

/-- A program on the first part of a state. -/
def beside (x : Program σ ε α) : Program (σ × τ) ε α := fun s => ((x s.1).1, ((x s.1).2, s.2))

/-- What is logged on the way. -/
def events (x : Logged σ ω ε α) (s : σ) : List ω := (x (s, [])).2.2

theorem log_bind (w : ω) (f : Unit → Logged σ ω ε β) (s : σ) (l : List ω) :
    (log w >>= f) (s, l) = f () (s, l ++ [w]) := rfl

theorem beside_read_bind (g : σ → α) (f : α → Program (σ × τ) ε β) (s : σ) (l : τ) :
    (beside (read g) >>= f) (s, l) = f (g s) (s, l) := rfl

theorem beside_bind_ok {x : Program σ ε α} {a : α} {s s' : σ} (h : x s = (.ok a, s'))
    (f : α → Program (σ × τ) ε β) (l : τ) : (beside x >>= f) (s, l) = f a (s', l) := by
  rw [bind_run, beside, h]

theorem beside_bind_error {x : Program σ ε α} {e : ε} {s s' : σ} (h : x s = (.error e, s'))
    (f : α → Program (σ × τ) ε β) (l : τ) :
    (beside x >>= f) (s, l) = (.error e, (s', l)) := by
  rw [bind_run, beside, h]

/-! ## Programs that log nothing -/

def Silent (x : Logged σ ω ε α) : Prop := ∀ s l, (x (s, l)).2.2 = l

namespace Silent

theorem beside (x : Program σ ε α) : Silent (Program.beside x : Logged σ ω ε α) :=
  fun _ _ => rfl

theorem log_of_bind {f : α → Logged σ ω ε β} (hf : ∀ a, Silent (f a)) (x : Logged σ ω ε α)
    (s : σ) (l : List ω) : ((x >>= f) (s, l)).2.2 = (x (s, l)).2.2 := by
  rw [bind_run]
  cases x (s, l) with
  | mk r t =>
      cases r with
      | error e => rfl
      | ok a => exact hf a t.1 t.2

theorem bind {x : Logged σ ω ε α} {f : α → Logged σ ω ε β} (hx : Silent x)
    (hf : ∀ a, Silent (f a)) : Silent (x >>= f) := by
  intro s l
  rw [log_of_bind hf, hx]

end Silent

/-! ## Forgetting the log -/

/-- Without its log the one program is the other. -/
def Forgets (x : Logged σ ω ε α) (y : Program σ ε α) : Prop :=
  ∀ s l, (x (s, l)).1 = (y s).1 ∧ (x (s, l)).2.1 = (y s).2

namespace Forgets

theorem beside (y : Program σ ε α) :
    Forgets (Program.beside y : Logged σ ω ε α) y := fun _ _ => ⟨rfl, rfl⟩

theorem stop (e : ε) : Forgets (Program.stop e : Logged σ ω ε α) (Program.stop e) :=
  fun _ _ => ⟨rfl, rfl⟩

theorem bind {x : Logged σ ω ε α} {y : Program σ ε α} {f : α → Logged σ ω ε β}
    {g : α → Program σ ε β} (hx : Forgets x y) (hf : ∀ a, Forgets (f a) (g a)) :
    Forgets (x >>= f) (y >>= g) := by
  intro s l
  have hfirst := hx s l
  rw [bind_run, bind_run]
  cases hr : x (s, l) with
  | mk r t =>
      cases hy : y s with
      | mk r' s' =>
          rw [hr, hy] at hfirst
          rcases hfirst with ⟨hvalue, hstate⟩
          change r = r' at hvalue
          change t.1 = s' at hstate
          subst hvalue
          cases r with
          | error e => exact ⟨rfl, hstate⟩
          | ok a =>
              have h := hf a t.1 t.2
              rw [hstate] at h
              have ht : t = (s', t.2) := Prod.ext hstate rfl
              rw [ht]
              exact h

theorem log_bind (w : ω) {f : Unit → Logged σ ω ε β} {y : Program σ ε β} (hf : Forgets (f ()) y) :
    Forgets (log w >>= f) y := fun s l => hf s (l ++ [w])

theorem ite {c : Prop} [Decidable c] {x x' : Logged σ ω ε α} {y y' : Program σ ε α}
    (h : Forgets x y) (h' : Forgets x' y') :
    Forgets (if c then x else x') (if c then y else y') := by
  split
  · exact h
  · exact h'

end Forgets

end EzIot.Program
