import Mathlib.Order.Basic

/-! # Programs that may stop

A program runs on a state and returns a value or stops. The state it leaves stays
in both cases, as with a function that returns early after it has written to its
arguments. Three kinds of statements about programs go through sequences step by
step: how the state may move, how a program may stop, and what has happened when it
returned.
-/

namespace EzIot

def Program (σ ε α : Type) := σ → Except ε α × σ

namespace Program

variable {σ ε α β γ : Type}

instance : Monad (Program σ ε) where
  pure a := fun s => (.ok a, s)
  bind x f := fun s =>
    match x s with
    | (.ok a, s') => f a s'
    | (.error e, s') => (.error e, s')

def stop (e : ε) : Program σ ε α := fun s => (.error e, s)

def read (f : σ → α) : Program σ ε α := fun s => (.ok (f s), s)

def write (f : σ → σ) : Program σ ε Unit := fun s => (.ok (), f s)

/-- A value, or the way to stop. -/
def lift (x : Except ε α) : Program σ ε α := fun s => (x, s)

/-- Run a program and go on in any case: its result is not looked at. -/
def ignore (x : Program σ ε Unit) : Program σ ε Unit := fun s => (.ok (), (x s).2)

theorem bind_run (x : Program σ ε α) (f : α → Program σ ε β) (s : σ) :
    (x >>= f) s = match x s with
      | (.ok a, s') => f a s'
      | (.error e, s') => (.error e, s') := rfl

instance : LawfulMonad (Program σ ε) := by
  refine LawfulMonad.mk' (Program σ ε) ?_ ?_ ?_
  · intro α x
    funext s
    show (x >>= Pure.pure) s = x s
    rw [bind_run]
    rcases x s with ⟨e | a, s'⟩ <;> rfl
  · intros
    rfl
  · intro α β γ x f g
    funext s
    simp only [bind_run]
    rcases x s with ⟨e | a, s'⟩ <;> rfl

/-! ## How the state moves -/

/-- Whether the program returns or stops, the state has moved along `R`. -/
def Within (R : σ → σ → Prop) (x : Program σ ε α) : Prop := ∀ s, R s (x s).2

namespace Within

variable {R R' : σ → σ → Prop}

theorem mono {x : Program σ ε α} (h : Within R x) (hR : ∀ s s', R s s' → R' s s') :
    Within R' x := fun s => hR s _ (h s)

theorem run {x : Program σ ε α} (h : Within R x) {s s' : σ} {r : Except ε α}
    (hr : x s = (r, s')) : R s s' := by
  have hs := h s
  rwa [hr] at hs

theorem bind [IsTrans σ R] {x : Program σ ε α} {f : α → Program σ ε β} (hx : Within R x)
    (hf : ∀ a, Within R (f a)) : Within R (x >>= f) := by
  intro s
  rw [bind_run]
  cases hr : x s with
  | mk r s' =>
      have hfirst : R s s' := by
        have h := hx s
        rwa [hr] at h
      cases r with
      | error e => exact hfirst
      | ok a => exact IsTrans.trans _ _ _ hfirst (hf a s')

theorem write {f : σ → σ} (h : ∀ s, R s (f s)) :
    Within R (Program.write f : Program σ ε Unit) := h

theorem ite {c : Prop} [Decidable c] {x y : Program σ ε α} (hx : Within R x) (hy : Within R y) :
    Within R (if c then x else y) := by
  split
  · exact hx
  · exact hy

theorem ignore {x : Program σ ε Unit} (hx : Within R x) : Within R x.ignore := hx

variable [Std.Refl R]

theorem pure (a : α) : Within R (Pure.pure a : Program σ ε α) := fun s => Std.Refl.refl s

theorem stop (e : ε) : Within R (Program.stop e : Program σ ε α) := fun s => Std.Refl.refl s

theorem read (f : σ → α) : Within R (Program.read f : Program σ ε α) := fun s => Std.Refl.refl s

theorem lift (x : Except ε α) : Within R (Program.lift x : Program σ ε α) := fun s => Std.Refl.refl s

end Within

/-- If the program stops, the state has moved along `R`. -/
def StopsWithin (R : σ → σ → Prop) (x : Program σ ε α) : Prop :=
  ∀ s e s', x s = (.error e, s') → R s s'

theorem StopsWithin.mono {R R' : σ → σ → Prop} {x : Program σ ε α} (h : StopsWithin R x)
    (hR : ∀ s s', R s s' → R' s s') : StopsWithin R' x :=
  fun s e s' hs => hR s s' (h s e s' hs)

theorem StopsWithin.bind {R : σ → σ → Prop} [IsTrans σ R] {x : Program σ ε α}
    {f : α → Program σ ε β} (hx : Within R x) (hf : ∀ a, StopsWithin R (f a)) :
    StopsWithin R (x >>= f) := by
  intro s e s'' h
  rw [bind_run] at h
  cases hr : x s with
  | mk r s' =>
      rw [hr] at h
      have hfirst := hx.run hr
      cases r with
      | error e' =>
          cases h
          exact hfirst
      | ok a => exact IsTrans.trans _ _ _ hfirst (hf a s' e s'' h)

/-! ## How a program stops -/

def Stops (E : ε → Prop) (x : Program σ ε α) : Prop := ∀ s e, (x s).1 = .error e → E e

namespace Stops

variable {E : ε → Prop}

theorem pure (a : α) : Stops E (Pure.pure a : Program σ ε α) := fun _ _ h => nomatch h

theorem bind {x : Program σ ε α} {f : α → Program σ ε β} (hx : Stops E x)
    (hf : ∀ a, Stops E (f a)) : Stops E (x >>= f) := by
  intro s e h
  rw [bind_run] at h
  cases hr : x s with
  | mk r s' =>
      rw [hr] at h
      cases r with
      | error e' =>
          cases h
          exact hx s e (by rw [hr])
      | ok a => exact hf a s' e h

theorem stop {e : ε} (h : E e) : Stops E (Program.stop e : Program σ ε α) := by
  intro s e' heq
  cases heq
  exact h

theorem read (f : σ → α) : Stops E (Program.read f : Program σ ε α) := fun _ _ h => nomatch h

theorem write (f : σ → σ) : Stops E (Program.write f : Program σ ε Unit) := fun _ _ h => nomatch h

theorem lift {x : Except ε α} (h : ∀ e, x = .error e → E e) :
    Stops E (Program.lift x : Program σ ε α) := fun _ e heq => h e heq

theorem ite {c : Prop} [Decidable c] {x y : Program σ ε α} (hx : Stops E x) (hy : Stops E y) :
    Stops E (if c then x else y) := by
  split
  · exact hx
  · exact hy

theorem ignore (x : Program σ ε Unit) : Stops E x.ignore := fun _ _ h => nomatch h

end Stops

/-! ## What has happened when it returned -/

section Returns

variable {s s' : σ}

theorem bind_returns {x : Program σ ε α} {f : α → Program σ ε β} {b : β} :
    (x >>= f) s = (.ok b, s') ↔ ∃ a t, x s = (.ok a, t) ∧ f a t = (.ok b, s') := by
  rw [bind_run]
  cases hr : x s with
  | mk r t =>
      cases r with
      | error e => simp
      | ok a =>
          constructor
          · intro h
            exact ⟨a, t, rfl, h⟩
          · rintro ⟨a', t', heq, h⟩
            cases heq
            exact h

theorem read_bind (f : σ → α) (g : α → Program σ ε β) : (read f >>= g) s = g (f s) s := rfl

theorem write_bind (f : σ → σ) (g : Unit → Program σ ε β) : (write f >>= g) s = g () (f s) := rfl

theorem pure_returns {a b : α} :
    (Pure.pure a : Program σ ε α) s = (.ok b, s') ↔ a = b ∧ s = s' := by
  show (Except.ok a, s) = (Except.ok b, s') ↔ a = b ∧ s = s'
  simp

theorem write_returns {f : σ → σ} {b : Unit} :
    (write f : Program σ ε Unit) s = (.ok b, s') ↔ f s = s' := by
  simp [write]

theorem lift_returns {x : Except ε α} {b : α} :
    (lift x : Program σ ε α) s = (.ok b, s') ↔ x = .ok b ∧ s = s' := by
  simp [lift]

end Returns

/-! ## Coming to an end -/

/-- The program returns, and `Q` holds of its value and of the state it leaves. -/
def Yields (x : Program σ ε α) (s : σ) (Q : α → σ → Prop) : Prop :=
  ∃ a s', x s = (.ok a, s') ∧ Q a s'

namespace Yields

variable {s : σ} {Q Q' : α → σ → Prop}

theorem bind {x : Program σ ε α} {f : α → Program σ ε β} {P : β → σ → Prop} (hx : Yields x s Q)
    (hf : ∀ a t, Q a t → Yields (f a) t P) : Yields (x >>= f) s P := by
  obtain ⟨a, t, hfirst, hq⟩ := hx
  obtain ⟨b, s', hrest, hp⟩ := hf a t hq
  exact ⟨b, s', bind_returns.mpr ⟨a, t, hfirst, hrest⟩, hp⟩

theorem mono {x : Program σ ε α} (hx : Yields x s Q) (h : ∀ a t, Q a t → Q' a t) :
    Yields x s Q' := by
  obtain ⟨a, t, hrun, hq⟩ := hx
  exact ⟨a, t, hrun, h a t hq⟩

theorem pure {a : α} (h : Q a s) : Yields (Pure.pure a : Program σ ε α) s Q := ⟨a, s, rfl, h⟩

theorem read_bind {f : σ → β} {g : β → Program σ ε α} (h : Yields (g (f s)) s Q) :
    Yields (Program.read f >>= g) s Q := h

theorem write {f : σ → σ} {P : Unit → σ → Prop} (h : P () (f s)) :
    Yields (Program.write f : Program σ ε Unit) s P := ⟨(), f s, rfl, h⟩

theorem lift {x : Except ε α} {a : α} (hx : x = .ok a) (h : Q a s) :
    Yields (Program.lift x) s Q := ⟨a, s, congrArg (·, s) hx, h⟩

theorem and {x : Program σ ε α} (hx : Yields x s Q) (h : ∀ a t, x s = (.ok a, t) → Q' a t) :
    Yields x s fun a t => Q' a t ∧ Q a t := by
  obtain ⟨a, t, hrun, hq⟩ := hx
  exact ⟨a, t, hrun, h a t hrun, hq⟩

theorem apply {x : Program σ ε α} (hx : Yields x s Q) {r : Except ε α} {t : σ}
    (hrun : x s = (r, t)) : ∃ a, r = .ok a ∧ Q a t := by
  obtain ⟨a, t', hrun', hq⟩ := hx
  cases hrun.symm.trans hrun'
  exact ⟨a, rfl, hq⟩

theorem ignore {x : Program σ ε Unit} {P : Unit → σ → Prop} (hx : Yields x s P) :
    Yields x.ignore s P := by
  obtain ⟨u, t, hrun, hq⟩ := hx
  exact ⟨u, t, by rw [Program.ignore, hrun], hq⟩

end Yields

/-- The program stops with `e`, and `Q` holds of the state it leaves. -/
def Halts (x : Program σ ε α) (s : σ) (e : ε) (Q : σ → Prop) : Prop :=
  ∃ s', x s = (.error e, s') ∧ Q s'

namespace Halts

variable {s : σ} {e : ε} {Q : σ → Prop}

theorem bind {x : Program σ ε α} (hx : Halts x s e Q) (f : α → Program σ ε β) :
    Halts (x >>= f) s e Q := by
  obtain ⟨t, hrun, hq⟩ := hx
  exact ⟨t, by rw [bind_run, hrun], hq⟩

theorem apply {x : Program σ ε α} (hx : Halts x s e Q) {r : Except ε α} {t : σ}
    (hrun : x s = (r, t)) : Q t := by
  obtain ⟨t', hrun', hq⟩ := hx
  cases hrun.symm.trans hrun'
  exact hq

end Halts

theorem Yields.bind_halts {x : Program σ ε α} {f : α → Program σ ε β} {s : σ} {e : ε}
    {P : α → σ → Prop} {Q : σ → Prop} (hx : Yields x s P)
    (hf : ∀ a t, P a t → Halts (f a) t e Q) : Halts (x >>= f) s e Q := by
  obtain ⟨a, t, hfirst, hp⟩ := hx
  obtain ⟨s', hrest, hq⟩ := hf a t hp
  exact ⟨s', by rw [bind_run, hfirst]; exact hrest, hq⟩

end Program

end EzIot
