import EzIot.Lib.Logged

/-! # Operations that may fail

An operation on a store returns a code, zero where it worked, and may fail at any time
without an effect. A macro that checks an operation evaluates it again where it failed, for
its message and for its result. What is logged is the state before each operation: there
the power can be lost.
-/

namespace EzIot.Faulty

open Program

variable {σ ι ε : Type}

/-- The codes that the evaluations of the operation at a place are to return; where one is
zero, the operation is not disturbed. -/
abbrev Outcomes (ι : Type) := ι → Nat → Int

/-- An evaluation of an operation, which itself gives a code and a state. -/
def attempt (out : Outcomes ι) (i : ι) (n : Nat) (f : σ → Int × σ) (s : σ) : Int × σ :=
  if out i n = 0 then f s else (out i n, s)

def evaluate (out : Outcomes ι) (i : ι) (n : Nat) (f : σ → Int × σ) : Logged σ σ ε Int := fun s =>
  (.ok (attempt out i n f s.1).1, (attempt out i n f s.1).2, s.2 ++ [s.1])

/-- `CHECK_COND_DONE` of an operation. -/
def checkCond (out : Outcomes ι) (i : ι) (f : σ → Int × σ) (e : ε) : Logged σ σ ε Unit := do
  let code ← evaluate out i 0 f
  if code ≠ 0 then do
    let _ ← evaluate out i 1 f
    stop e
  else pure ()

/-- `CHECK_RV_DONE` of an operation: its third evaluation gives the result. -/
def checkRv (out : Outcomes ι) (i : ι) (f : σ → Int × σ) (e : Int → ε) : Logged σ σ ε Unit := do
  let code ← evaluate out i 0 f
  if code ≠ 0 then do
    let _ ← evaluate out i 1 f
    let code ← evaluate out i 2 f
    stop (e code)
  else pure ()

/-- An operation that only reads. -/
def look (s : σ) : Int × σ := (0, s)

section Rules

variable {out : Outcomes ι} {i : ι} {n : Nat} {f : σ → Int × σ} {e : ε} {s : σ} {l : List σ}

theorem attempt_of_ok (h : out i n = 0) : attempt out i n f s = f s := if_pos h

theorem attempt_of_fail (h : out i n ≠ 0) : attempt out i n f s = (out i n, s) := if_neg h

@[simp] theorem attempt_look : attempt out i n look s = (out i n, s) := by
  unfold attempt look
  split
  next h => rw [h]
  next => rfl

theorem evaluate_bind {β : Type} {g : Int → Logged σ σ ε β} :
    (evaluate out i n f >>= g) (s, l) =
      g (attempt out i n f s).1 ((attempt out i n f s).2, l ++ [s]) := rfl

theorem checkCond_of_ok (h : (attempt out i 0 f s).1 = 0) :
    checkCond out i f e (s, l) = (.ok (), (attempt out i 0 f s).2, l ++ [s]) := by
  unfold checkCond
  rw [evaluate_bind, h]
  rfl

/-- The second evaluation may work, which is not looked at. -/
theorem checkCond_of_fail (h : (attempt out i 0 f s).1 ≠ 0) :
    checkCond out i f e (s, l) =
      (.error e, (attempt out i 1 f (attempt out i 0 f s).2).2,
        l ++ [s] ++ [(attempt out i 0 f s).2]) := by
  unfold checkCond
  rw [evaluate_bind, if_pos h, evaluate_bind]
  rfl

theorem checkRv_of_ok {e : Int → ε} (h : (attempt out i 0 f s).1 = 0) :
    checkRv out i f e (s, l) = (.ok (), (attempt out i 0 f s).2, l ++ [s]) := by
  unfold checkRv
  rw [evaluate_bind, h]
  rfl

theorem checkRv_of_fail {e : Int → ε} {t t' : σ} (h : (attempt out i 0 f s).1 ≠ 0)
    (ht : (attempt out i 0 f s).2 = t) (ht' : (attempt out i 1 f t).2 = t') :
    checkRv out i f e (s, l) =
      (.error (e (attempt out i 2 f t').1), (attempt out i 2 f t').2, l ++ [s] ++ [t] ++ [t']) := by
  unfold checkRv
  rw [evaluate_bind, if_pos h, evaluate_bind, ht, ht']
  rfl

theorem bind_of_ok {α β : Type} {x : Logged σ σ ε α} {a : α} {s' : σ} {l' : List σ}
    (h : x (s, l) = (.ok a, s', l')) (g : α → Logged σ σ ε β) : (x >>= g) (s, l) = g a (s', l') := by
  rw [bind_run, h]

theorem bind_of_error {α β : Type} {x : Logged σ σ ε α} {s' : σ} {l' : List σ}
    (h : x (s, l) = (.error e, s', l')) (g : α → Logged σ σ ε β) :
    (x >>= g) (s, l) = (.error e, s', l') := by
  rw [bind_run, h]

end Rules

/-! ## What programs keep -/

/-- What was logged stays. -/
def LogGrows (s s' : σ × List σ) : Prop := s.2 <+: s'.2

instance : Std.Refl (LogGrows (σ := σ)) := ⟨fun s => List.prefix_refl s.2⟩

instance : IsTrans (σ × List σ) LogGrows := ⟨fun _ _ _ h h' => List.IsPrefix.trans h h'⟩

/-- An invariant holds of the state and of every state that was logged. -/
def Keeps (I : σ → Prop) (s s' : σ × List σ) : Prop :=
  (I s.1 ∧ ∀ k ∈ s.2, I k) → I s'.1 ∧ ∀ k ∈ s'.2, I k

instance (I : σ → Prop) : Std.Refl (Keeps I) := ⟨fun _ h => h⟩

instance (I : σ → Prop) : IsTrans (σ × List σ) (Keeps I) := ⟨fun _ _ _ h h' hs => h' (h hs)⟩

section Within

variable {out : Outcomes ι} {i : ι} {n : Nat} {f : σ → Int × σ}

theorem within_evaluate :
    Within LogGrows (evaluate out i n f : Logged σ σ ε Int) := fun s => List.prefix_append s.2 [s.1]

/-- An operation that keeps an invariant keeps it whether it works or not. -/
theorem keeps_evaluate {I : σ → Prop} (h : ∀ s, I s → I (f s).2) :
    Within (Keeps I) (evaluate out i n f : Logged σ σ ε Int) := by
  rintro s ⟨hs, hl⟩
  refine ⟨?_, ?_⟩
  · show I (attempt out i n f s.1).2
    unfold attempt
    split
    · exact h s.1 hs
    · exact hs
  · show ∀ k ∈ s.2 ++ [s.1], I k
    simp only [List.forall_mem_append, List.forall_mem_singleton]
    exact ⟨hl, hs⟩

variable {R : σ × List σ → σ × List σ → Prop} [Std.Refl R] [IsTrans (σ × List σ) R]

theorem within_checkCond {e : ε}
    (h : ∀ n, Within R (evaluate out i n f : Logged σ σ ε Int)) :
    Within R (checkCond out i f e) := by
  unfold checkCond
  refine (h 0).bind fun code => ?_
  refine Within.ite ?_ (Within.pure ())
  exact (h 1).bind fun _ => Within.stop e

theorem within_checkRv {e : Int → ε}
    (h : ∀ n, Within R (evaluate out i n f : Logged σ σ ε Int)) :
    Within R (checkRv out i f e) := by
  unfold checkRv
  refine (h 0).bind fun code => ?_
  refine Within.ite ?_ (Within.pure ())
  refine (h 1).bind fun _ => ?_
  exact (h 2).bind fun code => Within.stop (e code)

end Within

section Grows

variable {out : Outcomes ι} {i : ι} {f : σ → Int × σ}

/-- The state before the first evaluation is logged. -/
theorem mem_log_checkRv {e : Int → ε} (s : σ) (l : List σ) :
    s ∈ (checkRv out i f e (s, l)).2.2 := by
  unfold checkRv
  rw [evaluate_bind]
  by_cases h : (attempt out i 0 f s).1 = 0
  · rw [h]
    exact List.mem_append_right l (List.mem_singleton_self s)
  · rw [if_pos h, evaluate_bind, evaluate_bind]
    simp [stop]

theorem mem_log_bind {α β : Type} {x : Logged σ σ ε α} {g : α → Logged σ σ ε β}
    {s : σ × List σ} {k : σ} (hg : ∀ a, Within LogGrows (g a)) (h : k ∈ (x s).2.2) :
    k ∈ ((x >>= g) s).2.2 := by
  rw [bind_run]
  cases hx : x s with
  | mk r s' =>
      rw [hx] at h
      cases r with
      | error e => exact h
      | ok a => exact List.IsPrefix.subset (hg a s') h

end Grows

end EzIot.Faulty
