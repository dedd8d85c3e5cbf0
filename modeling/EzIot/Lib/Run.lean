import Mathlib.Data.List.Basic

/-! # Runs of a deterministic system under a list of inputs

The inputs of a run are a list and its states are indexed by time: state `n` is
the one before input `n`. Properties that compare different moments of one run
are stated through these indexes. A system that may have no next state is followed
through the states it reaches.
-/

namespace EzIot.Run

/-! ## Total systems -/

section Total

variable {σ ι : Type*} (step : σ → ι → σ)

def stateAt (s : σ) (run : List ι) (n : Nat) : σ := (run.take n).foldl step s

@[simp] theorem stateAt_zero (s : σ) (run : List ι) : stateAt step s run 0 = s := rfl

theorem stateAt_succ {s : σ} {run : List ι} {n : Nat} {i : ι} (h : run[n]? = some i) :
    stateAt step s run (n + 1) = step (stateAt step s run n) i := by
  unfold stateAt
  rw [List.take_add_one, h, List.foldl_append]
  rfl

/-- Induction over time: what holds at the start and is carried over each input
of the run holds at every moment of it. -/
theorem stateAt_induction {s : σ} {run : List ι} {I : Nat → σ → Prop} (h0 : I 0 s)
    (hstep : ∀ n i, run[n]? = some i → I n (stateAt step s run n) →
      I (n + 1) (step (stateAt step s run n) i)) :
    ∀ n, n ≤ run.length → I n (stateAt step s run n) := by
  intro n
  induction n with
  | zero => exact fun _ => h0
  | succ n ih =>
      intro hn
      have hget : run[n]? = some run[n] := List.getElem?_eq_getElem hn
      rw [stateAt_succ step hget]
      exact hstep n _ hget (ih (Nat.le_of_succ_le hn))

theorem stateAt_monotone {s : σ} {run : List ι} {f : σ → Nat}
    (h : ∀ t i, f t ≤ f (step t i)) {m n : Nat} (hmn : m ≤ n) (hn : n ≤ run.length) :
    f (stateAt step s run m) ≤ f (stateAt step s run n) := by
  induction n with
  | zero =>
      have hm : m = 0 := by omega
      subst hm
      exact Nat.le_refl _
  | succ n ih =>
      rcases Nat.lt_or_ge m (n + 1) with hlt | hge
      · have hget : run[n]? = some run[n] := List.getElem?_eq_getElem hn
        rw [stateAt_succ step hget]
        exact Nat.le_trans (ih (by omega) (by omega)) (h _ _)
      · have hm : m = n + 1 := by omega
        subst hm
        exact Nat.le_refl _

end Total

/-! ## Partial systems -/

/-- The states that a partial system reaches when every input on the way meets
`Ok` in the state it is taken in. -/
inductive Reach {σ ι : Type*} (step : σ → ι → Option σ) (Ok : σ → ι → Prop) (s₀ : σ) : σ → Prop
  | start : Reach step Ok s₀ s₀
  | next {s s' : σ} {i : ι} : Reach step Ok s₀ s → Ok s i → step s i = some s' →
      Reach step Ok s₀ s'

theorem foldlM_cons_eq_some {σ ι : Type*} {step : σ → ι → Option σ} {s t : σ} {i : ι}
    {inputs : List ι} : (i :: inputs).foldlM step s = some t ↔
      ∃ s', step s i = some s' ∧ inputs.foldlM step s' = some t := by
  rw [List.foldlM_cons]
  exact Option.bind_eq_some_iff

/-- The step of a system that stops at an input that does not meet `Ok`. -/
def guarded {σ ι : Type*} (step : σ → ι → Option σ) (Ok : σ → ι → Prop)
    [∀ s i, Decidable (Ok s i)] (s : σ) (i : ι) : Option σ := if Ok s i then step s i else none

theorem guarded_eq_some {σ ι : Type*} {step : σ → ι → Option σ} {Ok : σ → ι → Prop}
    [∀ s i, Decidable (Ok s i)] {s s' : σ} {i : ι} :
    guarded step Ok s i = some s' ↔ Ok s i ∧ step s i = some s' := by
  unfold guarded
  exact Option.ite_none_right_eq_some

/-- A list of inputs along which every step of one system is an allowed step of another. -/
theorem Reach.of_run {σ ι : Type*} {step step' : σ → ι → Option σ} {Ok : σ → ι → Prop} {s₀ s : σ}
    {inputs : List ι}
    (hsteps : ∀ t, ∀ i ∈ inputs, ∀ t', step' t i = some t' → Ok t i ∧ step t i = some t')
    (h : inputs.foldlM step' s₀ = some s) : Reach step Ok s₀ s := by
  suffices hfrom : ∀ t, Reach step Ok s₀ t → inputs.foldlM step' t = some s → Reach step Ok s₀ s from
    hfrom s₀ .start h
  clear h
  induction inputs with
  | nil =>
      intro t ht h
      cases h
      exact ht
  | cons i inputs ih =>
      intro t ht h
      obtain ⟨t', hnext, hrest⟩ := foldlM_cons_eq_some.mp h
      obtain ⟨hok, hstep⟩ := hsteps t i List.mem_cons_self t' hnext
      exact ih (fun t i hi => hsteps t i (List.mem_cons_of_mem _ hi)) t' (ht.next hok hstep) hrest

/-- A list of inputs that are each found to meet `Ok` and have a next state. -/
theorem Reach.of_guarded {σ ι : Type*} {step : σ → ι → Option σ} {Ok : σ → ι → Prop}
    [∀ s i, Decidable (Ok s i)] {s₀ s : σ} {inputs : List ι}
    (h : inputs.foldlM (guarded step Ok) s₀ = some s) : Reach step Ok s₀ s :=
  Reach.of_run (fun _ _ _ _ => guarded_eq_some.mp) h

/-- A list of inputs that meet `Ok` in every state and each have a next one. -/
theorem Reach.of_forall {σ ι : Type*} {step : σ → ι → Option σ} {Ok : σ → ι → Prop} {s₀ s : σ}
    {inputs : List ι} (hok : ∀ t, ∀ i ∈ inputs, Ok t i) (h : inputs.foldlM step s₀ = some s) :
    Reach step Ok s₀ s :=
  Reach.of_run (fun t i hi _ hstep => ⟨hok t i hi, hstep⟩) h

/-- A list of inputs that each have a next state. -/
theorem Reach.of_foldlM {σ ι : Type*} {step : σ → ι → Option σ} {s₀ s : σ} {inputs : List ι}
    (h : inputs.foldlM step s₀ = some s) : Reach step (fun _ _ => True) s₀ s :=
  Reach.of_forall (fun _ _ _ => trivial) h

theorem Reach.invariant {σ ι : Type*} {step : σ → ι → Option σ} {Ok : σ → ι → Prop} {s₀ s : σ}
    {I : σ → Prop} (h : Reach step Ok s₀ s) (h₀ : I s₀)
    (hstep : ∀ s i s', I s → Ok s i → step s i = some s' → I s') : I s := by
  induction h with
  | start => exact h₀
  | next _ hok hnext ih => exact hstep _ _ _ ih hok hnext

/-- A relation to a second system that every step keeps, with a step of its own or with none:
the runs are related to runs of that system. -/
theorem Reach.simulated {σ τ ι κ : Type*} {step : σ → ι → Option σ} {Ok : σ → ι → Prop}
    {step' : τ → κ → Option τ} {Ok' : τ → κ → Prop} {R : σ → τ → Prop} {s₀ s : σ} {t₀ : τ}
    (h : Reach step Ok s₀ s) (h₀ : R s₀ t₀)
    (hstep : ∀ s i s' t, Reach step' Ok' t₀ t → R s t → Ok s i → step s i = some s' →
      R s' t ∨ ∃ j t', Ok' t j ∧ step' t j = some t' ∧ R s' t') :
    ∃ t, Reach step' Ok' t₀ t ∧ R s t := by
  induction h with
  | start => exact ⟨t₀, .start, h₀⟩
  | next _ hok hnext ih =>
      obtain ⟨t, ht, hr⟩ := ih
      rcases hstep _ _ _ t ht hr hok hnext with hsame | ⟨j, t', hok', hnext', hr'⟩
      · exact ⟨t, ht, hsame⟩
      · exact ⟨t', ht.next hok' hnext', hr'⟩

end EzIot.Run
