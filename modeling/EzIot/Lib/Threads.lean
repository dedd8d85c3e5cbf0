import Mathlib.Logic.Function.Basic

/-! # Threads beside each other

Each thread has a number and, while it runs, a place in its program. A step of one thread
moves it or ends it and leaves the others where they are.
-/

namespace EzIot.Threads

variable {ι α : Type*} [DecidableEq ι] {places : ι → Option α} {t t' : ι} {c c' : α}

theorem of_moved (h : Function.update places t (some c) t' = some c') :
    t' = t ∧ c' = c ∨ t' ≠ t ∧ places t' = some c' := by
  by_cases heq : t' = t
  · rw [heq, Function.update_self] at h
    exact .inl ⟨heq, (Option.some.inj h).symm⟩
  · rw [Function.update_of_ne heq] at h
    exact .inr ⟨heq, h⟩

theorem of_ended (h : Function.update places t none t' = some c') :
    t' ≠ t ∧ places t' = some c' := by
  by_cases heq : t' = t
  · rw [heq, Function.update_self] at h
    cases h
  · rw [Function.update_of_ne heq] at h
    exact ⟨heq, h⟩

/-- What another thread shows is still to be seen. -/
theorem exists_other {P : α → Prop} {next : Option α} (h : ∃ t' c', places t' = some c' ∧ P c')
    (hnot : ∀ c', places t = some c' → ¬ P c') :
    ∃ t' c', Function.update places t next t' = some c' ∧ P c' := by
  obtain ⟨t', c', hc, hP⟩ := h
  have hne : t' ≠ t := by
    rintro rfl
    exact hnot c' hc hP
  exact ⟨t', c', (Function.update_of_ne hne ..).trans hc, hP⟩

end EzIot.Threads
