import Mathlib.Data.List.Forall2

/-! # Searching a list beside another one

Two lists are aligned when their elements are related one by one. What is found in
the one list is then found in the other; where the first match counts, the matches have
to be unique.
-/

namespace EzIot.Aligned

variable {α β : Type*} {R : α → β → Prop} {as : List α} {bs : List β}

theorem exists_of_mem (h : List.Forall₂ R as bs) {a : α} (ha : a ∈ as) : ∃ b ∈ bs, R a b := by
  induction h with
  | nil => exact absurd ha List.not_mem_nil
  | cons hab _ ih =>
      rcases List.mem_cons.mp ha with rfl | ha
      · exact ⟨_, List.mem_cons_self, hab⟩
      · obtain ⟨b, hb, hR⟩ := ih ha
        exact ⟨b, List.mem_cons_of_mem _ hb, hR⟩

theorem exists_mem_iff (h : List.Forall₂ R as bs) {P : β → Prop} {Q : α → Prop}
    (hPQ : ∀ a ∈ as, ∀ b, R a b → (P b ↔ Q a)) : (∃ b ∈ bs, P b) ↔ ∃ a ∈ as, Q a := by
  induction h with
  | nil => simp
  | cons hab _ ih =>
      simp only [List.mem_cons, exists_eq_or_imp]
      rw [hPQ _ List.mem_cons_self _ hab, ih fun a ha => hPQ a (List.mem_cons_of_mem _ ha)]

/-- The first match in the one list belongs to the only match in the other. -/
theorem exists_find?_iff (h : List.Forall₂ R as bs) {q : β → Bool} {N Q : α → Prop}
    {P : β → Prop} (hq : ∀ a ∈ as, ∀ b, R a b → (q b = true ↔ N a))
    (hPQ : ∀ a ∈ as, ∀ b, R a b → N a → (P b ↔ Q a))
    (hone : as.Pairwise fun a a' => N a → ¬ N a') :
    (∃ b, bs.find? q = some b ∧ P b) ↔ ∃ a ∈ as, N a ∧ Q a := by
  induction h with
  | nil => simp
  | cons hab _ ih =>
      rename_i a b as bs _
      rw [List.pairwise_cons] at hone
      have hrest := ih (fun a ha => hq a (List.mem_cons_of_mem _ ha))
        (fun a ha => hPQ a (List.mem_cons_of_mem _ ha)) hone.2
      simp only [List.mem_cons, exists_eq_or_imp]
      by_cases hN : N a
      · have hqb : q b = true := (hq a List.mem_cons_self b hab).mpr hN
        have hother : ¬ ∃ a' ∈ as, N a' ∧ Q a' :=
          fun ⟨a', ha', hN', _⟩ => hone.1 a' ha' hN hN'
        rw [List.find?_cons_of_pos hqb, or_iff_left hother, and_iff_right hN,
          ← hPQ a List.mem_cons_self b hab hN]
        simp
      · have hqb : ¬ q b = true := fun hqb => hN ((hq a List.mem_cons_self b hab).mp hqb)
        rw [List.find?_cons_of_neg hqb, hrest, or_iff_right fun hleft => hN hleft.1]

end EzIot.Aligned
