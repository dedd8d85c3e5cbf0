import EzIot.Lib.Guard

/-! # Programs seen through a view

Often only a part of a state matters, its view. From one view a program comes to a result and
to another view; or it returns something, whatever that is; or it changes nothing that is
seen, wherever it stops. All three go through sequences step by step, and through labels and
locks that the view does not show.
-/

namespace EzIot.Views

open Program Guard

variable {σ ω ε ρ α β : Type}

/-- From one view, a program comes to a result and a view. -/
def RunsTo (view : σ → ω) (x : Program σ ε α) (v : ω) (r : Except ε α) (v' : ω) : Prop :=
  ∀ s, view s = v → (x s).1 = r ∧ view (x s).2 = v'

/-- From one view, a program returns something and leaves a view. -/
def Ends (view : σ → ω) (x : Program σ ε α) (v v' : ω) : Prop :=
  ∀ s, view s = v → (∃ a, (x s).1 = .ok a) ∧ view (x s).2 = v'

/-- From one view, a program changes nothing that is seen. It returns only such values, or it
stops on the way to a label. -/
def Quiet (view : σ → ω) (x : Program σ (Option ρ) α) (v : ω) (P : α → Prop) : Prop :=
  ∀ s, view s = v → (x s).1 ≠ .error none ∧ view (x s).2 = v ∧ ∀ a, (x s).1 = .ok a → P a

/-! ## Results -/

namespace RunsTo

variable {view : σ → ω} {x : Program σ ε α} {f : α → Program σ ε β} {v v' v'' : ω}

theorem bind {a : α} {r : Except ε β} (hx : RunsTo view x v (.ok a) v')
    (hf : RunsTo view (f a) v' r v'') : RunsTo view (x >>= f) v r v'' := by
  intro s hs
  obtain ⟨hr, hv⟩ := hx s hs
  rw [bind_run]
  cases hrun : x s with
  | mk r' s' =>
      rw [hrun] at hr hv
      cases hr
      exact hf s' hv

theorem stop_bind {e : ε} (hx : RunsTo view x v (.error e) v') (f : α → Program σ ε β) :
    RunsTo view (x >>= f) v (.error e) v' := by
  intro s hs
  obtain ⟨hr, hv⟩ := hx s hs
  rw [bind_run]
  cases hrun : x s with
  | mk r' s' =>
      rw [hrun] at hr hv
      cases hr
      exact ⟨rfl, hv⟩

theorem pure (a : α) : RunsTo view (Pure.pure a : Program σ ε α) v (.ok a) v :=
  fun _ hs => ⟨rfl, hs⟩

end RunsTo

/-! ## Returning -/

namespace Ends

variable {view : σ → ω} {v v' v'' : ω}

section Sequences

variable {x : Program σ ε α} {f : α → Program σ ε β}

theorem bind (hx : Ends view x v v') (hf : ∀ a, Ends view (f a) v' v'') :
    Ends view (x >>= f) v v'' := by
  intro s hs
  obtain ⟨⟨a, hr⟩, hv⟩ := hx s hs
  rw [bind_run]
  cases hrun : x s with
  | mk r s' =>
      rw [hrun] at hr hv
      cases hr
      exact hf a s' hv

theorem of_runsTo {a : α} (hx : RunsTo view x v (.ok a) v') : Ends view x v v' := by
  intro s hs
  obtain ⟨hr, hv⟩ := hx s hs
  exact ⟨⟨a, hr⟩, hv⟩

theorem pure (a : α) : Ends view (Pure.pure a : Program σ ε α) v v := of_runsTo (.pure a)

/-- Its result is not looked at. -/
theorem discard (hx : Ends view x v v') :
    RunsTo view (x >>= fun _ => Pure.pure ()) v (.ok ()) v' := by
  intro s hs
  obtain ⟨⟨a, hr⟩, hv⟩ := hx s hs
  rw [bind_run]
  cases hrun : x s with
  | mk r s' =>
      rw [hrun] at hr hv
      cases hr
      exact ⟨rfl, hv⟩

end Sequences

/-- A label is reached by everything that stops on the way to it. -/
theorem toLabel {x : Program σ (Option ρ) α}
    (hx : ∀ s, view s = v → (x s).1 ≠ .error none ∧ view (x s).2 = v') :
    Ends view (toLabel x) v v' := by
  intro s hs
  obtain ⟨hr, hv⟩ := hx s hs
  cases hrun : x s with
  | mk r s' =>
      rw [hrun] at hr hv
      cases r with
      | ok a =>
          rw [toLabel_of_ok hrun]
          exact ⟨⟨.ok a, rfl⟩, hv⟩
      | error e =>
          cases e with
          | none => exact absurd rfl hr
          | some rv =>
              rw [toLabel_of_jump hrun]
              exact ⟨⟨.error rv, rfl⟩, hv⟩

/-- A lock that is not seen. -/
theorem locked {view : σ × Lock → ω} {x : Program (σ × Lock) (Option ρ) α}
    (hlock : ∀ s l l', view (s, l) = view (s, l'))
    (hx : ∀ s, view s = v → (x s).1 ≠ .error none ∧ view (x s).2 = v') :
    Ends view (locked x) v v' := by
  have hbody : Ends view (Guard.toLabel x >>= fun r => do unlock; Pure.pure r) v v' :=
    (toLabel hx).bind fun r s hs => ⟨⟨r, rfl⟩, (hlock s.1 _ s.2).trans hs⟩
  intro s hs
  rw [locked_run]
  exact hbody (s.1, s.2.take) ((hlock s.1 _ s.2).trans hs)

theorem locked_of_runsTo {view : σ × Lock → ω} {x : Program (σ × Lock) (Option ρ) α}
    (hlock : ∀ s l l', view (s, l) = view (s, l')) {r : Except (Option ρ) α}
    (hx : RunsTo view x v r v') (hr : r ≠ .error none) : Ends view (Guard.locked x) v v' := by
  refine locked hlock fun s hs => ?_
  obtain ⟨hrun, hv⟩ := hx s hs
  exact ⟨hrun ▸ hr, hv⟩

end Ends

/-! ## Changing nothing -/

namespace Quiet

variable {view : σ → ω} {x : Program σ (Option ρ) α} {f : α → Program σ (Option ρ) β} {v : ω}
  {P : α → Prop} {Q : β → Prop}

theorem bind (hx : Quiet view x v P) (hf : ∀ a, P a → Quiet view (f a) v Q) :
    Quiet view (x >>= f) v Q := by
  intro s hs
  obtain ⟨hne, hv, hp⟩ := hx s hs
  rw [bind_run]
  cases hrun : x s with
  | mk r s' =>
      rw [hrun] at hne hv hp
      cases r with
      | ok a => exact hf a (hp a rfl) s' hv
      | error e => exact ⟨fun h => hne (by cases h; rfl), hv, nofun⟩

theorem pure {a : α} (h : P a) : Quiet view (Pure.pure a : Program σ (Option ρ) α) v P := by
  intro s hs
  refine ⟨nofun, hs, fun b hb => ?_⟩
  cases hb
  exact h

theorem ends_toLabel (hx : Quiet view x v P) : Ends view (toLabel x) v v :=
  .toLabel fun s hs => ⟨(hx s hs).1, (hx s hs).2.1⟩

theorem ends_locked {view : σ × Lock → ω} {x : Program (σ × Lock) (Option ρ) α}
    (hlock : ∀ s l l', view (s, l) = view (s, l')) (hx : Quiet view x v P) :
    Ends view (locked x) v v :=
  .locked hlock fun s hs => ⟨(hx s hs).1, (hx s hs).2.1⟩

end Quiet

end EzIot.Views
