import EzIot.Lib.Run

/-! # The slot of the download

`ez_ota_file_download` starts a thread and marks the slot as taken, in this order;
the thread frees it as the last thing it does. The two parties take their steps in
any order.
-/

namespace EzIot.Ota

open Run

inductive OtaErr
  | succ
  | downloadAlready
  | memError
deriving DecidableEq

/-- Where the caller stands: outside, or in a call before and after the thread is
created. -/
inductive Caller
  | idle (last : Option OtaErr)
  | checked
  | created
deriving DecidableEq

structure Slot where
  gDownloadStatus : Nat
  caller : Caller
  -- the download threads that run
  threads : Nat
deriving DecidableEq

def Slot.init : Slot := ⟨0, .idle none, 0⟩

inductive SlotStep
  -- the check at the start of `ez_ota_file_download`
  | call
  -- the allocation or the creation of the thread fails
  | createFails
  | create
  -- `g_download_status = 1` and the return
  | setBusy
  -- the last statement of `ota_file_download_thread`
  | threadEnd
deriving DecidableEq

def Slot.step (s : Slot) : SlotStep → Option Slot
  | .call =>
      match s.caller with
      | .idle _ =>
          if s.gDownloadStatus ≠ 0 then some { s with caller := .idle (some .downloadAlready) }
          else some { s with caller := .checked }
      | _ => none
  | .createFails =>
      if s.caller = .checked then some { s with caller := .idle (some .memError) } else none
  | .create =>
      if s.caller = .checked then some { s with caller := .created, threads := s.threads + 1 }
      else none
  | .setBusy =>
      if s.caller = .created then
        some { s with gDownloadStatus := 1, caller := .idle (some .succ) }
      else none
  | .threadEnd =>
      if s.threads = 0 then none
      else some { s with gDownloadStatus := 0, threads := s.threads - 1 }

/-- One thread at most when a call has returned `EZ_OTA_ERR_SUCC`, and a free slot
when nothing runs. -/
structure SlotSound (s : Slot) : Prop where
  single : s.caller = .idle (some .succ) → s.threads ≤ 1
  free : s.threads = 0 → (∃ last, s.caller = .idle last) → s.gDownloadStatus = 0

/-- No thread ends before the call that has created it marks the slot. -/
def EndsAfterMark (s : Slot) (i : SlotStep) : Prop := i = .threadEnd → s.caller ≠ .created

/-- What the slot says about the threads at each place of the caller. -/
def SlotInv (s : Slot) : Prop :=
  match s.caller with
  | .idle _ => s.threads = s.gDownloadStatus ∧ s.threads ≤ 1
  | .checked => s.threads = 0 ∧ s.gDownloadStatus = 0
  | .created => s.threads = 1 ∧ s.gDownloadStatus = 0

theorem SlotInv.sound {s : Slot} (h : SlotInv s) : SlotSound s := by
  constructor
  · intro hsucc
    simp only [SlotInv, hsucc] at h
    exact h.2
  · intro hnone ⟨last, hidle⟩
    simp only [SlotInv, hidle] at h
    exact h.1.symm.trans hnone

theorem SlotInv.step {s s' : Slot} {i : SlotStep} (h : SlotInv s) (hok : EndsAfterMark s i)
    (hstep : s.step i = some s') : SlotInv s' := by
  cases i with
  | call =>
      unfold Slot.step at hstep
      cases hc : s.caller with
      | idle last =>
          simp only [SlotInv, hc] at h
          simp only [hc] at hstep
          split at hstep <;> cases hstep
          · exact h
          · next hfree =>
              have hzero : s.gDownloadStatus = 0 := Decidable.not_not.mp hfree
              exact ⟨h.1.trans hzero, hzero⟩
      | _ => simp [hc] at hstep
  | createFails =>
      simp only [Slot.step, Option.ite_none_right_eq_some, Option.some.injEq] at hstep
      obtain ⟨hc, rfl⟩ := hstep
      simp only [SlotInv, hc] at h
      exact ⟨h.1.trans h.2.symm, show s.threads ≤ 1 by omega⟩
  | create =>
      simp only [Slot.step, Option.ite_none_right_eq_some, Option.some.injEq] at hstep
      obtain ⟨hc, rfl⟩ := hstep
      simp only [SlotInv, hc] at h
      exact ⟨show s.threads + 1 = 1 by omega, h.2⟩
  | setBusy =>
      simp only [Slot.step, Option.ite_none_right_eq_some, Option.some.injEq] at hstep
      obtain ⟨hc, rfl⟩ := hstep
      simp only [SlotInv, hc] at h
      exact ⟨h.1, show s.threads ≤ 1 by omega⟩
  | threadEnd =>
      simp only [Slot.step, Option.ite_none_left_eq_some, Option.some.injEq] at hstep
      obtain ⟨hrun, rfl⟩ := hstep
      cases hc : s.caller with
      | idle last =>
          simp only [SlotInv, hc] at h ⊢
          omega
      | checked =>
          simp only [SlotInv, hc] at h
          exact absurd h.1 hrun
      | created => exact absurd hc (hok rfl)

/-- A slot that is marked while nothing runs stays so, and every call is refused. -/
theorem stuck_forever {s s' : Slot} (hmarked : s.gDownloadStatus ≠ 0) (hnone : s.threads = 0)
    (hidle : ∃ last, s.caller = .idle last) (h : Reach Slot.step (fun _ _ => True) s s') :
    s'.gDownloadStatus ≠ 0 ∧ s'.threads = 0 ∧ (∃ last, s'.caller = .idle last) ∧
      s'.step .call = some { s' with caller := .idle (some .downloadAlready) } := by
  suffices hinv : s'.gDownloadStatus ≠ 0 ∧ s'.threads = 0 ∧ ∃ last, s'.caller = .idle last by
    obtain ⟨hmarked', hnone', last, hidle'⟩ := hinv
    refine ⟨hmarked', hnone', ⟨last, hidle'⟩, ?_⟩
    simp [Slot.step, hidle', hmarked']
  refine h.invariant (I := fun t => t.gDownloadStatus ≠ 0 ∧ t.threads = 0 ∧
    ∃ last, t.caller = .idle last) ⟨hmarked, hnone, hidle⟩ ?_
  rintro t i t' ⟨hmarked', hnone', last, hidle'⟩ - hstep
  cases i with
  | call =>
      simp only [Slot.step, hidle', if_pos hmarked', Option.some.injEq] at hstep
      subst hstep
      exact ⟨hmarked', hnone', _, rfl⟩
  | _ => simp [Slot.step, hidle', hnone'] at hstep

/-- As long as no thread ends before its call marks the slot, the slot is sound. -/
theorem slot_sound {s : Slot} (h : Reach Slot.step EndsAfterMark .init s) : SlotSound s :=
  SlotInv.sound (h.invariant (I := SlotInv) ⟨rfl, Nat.zero_le _⟩ fun _ _ _ hinv hok hstep =>
    hinv.step hok hstep)

/-- One download from the call to its end. -/
theorem slot_sound_after_download : SlotSound ⟨0, .idle (some .succ), 0⟩ := by
  refine slot_sound ?_
  refine .next (i := .threadEnd) (s := ⟨1, .idle (some .succ), 1⟩) ?_ (by simp [EndsAfterMark]) rfl
  refine .next (i := .setBusy) (s := ⟨0, .created, 1⟩) ?_ (by simp [EndsAfterMark]) rfl
  refine .next (i := .create) (s := ⟨0, .checked, 0⟩) ?_ (by simp [EndsAfterMark]) rfl
  exact .next (i := .call) .start (by simp [EndsAfterMark]) rfl

/-- The thread ends before the slot is marked: the slot stays taken. -/
theorem early_end_not_sound :
    ∃ s, Reach Slot.step (fun _ _ => True) .init s ∧ ¬ SlotSound s := by
  have hrun : [SlotStep.call, .create, .threadEnd, .setBusy].foldlM Slot.step .init =
      some ⟨1, .idle (some .succ), 0⟩ := by decide
  refine ⟨_, Reach.of_foldlM hrun, fun h => ?_⟩
  exact absurd (h.free rfl ⟨_, rfl⟩) (by decide)

end EzIot.Ota
