import EzIot.Shadow.Ack
import EzIot.Shadow.Route

/-! # The shadow core

Everything that changes the registry: calls of the application, what the worker does, and
what comes from the cloud. A device that is removed moves those behind it, so a path is
followed from event to event.
-/

namespace EzIot.Shadow

open CText CJson Nested Run

inductive CoreEvent
  | register (r : Registration)
  | clear (sn : CString)
  | push (sn resType : CString) (index : Int16) (domainId pkey : CString)
      (value : Option ShadowValue)
  | reset
  | resync
  | report (env : Nat → Visit)
  | sync (env : Nat → SyncVisit)
  | ack (seq : UInt32) (code : Int)
  | queryReply (res : ShadowRes)

namespace CoreEvent

def apply (own : CString) (s : Core) : CoreEvent → Core
  | .register r => { s with modules := (shadowCoreModuleAddv3 own r s.modules).2 }
  | .clear sn => { s with modules := shadowCoreModuleClear own sn s.modules }
  | .push sn resType index domainId pkey value =>
      { s with modules :=
          (shadowCorePropertieChanged own sn resType index domainId pkey value s.modules).2 }
  | .reset => { s with modules := shadowStatusReset s.modules }
  | .resync => { s with modules := shadowStatus2sync s.modules }
  | .report env =>
      ⟨(shadowProcReport own env s.drawn s.modules).modules,
        (shadowProcReport own env s.drawn s.modules).drawn⟩
  | .sync env => { s with modules := (shadowProcSync env s.modules).2 }
  | .ack seq code => { s with modules := shadowReply2report seq code s.modules }
  | .queryReply res => { s with modules := shadowStatusSyncDisable res s.modules }

/-- Where an event leaves the device at a position, if it does not remove it. -/
def device (own : CString) (g : Modules) (i : Nat) : CoreEvent → Option Nat
  | .clear sn => erasedIndex (isDev (devName own sn)) g i
  | _ => some i

/-- The event is a push that finds the key at `q`. -/
def Pushes (own : CString) (s : Core) (q : KeyPath) : CoreEvent → Prop
  | .push sn resType index domainId pkey _ =>
      ∃ k, findKeyNode s.modules (devName own sn) resType index domainId pkey = .ok (q, k)
  | _ => False

def IsReport : CoreEvent → Prop
  | .report _ => True
  | _ => False

end CoreEvent

/-- The core after some events. -/
def coreAfter (own : CString) (es : List CoreEvent) (s : Core) : Core :=
  es.foldl (CoreEvent.apply own) s

/-! ## What an event does to a key -/

theorem syncIndex_domainLst (v : SyncVisit) (x : NodeIndex) :
    (syncIndex v x).2.domainLst = x.domainLst := by
  unfold syncIndex
  grind

theorem keyAt_mapIndex {f : NodeIndex → NodeIndex} (hf : ∀ x, (f x).domainLst = x.domainLst)
    (g : Modules) (q : KeyPath) : keyAt (mapIndex f g) q = keyAt g q := by
  have hsame : ∀ y : Option NodeKey, y.map id = y := fun y => by cases y <;> rfl
  rw [← hsame (keyAt g q)]
  refine itemAt_map (fun dev p => ?_) g q
  refine itemAt_map (fun t p => ?_) dev.typeLst p
  refine itemAt_map (fun x p => ?_) t.indexLst p
  rw [hsame]
  unfold NodeIndex.keyAt
  rw [hf]

/-! ### The loops of a sync pass -/

/-- The loop over the indexes of a resource type. -/
def syncType (env : Nat → SyncVisit) (s : SyncPass) (t : NodeIndexSet) :
    SyncPass × NodeIndexSet × Bool :=
  ((sweep (visitIndex env) s t.indexLst).1,
    { t with indexLst := (sweep (visitIndex env) s t.indexLst).2.1 }, false)

/-- The loop over the resource types of a device. -/
def syncDev (env : Nat → SyncVisit) (s : SyncPass) (d : NodeDev) : SyncPass × NodeDev × Bool :=
  ((sweep (syncType env) s d.typeLst).1,
    { d with typeLst := (sweep (syncType env) s d.typeLst).2.1 }, false)

theorem shadowProcSync_eq (env : Nat → SyncVisit) (g : Modules) :
    shadowProcSync env g =
      (if (sweep (syncDev env) ⟨0, 0, false⟩ g).1.totalRemaining ≠ 0 then 1
        else if (sweep (syncDev env) ⟨0, 0, false⟩ g).1.failed then -1 else 0,
        (sweep (syncDev env) ⟨0, 0, false⟩ g).2.1) := rfl

theorem visitIndex_domainLst (env : Nat → SyncVisit) (s : SyncPass) (x : NodeIndex) :
    (visitIndex env s x).2.1.domainLst = x.domainLst := by
  have hsame := syncIndex_domainLst (env s.visited) x
  unfold visitIndex
  split <;> simp_all

theorem keyAt_procSync (env : Nat → SyncVisit) (g : Modules) (q : KeyPath) :
    keyAt (shadowProcSync env g).2 q = keyAt g q := by
  rw [shadowProcSync_eq]
  refine itemAt_sweep_same (fun s dev p => ?_) g _ q
  refine itemAt_sweep_same (fun s t p => ?_) dev.typeLst s p
  refine itemAt_sweep_same (fun s x p => ?_) t.indexLst s p
  unfold NodeIndex.keyAt
  rw [visitIndex_domainLst]

theorem keyAt_clear {own sn : CString} {g : Modules} {i j : Nat}
    (h : erasedIndex (isDev (devName own sn)) g i = some j) (p : Nat × Nat × Nat × Nat × Unit) :
    keyAt (shadowCoreModuleClear own sn g) (j, p) = keyAt g (i, p) := itemAt_eraseP h p

section Keys

variable {own : CString} {s : Core} {e : CoreEvent} {i j : Nat}
  {p : Nat × Nat × Nat × Nat × Unit} {k : NodeKey}

/-- The key keeps its value and its timer, and stays due if it was. -/
structure Stays (k k' : NodeKey) : Prop where
  jsonValue : k'.jsonValue = k.jsonValue
  reportTimer : k'.reportTimer = k.reportTimer
  needReport : k.needReport = true → k'.needReport = true

theorem Stays.refl (k : NodeKey) : Stays k k := ⟨rfl, rfl, id⟩

theorem Stays.trans {k₁ k₂ k₃ : NodeKey} (h : Stays k₁ k₂) (h' : Stays k₂ k₃) : Stays k₁ k₃ :=
  ⟨h'.jsonValue.trans h.jsonValue, h'.reportTimer.trans h.reportTimer,
    fun hdue => h'.needReport (h.needReport hdue)⟩

theorem keyAt_register (r : Registration) {q : KeyPath} (h : keyAt s.modules q = some k) :
    ∃ k', keyAt (shadowCoreModuleAddv3 own r s.modules).2 q = some k' ∧ Stays k k' := by
  have hext : Extends Stays (fun _ => True) _ _ := keyAt_addv3_rel (g := s.modules) Stays.refl
    (fun _ _ _ => Stays.trans) (fun _ _ _ _ => trivial) (fun _ _ => ⟨rfl, rfl, fun _ => rfl⟩)
    (fun _ => trivial) own r q
  rw [h] at hext
  exact hext.of_some

/-- An event that is no pass and no push of a key leaves it due with its value, or it is an
acknowledgement with its number. -/
theorem apply_key (h : keyAt s.modules (i, p) = some k) (hreport : ¬ e.IsReport)
    (hpush : ¬ e.Pushes own s (i, p)) (hmove : e.device own s.modules i = some j) :
    ∃ k', keyAt (e.apply own s).modules (j, p) = some k' ∧
      (Stays k k' ∨ ∃ code, e = .ack k.msgSeq code ∧ k' = k.acknowledged code) := by
  cases e with
  | register r =>
      cases hmove
      obtain ⟨k', hk', hstays⟩ := keyAt_register r h
      exact ⟨k', hk', .inl hstays⟩
  | clear sn => exact ⟨k, (keyAt_clear hmove p).trans h, .inl (.refl k)⟩
  | push sn resType index domainId pkey value =>
      cases hmove
      refine ⟨k, ?_, .inl (.refl k)⟩
      simp only [CoreEvent.apply, propertieChanged_eq]
      cases hfind : findKeyNode s.modules (devName own sn) resType index domainId pkey with
      | error err => exact h
      | ok found =>
          obtain ⟨q, node⟩ := found
          have hne : (i, p) ≠ q := by
            intro hsame
            subst hsame
            exact hpush ⟨node, hfind⟩
          exact (keyAt_pushAt_of_ne value hne).trans h
  | reset =>
      cases hmove
      refine ⟨{ k with needReport := true }, ?_, .inl ⟨rfl, rfl, fun _ => rfl⟩⟩
      rw [CoreEvent.apply, keyAt_reset, h, Option.map_some]
  | resync =>
      cases hmove
      have hsame : keyAt (shadowStatus2sync s.modules) (i, p) = keyAt s.modules (i, p) :=
        keyAt_mapIndex (by intro x; rfl) _ _
      exact ⟨k, hsame.trans h, .inl (.refl k)⟩
  | report env => exact absurd trivial hreport
  | sync env =>
      cases hmove
      exact ⟨k, (keyAt_procSync env s.modules (i, p)).trans h, .inl (.refl k)⟩
  | ack seq code =>
      cases hmove
      have hext := keyAt_reply2report seq code s.modules (i, p)
      rw [h] at hext
      obtain ⟨k', hk', rfl | ⟨rfl, rfl⟩⟩ := hext.of_some
      · exact ⟨k', hk', .inl (.refl k')⟩
      · exact ⟨_, hk', .inr ⟨code, rfl, rfl⟩⟩
  | queryReply res =>
      cases hmove
      exact ⟨k, (keyAt_syncDisable res s.modules (i, p)).trans h, .inl (.refl k)⟩

end Keys

end EzIot.Shadow
