import EzIot.Shadow.Core

/-! # What the operations do to one index

The counter of an index is written by the sync pass, and by whatever asks for its desired state
or brings it.
-/

namespace EzIot.Shadow

open CText CJson Nested Run

/-! ## Paths -/

abbrev IndexPath := Nat × Nat × Nat

def NodeIndexSet.nodeAt (t : NodeIndexSet) (k : Nat) : Option NodeIndex := t.indexLst[k]?

def NodeDev.nodeAt (d : NodeDev) : Nat × Nat → Option NodeIndex :=
  itemAt NodeIndexSet.nodeAt d.typeLst

/-- The index node behind a pointer. -/
def nodeAt (g : Modules) : IndexPath → Option NodeIndex := itemAt NodeDev.nodeAt g

def NodeIndex.budget (x : NodeIndex) : Bool × UInt16 := (x.needSync, x.retryCount)

def NodeIndexSet.budgetAt (t : NodeIndexSet) (k : Nat) : Option (Bool × UInt16) :=
  (t.nodeAt k).map NodeIndex.budget

def NodeDev.budgetAt (d : NodeDev) : Nat × Nat → Option (Bool × UInt16) :=
  itemAt NodeIndexSet.budgetAt d.typeLst

def budgetAt (g : Modules) : IndexPath → Option (Bool × UInt16) := itemAt NodeDev.budgetAt g

theorem budgetAt_eq (g : Modules) (p : IndexPath) :
    budgetAt g p = (nodeAt g p).map NodeIndex.budget := by
  simp only [budgetAt, nodeAt, itemAt, NodeDev.budgetAt, NodeDev.nodeAt, NodeIndexSet.budgetAt,
    Option.map_bind, Function.comp_def]

section Paths

variable {g : Modules} {p : IndexPath}

/-! ## Registrations and pushes -/

theorem addDomain_budget (r : Registration) (x : NodeIndex) :
    (shadowModuleAddDomain r.domainId r.props x).budget = x.budget := by
  unfold shadowModuleAddDomain
  split <;> rfl

theorem newDev_budgetAt (sn : CString) (p : Nat × Nat) : (newDev sn).budgetAt p = none :=
  itemAt_nil _ p

theorem budgetAt_addv3 (own : CString) (r : Registration) (p : IndexPath) :
    Extends Eq (fun b => b = (true, 0)) (budgetAt g p)
      (budgetAt (shadowCoreModuleAddv3 own r g).2 p) := by
  refine itemAt_upsert (fun _ => rfl) (fun d p => ?_) (newDev_budgetAt _) g p
  refine itemAt_upsert (fun _ => rfl) (fun t k => ?_) (fun _ => rfl) d.typeLst p
  unfold NodeIndexSet.budgetAt NodeIndexSet.nodeAt shadowModuleAddIndex
  dsimp only
  rw [getElem?_upsert]
  split
  next hk =>
    rw [hk, ← List.find?_eq_getElem?_findIdx, Option.map_some, addDomain_budget]
    cases t.indexLst.find? (isIndex r.index) with
    | none => exact .added rfl
    | some x => exact .kept rfl
  next => exact Extends.refl (fun _ => rfl) _

theorem budgetAt_modifyIndex_same {f : NodeIndex → NodeIndex} (hf : ∀ x, (f x).budget = x.budget)
    (i j k : Nat) : budgetAt (modifyIndex g i j k f) p = budgetAt g p := by
  refine itemAt_modify_same (fun d p => ?_) g i p
  refine itemAt_modify_same (fun t c => ?_) d.typeLst j p
  change Option.map NodeIndex.budget (t.indexLst.modify k f)[c]? =
    Option.map NodeIndex.budget t.indexLst[c]?
  rw [List.getElem?_modify]
  by_cases hk : k = c
  · simp [hk, hf, Function.comp_def]
  · simp [hk]

theorem budgetAt_push (own sn resType : CString) (index : Int16) (domainId pkey : CString)
    (value : Option ShadowValue) : budgetAt
      (shadowCorePropertieChanged own sn resType index domainId pkey value g).2 p = budgetAt g p := by
  rw [propertieChanged_eq]
  cases findKeyNode g (devName own sn) resType index domainId pkey with
  | error e => rfl
  | ok found => exact budgetAt_modifyIndex_same (by intro x; rfl) _ _ _

/-! ## Resets and replies -/

theorem nodeAt_mapIndex (f : NodeIndex → NodeIndex) (p : IndexPath) :
    nodeAt (mapIndex f g) p = (nodeAt g p).map f := by
  refine itemAt_map (fun d p => ?_) g p
  refine itemAt_map (fun t k => ?_) d.typeLst p
  exact List.getElem?_map

theorem nodeAt_modifyIndex_of_ne {f : NodeIndex → NodeIndex} {q : IndexPath} (h : p ≠ q) :
    nodeAt (modifyIndex g q.1 q.2.1 q.2.2 f) p = nodeAt g p := by
  refine itemAt_modify_of_ne (fun d p hp => ?_) g q.1 h
  refine itemAt_modify_of_ne (fun t k hk => ?_) d.typeLst q.2.1 hp
  exact List.getElem?_modify_ne _ _ (Ne.symm hk)

theorem nodeAt_modifyIndex (f : NodeIndex → NodeIndex) (p : IndexPath) :
    nodeAt (modifyIndex g p.1 p.2.1 p.2.2 f) p = (nodeAt g p).map f := by
  refine itemAt_modify (fun d => ?_) g p.1
  refine itemAt_modify (fun t => ?_) d.typeLst p.2.1
  exact List.getElem?_modify_eq _ _ _

/-- The reply is for the index at a path. -/
def ShadowRes.names (res : ShadowRes) (g : Modules) (p : IndexPath) : Bool :=
  match findIndexNode g res.devSerial.toCString res.resType.toCString res.localIndex with
  | .ok (q, _) => q == p
  | .error _ => false

theorem nodeAt_syncDisable (res : ShadowRes) (p : IndexPath) :
    nodeAt (shadowStatusSyncDisable res g) p = (nodeAt g p).map fun x =>
      if res.names g p then { x with needSync := false, syncTimer := .zero, retryCount := 0 }
      else x := by
  unfold shadowStatusSyncDisable ShadowRes.names
  cases findIndexNode g res.devSerial.toCString res.resType.toCString res.localIndex with
  | error err => simp
  | ok found =>
      obtain ⟨q, y⟩ := found
      by_cases hq : p = q
      · subst hq
        simpa using nodeAt_modifyIndex _ p
      · have hne : (q == p) = false := beq_false_of_ne (Ne.symm hq)
        simpa [hne] using nodeAt_modifyIndex_of_ne hq

/-! ## Passes over the keys -/

theorem budgetAt_sweepKeys {σ : Type}
    (f : CField 48 → CField 32 → Int16 → CField 32 → σ → NodeKey → σ × NodeKey × Bool) (s : σ)
    (p : IndexPath) : budgetAt (sweepKeys f s g).2.1 p = budgetAt g p := by
  refine itemAt_sweep_same (fun s d p => ?_) g s p
  refine itemAt_sweep_same (fun s t k => ?_) d.typeLst s p
  unfold NodeIndexSet.budgetAt NodeIndexSet.nodeAt
  change Option.map NodeIndex.budget (sweep (NodeIndex.sweepKeys (f d.devSn t.type)) s t.indexLst).2.1[k]? = _
  rw [getElem?_sweep, Option.map_map]
  congr 1
  funext x
  cases reached (NodeIndex.sweepKeys (f d.devSn t.type)) s t.indexLst k <;> rfl

end Paths

/-! ## The sync pass -/

/-- The wait for a reply is over, or there is none. -/
def NodeIndex.idle (v : SyncVisit) (x : NodeIndex) : Bool :=
  !(x.syncTimer.sec ≠ 0 && timeIsexpired x.syncTimer v.now == false)

/-- The visit calls `shadow_protocol_query_desired`. -/
def NodeIndex.queries (v : SyncVisit) (x : NodeIndex) : Bool :=
  x.needSync && x.idle v && x.retryCount + 1 ≤ syncRetryMax

section Sync

variable {env : Nat → SyncVisit} {v : SyncVisit} {s : SyncPass} {x : NodeIndex} {g : Modules}
  {p : IndexPath}

theorem syncIndex_eq (v : SyncVisit) (x : NodeIndex) : syncIndex v x =
    if x.needSync = false then (.done, x)
    else if x.idle v = false then (.remaining, x)
    else
      let x := { x with syncTimer := if x.syncTimer.sec ≠ 0 then .zero else x.syncTimer,
                        retryCount := x.retryCount + 1 }
      if x.retryCount > syncRetryMax then (.done, { x with retryCount := 0, needSync := false })
      else if v.sendOk then
        (.remaining, { x with syncTimer := timeCountdown (retryInterval * 1000) v.later })
      else (.failed, x) := by
  have hidle : x.idle v = false ↔ x.syncTimer.sec ≠ 0 ∧ timeIsexpired x.syncTimer v.now = false := by
    simp [NodeIndex.idle]
  unfold syncIndex
  simp only [hidle]

theorem syncIndex_budget (v : SyncVisit) (x : NodeIndex) : (syncIndex v x).2.budget =
    if x.needSync && x.idle v then
      if x.queries v then (true, x.retryCount + 1) else (false, 0)
    else x.budget := by
  rw [syncIndex_eq]
  unfold NodeIndex.queries
  cases hneed : x.needSync with
  | false => simp
  | true =>
      cases hidle : x.idle v with
      | false => simp
      | true =>
          by_cases hmax : x.retryCount + 1 ≤ syncRetryMax
          · have hnot : ¬ x.retryCount + 1 > syncRetryMax := UInt16.not_lt.mpr hmax
            cases v.sendOk <;> simp [hmax, hnot, NodeIndex.budget]
          · have hgt : x.retryCount + 1 > syncRetryMax := UInt16.not_le.mp hmax
            simp [hmax, hgt, NodeIndex.budget]

/-- A visit that ends the loop has called for a query. -/
theorem syncIndex_failed (h : (syncIndex v x).1 = .failed) :
    x.queries v = true ∧ (syncIndex v x).2.budget = (true, x.retryCount + 1) := by
  have hqueries : x.queries v = true := by
    rw [syncIndex_eq] at h
    unfold NodeIndex.queries
    grind
  have hboth : (x.needSync && x.idle v) = true := by
    unfold NodeIndex.queries at hqueries
    exact (Bool.and_eq_true_iff.mp hqueries).1
  exact ⟨hqueries, by rw [syncIndex_budget, if_pos hboth, if_pos hqueries]⟩

theorem visitIndex_eq (env : Nat → SyncVisit) (s : SyncPass) (x : NodeIndex) :
    (visitIndex env s x).2.1 = (syncIndex (env s.visited) x).2 ∧
      (visitIndex env s x).2.2 = ((syncIndex (env s.visited) x).1 == .failed) := by
  unfold visitIndex
  split <;> simp_all

/-- What the outside does during the visit of an index; a pass that leaves the loop before makes
none. -/
def visitOf (env : Nat → SyncVisit) (g : Modules) (p : IndexPath) : Option SyncVisit :=
  (reached (syncDev env) ⟨0, 0, false⟩ g p.1).bind fun s => g[p.1]?.bind fun d =>
    (reached (syncType env) s d.typeLst p.2.1).bind fun s => d.typeLst[p.2.1]?.bind fun t =>
      (reached (visitIndex env) s t.indexLst p.2.2).map fun s => env s.visited

theorem visitOf_env {v : SyncVisit} (h : visitOf env g p = some v) : ∃ n, v = env n := by
  unfold visitOf at h
  obtain ⟨s, -, h⟩ := Option.bind_eq_some_iff.mp h
  obtain ⟨d, -, h⟩ := Option.bind_eq_some_iff.mp h
  obtain ⟨s', -, h⟩ := Option.bind_eq_some_iff.mp h
  obtain ⟨t, -, h⟩ := Option.bind_eq_some_iff.mp h
  obtain ⟨s'', -, rfl⟩ := Option.map_eq_some_iff.mp h
  exact ⟨s''.visited, rfl⟩

/-- The pass over the indexes of one resource type, to which every pass comes. -/
theorem type_pass (env : Nat → SyncVisit) {i j : Nat} {d : NodeDev} {t : NodeIndexSet}
    (hd : g[i]? = some d) (ht : d.typeLst[j]? = some t) : ∃ s, ∀ k,
      visitOf env g (i, j, k) =
        (reached (visitIndex env) s t.indexLst k).map (fun s => env s.visited) ∧
      nodeAt (shadowProcSync env g).2 (i, j, k) = (sweep (visitIndex env) s t.indexLst).2.1[k]? := by
  have hi : i ≤ g.length := Nat.le_of_lt (List.getElem?_eq_some_iff.mp hd).choose
  have hj : j ≤ d.typeLst.length := Nat.le_of_lt (List.getElem?_eq_some_iff.mp ht).choose
  obtain ⟨s, hs⟩ := Option.isSome_iff_exists.mp
    (reached_of_no_exit (f := syncDev env) (s := ⟨0, 0, false⟩) (fun _ _ => rfl) hi)
  obtain ⟨s', hs'⟩ := Option.isSome_iff_exists.mp
    (reached_of_no_exit (f := syncType env) (s := s) (fun _ _ => rfl) hj)
  refine ⟨s', fun k => ⟨?_, ?_⟩⟩
  · simp only [visitOf, hs, hd, hs', ht, Option.bind_some]
  · simp only [shadowProcSync_eq, nodeAt, itemAt, getElem?_sweep, hd, hs, Option.map_some,
      Option.bind_some, NodeDev.nodeAt, syncDev, ht, hs', NodeIndexSet.nodeAt, syncType]

theorem nodeAt_procSync (env : Nat → SyncVisit) (g : Modules) (p : IndexPath) :
    nodeAt (shadowProcSync env g).2 p = (nodeAt g p).map fun x =>
      match visitOf env g p with
      | none => x
      | some v => (syncIndex v x).2 := by
  obtain ⟨i, j, k⟩ := p
  cases hd : g[i]? with
  | none => simp [shadowProcSync_eq, nodeAt, itemAt, getElem?_sweep, hd]
  | some d =>
      cases ht : d.typeLst[j]? with
      | none =>
          have hnone : nodeAt g (i, j, k) = none := by
            simp [nodeAt, itemAt, NodeDev.nodeAt, hd, ht]
          have hafter : nodeAt (shadowProcSync env g).2 (i, j, k) = none := by
            simp only [shadowProcSync_eq, nodeAt, itemAt, getElem?_sweep, hd, Option.map_some,
              Option.bind_some, NodeDev.nodeAt]
            cases reached (syncDev env) ⟨0, 0, false⟩ g i <;> simp [syncDev, getElem?_sweep, ht]
          rw [hnone, hafter]
          rfl
      | some t =>
          obtain ⟨s, hs⟩ := type_pass env hd ht
          have hnode : nodeAt g (i, j, k) = t.indexLst[k]? := by
            simp [nodeAt, itemAt, NodeDev.nodeAt, NodeIndexSet.nodeAt, hd, ht]
          rw [(hs k).1, (hs k).2, hnode, getElem?_sweep]
          cases t.indexLst[k]? with
          | none => rfl
          | some x =>
              cases reached (visitIndex env) s t.indexLst k with
              | none => rfl
              | some s' => exact congrArg some (visitIndex_eq env s' x).1

/-- A pass that does not visit an index was ended by one before it. -/
theorem skipped {x : NodeIndex} (hx : nodeAt g p = some x) (h : visitOf env g p = none) :
    ∃ m y v, m < p.2.2 ∧ nodeAt g (p.1, p.2.1, m) = some y ∧
      visitOf env g (p.1, p.2.1, m) = some v ∧ (syncIndex v y).1 = .failed := by
  obtain ⟨i, j, k⟩ := p
  obtain ⟨d, hd, ht⟩ := Option.bind_eq_some_iff.mp hx
  obtain ⟨t, ht, hk⟩ := Option.bind_eq_some_iff.mp ht
  dsimp only at hd ht hk
  obtain ⟨s, hs⟩ := type_pass env hd ht
  rw [(hs k).1, Option.map_eq_none_iff] at h
  have hlen : k ≤ t.indexLst.length := Nat.le_of_lt (List.getElem?_eq_some_iff.mp hk).choose
  obtain ⟨m, u, y, hm, hu, hy, hstop⟩ := exit_of_not_reached hlen h
  refine ⟨m, y, env u.visited, hm, ?_, ?_, ?_⟩
  · simp only [nodeAt, itemAt, NodeDev.nodeAt, hd, ht, Option.bind_some]
    exact hy
  · rw [(hs m).1, hu, Option.map_some]
  · rw [(visitIndex_eq env u y).2] at hstop
    exact eq_of_beq hstop

end Sync

end EzIot.Shadow
