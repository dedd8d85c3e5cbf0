import Mathlib.Algebra.Order.BigOperators.Group.Finset
import EzIot.Shadow.Indexes

/-! # The retry budget of a synchronisation

Every visit of an index that is not waiting uses up a turn: a query, or in the last one the end
of the synchronisation. The turns left are counted from `retry_count`, which a reset does not
write.
-/

namespace EzIot.Shadow

open CText CJson Nested Run

/-! ## Runs without an answer -/

namespace CoreEvent

def Restarts : CoreEvent → Prop
  | .reset | .resync => True
  | _ => False

def answers (s : Core) (p : IndexPath) : CoreEvent → Bool
  | .queryReply res => res.names s.modules p
  | _ => false

/-- The visit of the index, if the event is a pass that comes to it. -/
def visit (s : Core) (p : IndexPath) : CoreEvent → Option SyncVisit
  | .sync env => visitOf env s.modules p
  | _ => none

/-- The pass comes to the index, and it is not waiting for a reply. -/
def turn (s : Core) (p : IndexPath) (e : CoreEvent) : Bool :=
  match e.visit s p, nodeAt s.modules p with
  | some v, some x => x.idle v
  | _, _ => false

/-- The pass calls for a query of the index. -/
def asks (s : Core) (p : IndexPath) (e : CoreEvent) : Bool :=
  match e.visit s p, nodeAt s.modules p with
  | some v, some x => x.queries v
  | _, _ => false

/-- The pass does not come to the index. -/
def skips (s : Core) (p : IndexPath) : CoreEvent → Bool
  | .sync env => (visitOf env s.modules p).isNone
  | _ => false

end CoreEvent

/-- No reset, no resync and no reply for the index, and its device is not removed. The index goes
from `p` to `p'`. -/
def Quiet (own : CString) : List CoreEvent → Core → IndexPath → IndexPath → Prop
  | [], _, p, p' => p' = p
  | e :: es, s, p, p' =>
      ¬ e.Restarts ∧ e.answers s p = false ∧
        ∃ j, e.device own s.modules p.1 = some j ∧ Quiet own es (e.apply own s) (j, p.2) p'

/-- The number of events of a run that do something to the index. -/
def countAlong (f : Core → IndexPath → CoreEvent → Bool) (own : CString) :
    List CoreEvent → Core → IndexPath → Nat
  | [], _, _ => 0
  | e :: es, s, p =>
      (f s p e).toNat +
        match e.device own s.modules p.1 with
        | none => 0
        | some j => countAlong f own es (e.apply own s) (j, p.2)

theorem countAlong_cons {own : CString} {s : Core} {e : CoreEvent} {i j : Nat}
    (f : Core → IndexPath → CoreEvent → Bool) (hmove : e.device own s.modules i = some j)
    (es : List CoreEvent) (p : Nat × Nat) : countAlong f own (e :: es) s (i, p) =
      (f s (i, p) e).toNat + countAlong f own es (e.apply own s) (j, p) := by
  rw [countAlong, hmove]

abbrev turns : CString → List CoreEvent → Core → IndexPath → Nat := countAlong CoreEvent.turn
abbrev queries : CString → List CoreEvent → Core → IndexPath → Nat := countAlong CoreEvent.asks
abbrev skips : CString → List CoreEvent → Core → IndexPath → Nat := countAlong CoreEvent.skips

/-! ## One event -/

section Step

variable {own : CString} {s : Core} {e : CoreEvent} {i j : Nat} {p : Nat × Nat} {x : NodeIndex}

theorem budgetAt_eq_some {g : Modules} {q : IndexPath} {b : Bool × UInt16} :
    budgetAt g q = some b ↔ ∃ x, nodeAt g q = some x ∧ x.budget = b := by
  rw [budgetAt_eq, Option.map_eq_some_iff]

/-- The budget of an index after an event that restarts nothing. -/
def CoreEvent.budgetAfter (s : Core) (p : IndexPath) (x : NodeIndex) (e : CoreEvent) : Bool × UInt16 :=
  if e.answers s p then (false, 0)
  else
    match e.visit s p with
    | none => x.budget
    | some v => (syncIndex v x).2.budget

theorem apply_budget (h : nodeAt s.modules (i, p) = some x) (hrestart : ¬ e.Restarts)
    (hmove : e.device own s.modules i = some j) :
    budgetAt (e.apply own s).modules (j, p) = some (e.budgetAfter s (i, p) x) := by
  have hb : budgetAt s.modules (i, p) = some x.budget := budgetAt_eq_some.mpr ⟨x, h, rfl⟩
  cases e with
  | register r =>
      cases hmove
      have hext := budgetAt_addv3 (g := s.modules) own r (i, p)
      rw [hb] at hext
      obtain ⟨b, hb', rfl⟩ := hext.of_some
      exact hb'
  | clear sn => exact (itemAt_eraseP hmove p).trans hb
  | push sn resType index domainId pkey value =>
      cases hmove
      exact (budgetAt_push own sn resType index domainId pkey value).trans hb
  | reset => exact absurd trivial hrestart
  | resync => exact absurd trivial hrestart
  | report env =>
      cases hmove
      exact (budgetAt_sweepKeys _ _ _).trans hb
  | sync env =>
      cases hmove
      have hafter := nodeAt_procSync env s.modules (i, p)
      rw [h, Option.map_some] at hafter
      refine budgetAt_eq_some.mpr ⟨_, hafter, ?_⟩
      change _ = match visitOf env s.modules (i, p) with
        | none => x.budget
        | some v => (syncIndex v x).2.budget
      cases visitOf env s.modules (i, p) <;> rfl
  | ack seq code =>
      cases hmove
      exact (budgetAt_sweepKeys _ _ _).trans hb
  | queryReply res =>
      cases hmove
      have hafter := nodeAt_syncDisable (g := s.modules) res (i, p)
      rw [h, Option.map_some] at hafter
      refine budgetAt_eq_some.mpr ⟨_, hafter, ?_⟩
      change _ = if res.names s.modules (i, p) then (false, 0) else x.budget
      split <;> rfl

end Step

/-! ## The counters stay in bounds -/

def Bounded (g : Modules) : Prop := ∀ p b, budgetAt g p = some b → b.2 ≤ syncRetryMax

section Bounds

variable {s : Core} {g : Modules}

theorem Bounded.retryCount_le {p : IndexPath} {x : NodeIndex} (h : Bounded g)
    (hx : nodeAt g p = some x) : x.retryCount ≤ syncRetryMax :=
  h p x.budget (budgetAt_eq_some.mpr ⟨x, hx, rfl⟩)

theorem syncIndex_le (v : SyncVisit) {x : NodeIndex} (h : x.retryCount ≤ syncRetryMax) :
    (syncIndex v x).2.budget.2 ≤ syncRetryMax := by
  rw [syncIndex_budget]
  split
  · split
    next hqueries =>
      unfold NodeIndex.queries at hqueries
      simp only [Bool.and_eq_true, decide_eq_true_eq] at hqueries
      exact hqueries.2
    next => decide
  · exact h

theorem Bounded.map {f : NodeIndex → NodeIndex} (h : Bounded g)
    (hf : ∀ x, x.retryCount ≤ syncRetryMax → (f x).retryCount ≤ syncRetryMax) :
    Bounded (mapIndex f g) := by
  intro p b hb
  obtain ⟨y, hy, rfl⟩ := budgetAt_eq_some.mp hb
  rw [nodeAt_mapIndex] at hy
  obtain ⟨x, hx, rfl⟩ := Option.map_eq_some_iff.mp hy
  exact hf x (h.retryCount_le hx)

theorem apply_bounded (own : CString) (h : Bounded s.modules) (e : CoreEvent) :
    Bounded (e.apply own s).modules := by
  cases e with
  | register r =>
      intro p b hb
      have hext := budgetAt_addv3 (g := s.modules) own r p
      rw [show budgetAt (shadowCoreModuleAddv3 own r s.modules).2 p = some b from hb] at hext
      rcases hext.to_some with ⟨b', hb', rfl⟩ | ⟨-, rfl⟩
      · exact h p b' hb'
      · decide
  | clear sn =>
      intro q b hb
      rcases q with ⟨i, p⟩
      obtain ⟨d, hd, hp⟩ := Option.bind_eq_some_iff.mp hb
      have hmem : d ∈ s.modules := List.mem_of_mem_eraseP (List.mem_of_getElem? hd)
      obtain ⟨i', hi'⟩ := List.getElem?_of_mem hmem
      refine h (i', p) b ?_
      rw [budgetAt, itemAt, hi', Option.bind_some]
      exact hp
  | push sn resType index domainId pkey value =>
      intro p b hb
      exact h p b ((budgetAt_push own sn resType index domainId pkey value).symm.trans hb)
  | reset => exact h.map fun _ hx => hx
  | resync => exact h.map fun _ _ => UInt16.zero_le
  | report env =>
      intro p b hb
      exact h p b ((budgetAt_sweepKeys _ _ _).symm.trans hb)
  | sync env =>
      intro p b hb
      obtain ⟨y, hy, rfl⟩ := budgetAt_eq_some.mp hb
      obtain ⟨x, hx, rfl⟩ :=
        Option.map_eq_some_iff.mp ((nodeAt_procSync env s.modules p).symm.trans hy)
      have hle := h.retryCount_le hx
      cases visitOf env s.modules p with
      | none => exact hle
      | some v => exact syncIndex_le v hle
  | ack seq code =>
      intro p b hb
      exact h p b ((budgetAt_sweepKeys _ _ _).symm.trans hb)
  | queryReply res =>
      intro p b hb
      obtain ⟨y, hy, rfl⟩ := budgetAt_eq_some.mp hb
      obtain ⟨x, hx, rfl⟩ := Option.map_eq_some_iff.mp ((nodeAt_syncDisable res p).symm.trans hy)
      split
      · exact UInt16.zero_le
      · exact h.retryCount_le hx

theorem coreAfter_bounded (own : CString) (h : Bounded s.modules) (es : List CoreEvent) :
    Bounded (coreAfter own es s).modules := by
  induction es generalizing s with
  | nil => exact h
  | cons e es ih => exact ih (apply_bounded own h e)

end Bounds

/-! ## Turns -/

/-- The turns until the synchronisation ends. -/
def turnsLeft (b : Bool × UInt16) : Nat :=
  if b.1 then syncRetryMax.toNat + 1 - b.2.toNat else 0

section Turns

variable {own : CString} {s : Core} {e : CoreEvent} {es : List CoreEvent} {i j : Nat}
  {p : Nat × Nat} {q q' : IndexPath} {x : NodeIndex}

theorem retryCount_succ (h : x.retryCount ≤ syncRetryMax) :
    (x.retryCount + 1).toNat = x.retryCount.toNat + 1 := by
  have hle : x.retryCount.toNat ≤ 3 := UInt16.le_iff_toNat_le.mp h
  rw [UInt16.toNat_add]
  exact Nat.mod_eq_of_lt (by change x.retryCount.toNat + 1 < 65536; omega)

theorem queries_le {v : SyncVisit} (h : x.retryCount ≤ syncRetryMax) :
    x.queries v = true ↔ (x.needSync && x.idle v) = true ∧ x.retryCount.toNat + 1 ≤ syncRetryMax.toNat := by
  unfold NodeIndex.queries
  rw [Bool.and_eq_true, decide_eq_true_eq, UInt16.le_iff_toNat_le, retryCount_succ h]

/-- A visit of an index that is not waiting takes a turn, and each turn but the last is a query. -/
theorem syncIndex_turn (v : SyncVisit) (h : x.retryCount ≤ syncRetryMax) :
    turnsLeft (syncIndex v x).2.budget = turnsLeft x.budget - (x.idle v).toNat ∧
      (x.queries v).toNat = min (x.idle v).toNat (turnsLeft x.budget - 1) := by
  have hle : x.retryCount.toNat ≤ 3 := UInt16.le_iff_toNat_le.mp h
  have hmax : syncRetryMax.toNat = 3 := rfl
  have hqueries := queries_le (v := v) h
  rw [syncIndex_budget]
  cases hneed : x.needSync with
  | false =>
      have hnot : x.queries v = false := by
        simp [NodeIndex.queries, hneed]
      simp [turnsLeft, NodeIndex.budget, hneed, hnot]
  | true =>
      cases hidle : x.idle v with
      | false =>
          have hnot : x.queries v = false := by
            simp [NodeIndex.queries, hidle]
          simp [hnot]
      | true =>
          cases hasks : x.queries v with
          | false =>
              have hlast : ¬ x.retryCount.toNat + 1 ≤ 3 := fun hroom =>
                absurd (hasks.symm.trans (hqueries.mpr ⟨by simp [hneed, hidle], hroom⟩)) (by decide)
              simp only [turnsLeft, NodeIndex.budget, hneed, hmax, Bool.and_self, Bool.toNat_true,
                Bool.toNat_false, if_true, Bool.false_eq_true, if_false]
              omega
          | true =>
              have hroom := (hqueries.mp hasks).2
              simp only [turnsLeft, NodeIndex.budget, hneed, hmax, Bool.and_self, Bool.toNat_true,
                if_true, retryCount_succ h]
              omega

/-- One event of a run without an answer. -/
theorem step_budget (hg : Bounded s.modules) (hx : nodeAt s.modules (i, p) = some x)
    (hrestart : ¬ e.Restarts) (hanswer : e.answers s (i, p) = false)
    (hmove : e.device own s.modules i = some j) :
    ∃ x', nodeAt (e.apply own s).modules (j, p) = some x' ∧
      turnsLeft x'.budget = turnsLeft x.budget - (e.turn s (i, p)).toNat ∧
      (e.asks s (i, p)).toNat = min (e.turn s (i, p)).toNat (turnsLeft x.budget - 1) := by
  obtain ⟨x', hx', hbudget⟩ := budgetAt_eq_some.mp (apply_budget hx hrestart hmove)
  refine ⟨x', hx', ?_⟩
  rw [hbudget, CoreEvent.budgetAfter, hanswer, if_neg Bool.false_ne_true]
  unfold CoreEvent.turn CoreEvent.asks
  rw [hx]
  cases e.visit s (i, p) with
  | none => exact ⟨rfl, (Nat.zero_min _).symm⟩
  | some v => exact syncIndex_turn v (hg.retryCount_le hx)

theorem run_budget (hg : Bounded s.modules) (hquiet : Quiet own es s q q')
    (hx : nodeAt s.modules q = some x) :
    ∃ y, nodeAt (coreAfter own es s).modules q' = some y ∧
      turnsLeft y.budget = turnsLeft x.budget - turns own es s q ∧
      queries own es s q = min (turns own es s q) (turnsLeft x.budget - 1) := by
  induction es generalizing s q x with
  | nil =>
      cases hquiet
      exact ⟨x, hx, rfl, (Nat.zero_min _).symm⟩
  | cons e es ih =>
      obtain ⟨hrestart, hanswer, j, hmove, hrest⟩ := hquiet
      obtain ⟨i, p⟩ := q
      dsimp only at hmove hrest
      obtain ⟨x₁, hx₁, hleft, hasks⟩ := step_budget hg hx hrestart hanswer hmove
      obtain ⟨y, hy, hlater, hqueries⟩ := ih (apply_bounded own hg e) hrest hx₁
      have hturns : turns own (e :: es) s (i, p) =
          (e.turn s (i, p)).toNat + turns own es (e.apply own s) (j, p) :=
        countAlong_cons CoreEvent.turn hmove es p
      have hcalls : queries own (e :: es) s (i, p) =
          (e.asks s (i, p)).toNat + queries own es (e.apply own s) (j, p) :=
        countAlong_cons CoreEvent.asks hmove es p
      have hone := Bool.toNat_le (e.turn s (i, p))
      exact ⟨y, hy, by omega, by omega⟩

end Turns

/-! ## Passes that do not come to the index -/

/-- The failures that an index has left: each is a query. -/
def failuresLeft (b : Option (Bool × UInt16)) : Nat := b.elim 0 fun b => turnsLeft b - 1

/-- The failures that the indexes before one have left. -/
def failuresBefore (g : Modules) (q : IndexPath) : Nat :=
  ∑ m ∈ Finset.range q.2.2, failuresLeft (budgetAt g (q.1, q.2.1, m))

section Skips

variable {own : CString} {s : Core} {e : CoreEvent} {es : List CoreEvent} {i j : Nat}
  {p : Nat × Nat} {q q' : IndexPath} {x : NodeIndex} {g : Modules}

theorem nodeAt_before (hx : nodeAt g q = some x) {m : Nat} (hm : m < q.2.2) :
    ∃ y, nodeAt g (q.1, q.2.1, m) = some y := by
  obtain ⟨d, hd, hp⟩ := Option.bind_eq_some_iff.mp hx
  obtain ⟨t, ht, hk⟩ := Option.bind_eq_some_iff.mp hp
  have hlen : q.2.2 < t.indexLst.length := (List.getElem?_eq_some_iff.mp hk).choose
  refine ⟨t.indexLst[m], ?_⟩
  simp only [nodeAt, itemAt, NodeDev.nodeAt, hd, ht, Option.bind_some]
  exact List.getElem?_eq_getElem (Nat.lt_trans hm hlen)

theorem failuresLeft_some (hx : nodeAt g q = some x) :
    failuresLeft (budgetAt g q) = turnsLeft x.budget - 1 := by
  rw [budgetAt_eq, hx]
  rfl

theorem failuresLeft_le (hg : Bounded s.modules) (hx : nodeAt s.modules (i, p) = some x)
    (hrestart : ¬ e.Restarts) (hmove : e.device own s.modules i = some j) :
    failuresLeft (budgetAt (e.apply own s).modules (j, p)) ≤
      failuresLeft (budgetAt s.modules (i, p)) := by
  rw [apply_budget hx hrestart hmove, failuresLeft_some hx]
  change turnsLeft (e.budgetAfter s (i, p) x) - 1 ≤ _
  unfold CoreEvent.budgetAfter
  split
  · exact Nat.zero_le _
  · cases e.visit s (i, p) with
    | none => exact Nat.le_refl _
    | some v =>
        have hturn := (syncIndex_turn v (hg.retryCount_le hx)).1
        dsimp only
        omega

/-- A query that fails is one of them. -/
theorem failuresLeft_lt {env : Nat → SyncVisit} {v : SyncVisit} (hg : Bounded s.modules)
    (hx : nodeAt s.modules q = some x) (hvisit : visitOf env s.modules q = some v)
    (hfailed : (syncIndex v x).1 = .failed) :
    failuresLeft (budgetAt (shadowProcSync env s.modules).2 q) <
      failuresLeft (budgetAt s.modules q) := by
  have hafter := nodeAt_procSync env s.modules q
  rw [hx, hvisit, Option.map_some] at hafter
  rw [failuresLeft_some hafter, failuresLeft_some hx]
  dsimp only
  obtain ⟨hleft, hqueries⟩ := syncIndex_turn v (hg.retryCount_le hx)
  rw [(syncIndex_failed hfailed).1, Bool.toNat_true] at hqueries
  omega

theorem step_skips (hg : Bounded s.modules) (hx : nodeAt s.modules (i, p) = some x)
    (hrestart : ¬ e.Restarts) (hmove : e.device own s.modules i = some j) :
    (e.skips s (i, p)).toNat + failuresBefore (e.apply own s).modules (j, p) ≤
      failuresBefore s.modules (i, p) := by
  have hle : ∀ m ∈ Finset.range p.2, failuresLeft (budgetAt (e.apply own s).modules (j, p.1, m)) ≤
      failuresLeft (budgetAt s.modules (i, p.1, m)) := by
    intro m hm
    obtain ⟨y, hy⟩ := nodeAt_before hx (Finset.mem_range.mp hm)
    exact failuresLeft_le hg hy hrestart hmove
  cases hskip : e.skips s (i, p) with
  | false =>
      rw [Bool.toNat_false, Nat.zero_add]
      exact Finset.sum_le_sum hle
  | true =>
      cases e with
      | sync env =>
          cases hmove
          obtain ⟨m, y, v, hm, hy, hvisit, hfailed⟩ :=
            skipped hx (Option.isNone_iff_eq_none.mp hskip)
          rw [Bool.toNat_true, Nat.add_comm]
          refine Finset.sum_lt_sum hle ⟨m, Finset.mem_range.mpr hm, ?_⟩
          exact failuresLeft_lt hg hy hvisit hfailed
      | _ => cases hskip

theorem run_skips (hg : Bounded s.modules) (hquiet : Quiet own es s q q')
    (hx : nodeAt s.modules q = some x) : skips own es s q ≤ failuresBefore s.modules q := by
  induction es generalizing s q x with
  | nil => exact Nat.zero_le _
  | cons e es ih =>
      obtain ⟨hrestart, hanswer, j, hmove, hrest⟩ := hquiet
      obtain ⟨i, p⟩ := q
      dsimp only at hmove hrest
      obtain ⟨x₁, hx₁, -⟩ := step_budget hg hx hrestart hanswer hmove
      have hlater := ih (apply_bounded own hg e) hrest hx₁
      have hnow := step_skips hg hx hrestart hmove
      have hcount : skips own (e :: es) s (i, p) =
          (e.skips s (i, p)).toNat + skips own es (e.apply own s) (j, p) :=
        countAlong_cons CoreEvent.skips hmove es p
      omega

theorem failuresBefore_le (g : Modules) (q : IndexPath) :
    failuresBefore g q ≤ q.2.2 * syncRetryMax.toNat := by
  have hone : ∀ m ∈ Finset.range q.2.2,
      failuresLeft (budgetAt g (q.1, q.2.1, m)) ≤ syncRetryMax.toNat := by
    intro m _
    cases budgetAt g (q.1, q.2.1, m) with
    | none => exact Nat.zero_le _
    | some b =>
        change turnsLeft b - 1 ≤ syncRetryMax.toNat
        unfold turnsLeft
        split <;> omega
  have hsum := Finset.sum_le_card_nsmul _ _ _ hone
  rwa [Finset.card_range, Nat.nsmul_eq_mul] at hsum

end Skips

/-! ## The result of a pass -/

/-- Some index still has `need_sync` set. -/
def Unsynced (g : Modules) : Prop :=
  ∃ d ∈ g, ∃ t ∈ d.typeLst, ∃ x ∈ t.indexLst, x.needSync = true

/-- The pass has counted an index or failed. -/
def SyncPass.Marked (s : SyncPass) : Prop := s.totalRemaining ≠ 0 ∨ s.failed = true

section Result

variable {env : Nat → SyncVisit} {s : SyncPass}

theorem visitIndex_marked (x : NodeIndex) (h : s.Marked) : (visitIndex env s x).1.Marked := by
  unfold visitIndex SyncPass.Marked
  split
  · exact h
  · exact .inl (Nat.succ_ne_zero _)
  · exact .inr rfl

theorem syncIndex_done {v : SyncVisit} {x : NodeIndex} (h : (syncIndex v x).1 = .done) :
    (syncIndex v x).2.needSync = false := by
  rw [syncIndex_eq] at *
  grind

theorem visitIndex_result (env : Nat → SyncVisit) (s : SyncPass) (x : NodeIndex) :
    (visitIndex env s x).2.1.needSync = false ∨ (visitIndex env s x).1.Marked := by
  have hdone := @syncIndex_done (env s.visited) x
  unfold visitIndex SyncPass.Marked
  split
  next heq =>
    rw [heq] at hdone
    exact .inl (hdone rfl)
  next => exact .inr (.inl (Nat.succ_ne_zero _))
  next => exact .inr (.inr rfl)

theorem visitIndex_stop (x : NodeIndex) (h : (visitIndex env s x).2.2 = true) :
    (visitIndex env s x).1.Marked := by
  unfold visitIndex SyncPass.Marked at *
  split at h
  · cases h
  · cases h
  · exact .inr rfl

theorem procSync_nonzero (env : Nat → SyncVisit) (g : Modules)
    (h : Unsynced (shadowProcSync env g).2) : (shadowProcSync env g).1 ≠ 0 := by
  have hmark : ∀ (s : SyncPass) t, s.Marked → (syncType env s t).1.Marked :=
    fun s t hs => sweep_state (fun _ => visitIndex_marked) t.indexLst hs
  have htype : ∀ s t, (∀ x ∈ (syncType env s t).2.1.indexLst, x.needSync = false) ∨
      (syncType env s t).1.Marked :=
    fun s t => sweep_marks (fun _ => visitIndex_marked) (visitIndex_result env)
      (fun _ => visitIndex_stop) t.indexLst s
  have hdev : ∀ s d, (∀ t ∈ (syncDev env s d).2.1.typeLst, ∀ x ∈ t.indexLst, x.needSync = false) ∨
      (syncDev env s d).1.Marked :=
    fun s d => sweep_marks hmark htype (fun _ _ hstop => by cases hstop) d.typeLst s
  have hall : (∀ d ∈ (sweep (syncDev env) ⟨0, 0, false⟩ g).2.1, ∀ t ∈ d.typeLst,
      ∀ x ∈ t.indexLst, x.needSync = false) ∨ (sweep (syncDev env) ⟨0, 0, false⟩ g).1.Marked :=
    sweep_marks (f := syncDev env) (fun _ d hs => sweep_state hmark d.typeLst hs) hdev
      (fun _ _ hstop => by cases hstop) g _
  rw [shadowProcSync_eq] at h ⊢
  obtain ⟨d, hd, t, ht, x, hx, hneed⟩ := h
  rcases hall with hsynced | hcount | hfailed
  · exact absurd (hneed.symm.trans (hsynced d hd t ht x hx)) (by decide)
  · rw [if_pos hcount]
    exact Int.one_ne_zero
  · rw [hfailed]
    split <;> simp

end Result

/-! ## The budget -/

/-- What an index has asked for after a number of turns. -/
def Budget (turns queries : Nat) (y : NodeIndex) : Prop :=
  queries = min turns syncRetryMax.toNat ∧ (y.needSync = true ↔ turns ≤ syncRetryMax.toNat)

/-- The tries that a restart does not forget. -/
def CoreEvent.spent (x : NodeIndex) : CoreEvent → Nat
  | .reset => x.retryCount.toNat
  | _ => 0

theorem turnsLeft_pos {x : NodeIndex} (h : x.retryCount ≤ syncRetryMax) :
    x.needSync = true ↔ 0 < turnsLeft x.budget := by
  have hle : x.retryCount.toNat ≤ syncRetryMax.toNat := UInt16.le_iff_toNat_le.mp h
  unfold turnsLeft NodeIndex.budget
  cases x.needSync with
  | false => simp
  | true =>
      refine iff_of_true rfl ?_
      rw [if_pos rfl]
      dsimp only
      omega

/-- A restart gives an index its turns, less what it has spent. -/
theorem restart_turnsLeft (own : CString) {s : Core} {c : CoreEvent} {q : IndexPath} {x : NodeIndex}
    (hc : c.Restarts) (hx : nodeAt s.modules q = some x) : ∃ x',
      nodeAt (c.apply own s).modules q = some x' ∧
        turnsLeft x'.budget = syncRetryMax.toNat + 1 - c.spent x := by
  cases c with
  | reset => exact ⟨_, (nodeAt_mapIndex _ q).trans (congrArg _ hx), rfl⟩
  | resync => exact ⟨_, (nodeAt_mapIndex _ q).trans (congrArg _ hx), rfl⟩
  | _ => exact absurd hc id

section Restart

variable {own : CString} {past es : List CoreEvent} {c : CoreEvent} {q q' : IndexPath} {x : NodeIndex}

theorem past_bounded (own : CString) (past : List CoreEvent) :
    Bounded (coreAfter own past ⟨[], 0⟩).modules := by
  have hempty : Bounded [] := by
    intro p b hb
    cases hb
  exact coreAfter_bounded own hempty past

theorem spent_le (hx : nodeAt (coreAfter own past ⟨[], 0⟩).modules q = some x) (c : CoreEvent) :
    c.spent x ≤ syncRetryMax.toNat := by
  have hle := (past_bounded own past).retryCount_le hx
  cases c with
  | reset => exact UInt16.le_iff_toNat_le.mp hle
  | _ => exact Nat.zero_le _

/-- In a run after a reset or a resync an index makes one query in each turn. The full number is
reached, and the synchronisation not given up before, exactly if no try was spent before the
restart or the turns so far are no more than what is left. -/
theorem run_budget_iff (hc : c.Restarts)
    (hx : nodeAt (coreAfter own past ⟨[], 0⟩).modules q = some x)
    (hquiet : Quiet own es (c.apply own (coreAfter own past ⟨[], 0⟩)) q q') :
    let s := c.apply own (coreAfter own past ⟨[], 0⟩)
    ∃ y, nodeAt (coreAfter own es s).modules q' = some y ∧
      (Budget (turns own es s q) (queries own es s q) y ↔
        c.spent x = 0 ∨ turns own es s q + c.spent x ≤ syncRetryMax.toNat) := by
  have hg := apply_bounded own (past_bounded own past) c
  obtain ⟨x', hx', hleft⟩ := restart_turnsLeft own hc hx
  obtain ⟨y, hy, hlater, hqueries⟩ := run_budget hg hquiet hx'
  refine ⟨y, hy, ?_⟩
  have hbound := (coreAfter_bounded own hg es).retryCount_le hy
  have hspent := spent_le hx c
  unfold Budget
  rw [turnsLeft_pos hbound, hqueries, hlater, hleft]
  omega

theorem restart_skips (hc : c.Restarts)
    (hx : nodeAt (coreAfter own past ⟨[], 0⟩).modules q = some x)
    (hquiet : Quiet own es (c.apply own (coreAfter own past ⟨[], 0⟩)) q q') :
    skips own es (c.apply own (coreAfter own past ⟨[], 0⟩)) q ≤ q.2.2 * syncRetryMax.toNat := by
  obtain ⟨x', hx', -⟩ := restart_turnsLeft own hc hx
  have hg := apply_bounded own (past_bounded own past) c
  exact Nat.le_trans (run_skips hg hquiet hx') (failuresBefore_le _ q)

end Restart

/-! ### A run in which every pass is a turn -/

/-- A visit at which every wait is over, and the query is sent. -/
def lateVisit : SyncVisit := ⟨⟨1000, 0⟩, true, ⟨100, 0⟩⟩

def latePasses (n : Nat) : List CoreEvent := List.replicate n (.sync fun _ => lateVisit)

section Late

variable {own : CString} {s : Core} {q : IndexPath} {x : NodeIndex}

theorem late_ne_failed (x : NodeIndex) : (syncIndex lateVisit x).1 ≠ .failed := by
  rw [syncIndex_eq, lateVisit]
  grind

theorem late_idle (h : x.idle lateVisit = true) : (syncIndex lateVisit x).2.idle lateVisit = true := by
  have hsent : (!((timeCountdown (retryInterval * 1000) lateVisit.later).sec ≠ 0 &&
      timeIsexpired (timeCountdown (retryInterval * 1000) lateVisit.later) lateVisit.now == false)) =
      true := by decide
  rw [syncIndex_eq]
  split
  · exact h
  split
  · exact h
  dsimp only
  split
  · unfold NodeIndex.idle
    split <;> simp_all [Timespec.zero]
  split
  · exact hsent
  · contradiction

theorem late_visit {g : Modules} (hx : nodeAt g q = some x) :
    visitOf (fun _ => lateVisit) g q = some lateVisit := by
  cases hvisit : visitOf (fun _ => lateVisit) g q with
  | none =>
      obtain ⟨m, y, v, -, -, hv, hfailed⟩ := skipped hx hvisit
      obtain ⟨-, rfl⟩ := visitOf_env hv
      exact absurd hfailed (late_ne_failed y)
  | some v =>
      obtain ⟨-, rfl⟩ := visitOf_env hvisit
      rfl

theorem late_node (own : CString) (hx : nodeAt s.modules q = some x) :
    nodeAt (CoreEvent.apply own s (.sync fun _ => lateVisit)).modules q =
      some (syncIndex lateVisit x).2 := by
  refine (nodeAt_procSync (fun _ => lateVisit) s.modules q).trans ?_
  rw [hx, late_visit hx, Option.map_some]

theorem late_quiet (own : CString) (s : Core) (q : IndexPath) (n : Nat) :
    Quiet own (latePasses n) s q q := by
  induction n generalizing s with
  | zero => rfl
  | succ n ih => exact ⟨id, rfl, q.1, rfl, ih _⟩

theorem late_turns (hx : nodeAt s.modules q = some x) (hidle : x.idle lateVisit = true) (n : Nat) :
    turns own (latePasses n) s q = n := by
  induction n generalizing s x with
  | zero => rfl
  | succ n ih =>
      have hturn : CoreEvent.turn s q (.sync fun _ => lateVisit) = true := by
        have hvisit : CoreEvent.visit s q (.sync fun _ => lateVisit) = some lateVisit :=
          late_visit hx
        rw [CoreEvent.turn, hvisit, hx]
        exact hidle
      have hrest := ih (late_node own hx) (late_idle hidle)
      change (CoreEvent.turn s q (.sync fun _ => lateVisit)).toNat +
        turns own (latePasses n) (CoreEvent.apply own s (.sync fun _ => lateVisit)) q = n + 1
      rw [hturn, hrest, Bool.toNat_true, Nat.add_comm]

end Late

/-! ### The condition -/

/-- For every index of a reachable core: in every run after a reset or a resync that brings no
answer it gets its full number of queries before `need_sync` is cleared, exactly if it has spent
no try when the restart comes. At most that number of failures for each index before it makes a
pass skip it, and no pass returns 0 while an index waits. -/
theorem sync_budget_iff {own : CString} {past : List CoreEvent} {c : CoreEvent} {q : IndexPath}
    {x : NodeIndex} (hc : c.Restarts) (hx : nodeAt (coreAfter own past ⟨[], 0⟩).modules q = some x) :
    let s := c.apply own (coreAfter own past ⟨[], 0⟩)
    (∀ es q', Quiet own es s q q' →
      (∃ y, nodeAt (coreAfter own es s).modules q' = some y ∧
        Budget (turns own es s q) (queries own es s q) y) ∧
      skips own es s q ≤ q.2.2 * syncRetryMax.toNat ∧
      ∀ env, Unsynced (shadowProcSync env (coreAfter own es s).modules).2 →
        (shadowProcSync env (coreAfter own es s).modules).1 ≠ 0) ↔ c.spent x = 0 := by
  constructor
  · intro hall
    by_contra hspent
    obtain ⟨x', hx', hidle⟩ : ∃ x', nodeAt (c.apply own (coreAfter own past ⟨[], 0⟩)).modules q =
        some x' ∧ x'.idle lateVisit = true := by
      cases c with
      | reset => exact ⟨_, (nodeAt_mapIndex _ q).trans (congrArg _ hx), rfl⟩
      | _ => exact absurd rfl hspent
    -- With one turn more than are left the queries stop too early.
    obtain ⟨y, hy, hiff⟩ := run_budget_iff hc hx (late_quiet own _ q (syncRetryMax.toNat + 1))
    obtain ⟨⟨y', hy', hbudget⟩, -⟩ := hall _ q (late_quiet own _ q (syncRetryMax.toNat + 1))
    cases hy.symm.trans hy'
    rw [late_turns hx' hidle] at hiff hbudget
    rcases hiff.mp hbudget with hzero | hle
    · exact hspent hzero
    · omega
  · intro hspent es q' hquiet
    obtain ⟨y, hy, hiff⟩ := run_budget_iff hc hx hquiet
    exact ⟨⟨y, hy, hiff.mpr (.inl hspent)⟩, restart_skips hc hx hquiet,
      fun env => procSync_nonzero env _⟩

def registered : List CoreEvent := [.register sampleRegistration]

/-- The first reset of an index is followed by three queries and the end. -/
theorem sync_budget_first :
    queries (.lit "OWN") (latePasses 4)
      (CoreEvent.reset.apply (.lit "OWN") (coreAfter (.lit "OWN") registered ⟨[], 0⟩)) (0, 0, 0) = 3 := by
  have hindex : nodeAt (coreAfter (.lit "OWN") registered ⟨[], 0⟩).modules (0, 0, 0) = some _ := rfl
  have hall := (sync_budget_iff (c := .reset) trivial hindex).mpr rfl
  obtain ⟨⟨y, -, hqueries, -⟩, -⟩ := hall (latePasses 4) _ (late_quiet _ _ _ 4)
  rw [hqueries]
  decide +kernel

/-- A reset in the middle of a round: the index is asked for only twice more. -/
theorem reset_keeps_count : ∃ s y,
    s = CoreEvent.reset.apply (.lit "OWN")
      (coreAfter (.lit "OWN") (registered ++ latePasses 1) ⟨[], 0⟩) ∧
      Quiet (.lit "OWN") (latePasses 3) s (0, 0, 0) (0, 0, 0) ∧
      nodeAt (coreAfter (.lit "OWN") (latePasses 3) s).modules (0, 0, 0) = some y ∧
      ¬ Budget (turns (.lit "OWN") (latePasses 3) s (0, 0, 0))
        (queries (.lit "OWN") (latePasses 3) s (0, 0, 0)) y := by
  refine ⟨_, _, rfl, late_quiet _ _ _ 3, rfl, ?_⟩
  intro hbudget
  have hqueries := hbudget.1
  exact absurd hqueries (by decide +kernel)

end EzIot.Shadow
