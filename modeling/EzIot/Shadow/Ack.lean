import EzIot.Lib.Run
import EzIot.Shadow.Paths
import EzIot.Shadow.Report

/-! # Acknowledgements of reports

The shadow core under any order of pushes, registrations, resets, report passes
and successful acknowledgements. A key remembers the number of its last report;
an acknowledgement is matched by that number alone, so what matters is which of
the events that make a key due also forget the number.
-/

namespace EzIot.Shadow

open CText CJson Nested Run

theorem mem_entries_of_keyAt {g : Modules} {q : KeyPath} {k : NodeKey}
    (h : keyAt g q = some k) : ∃ e ∈ entries g, e.node = k := by
  rcases Option.bind_eq_some_iff.mp h with ⟨dev, hdev, h⟩
  rcases Option.bind_eq_some_iff.mp h with ⟨t, ht, h⟩
  obtain ⟨x, hx, h⟩ := Option.bind_eq_some_iff.mp h
  rcases Option.bind_eq_some_iff.mp h with ⟨d, hd, h⟩
  rcases Option.bind_eq_some_iff.mp h with ⟨k', hk, h⟩
  cases h
  have hdomain : ⟨dev.devSn, t.type, x.index, d.domainString, k⟩ ∈
      d.entries dev.devSn t.type x.index :=
    List.mem_map_of_mem (List.mem_of_getElem? hk)
  have hindex : _ ∈ x.entries dev.devSn t.type :=
    List.mem_flatMap_of_mem (List.mem_of_getElem? hd) hdomain
  have htype : _ ∈ t.entries dev.devSn :=
    List.mem_flatMap_of_mem (List.mem_of_getElem? hx) hindex
  have hdevice : _ ∈ dev.entries := List.mem_flatMap_of_mem (List.mem_of_getElem? ht) htype
  exact ⟨_, List.mem_flatMap_of_mem (List.mem_of_getElem? hdev) hdevice, rfl⟩

/-! ## Numbers drawn in a pass -/

/-- How a pass may go on: numbers are drawn in order and every new report
carries a fresh one. -/
structure Pass.Le (s t : Pass) : Prop where
  drawn : s.drawn ≤ t.drawn
  kept : ∀ r ∈ s.sent, r ∈ t.sent
  fresh : ∀ r ∈ t.sent, r ∈ s.sent ∨
    ∃ n, s.drawn < n ∧ n ≤ t.drawn ∧ r.msgSeq = UInt32.ofNat n

theorem Pass.Le.refl (s : Pass) : s.Le s := ⟨Nat.le_refl _, fun _ h => h, fun _ h => .inl h⟩

theorem Pass.Le.trans {s t u : Pass} (h : s.Le t) (h' : t.Le u) : s.Le u where
  drawn := h.drawn.trans h'.drawn
  kept r hr := h'.kept r (h.kept r hr)
  fresh := by
    intro r hr
    rcases h'.fresh r hr with hold | ⟨n, hlt, hle, hseq⟩
    · rcases h.fresh r hold with hold' | ⟨n, hlt, hle, hseq⟩
      · exact .inl hold'
      · exact .inr ⟨n, hlt, hle.trans h'.drawn, hseq⟩
    · exact .inr ⟨n, Nat.lt_of_le_of_lt h.drawn hlt, hle, hseq⟩

/-- A key keeps its number or got the one of a report of the pass. -/
def Numbered (s : Pass) (k k' : NodeKey) : Prop :=
  k'.msgSeq = k.msgSeq ∨ ∃ r ∈ s.sent, r.msgSeq = k'.msgSeq

theorem visitKey_numbered (own : CString) (env : Nat → Visit) (devsn : CField 48)
    (resType : CField 32) (index : Int16) (domain : CField 32) (s : Pass) (k : NodeKey) :
    s.Le (visitKey own env devsn resType index domain s k).1 ∧
      Numbered (visitKey own env devsn resType index domain s k).1 k
        (visitKey own env devsn resType index domain s k).2.1 := by
  let e : Entry := ⟨devsn, resType, index, domain, k⟩
  obtain ⟨r, hr, heq⟩ := visitEntry_handled own env s e
  change s.Le (visitEntry own env s e).1 ∧
    Numbered (visitEntry own env s e).1 k (visitEntry own env s e).2.1.node
  rw [heq]
  cases hr with
  | sent value hwaits hfails hsends =>
      refine ⟨⟨?_, ?_, ?_⟩, ?_⟩
      · simp only [Option.isSome_some, if_true]
        omega
      · exact fun r hr => List.mem_append_left _ hr
      · intro r hr
        rcases List.mem_append.mp hr with hold | hnew
        · exact .inl hold
        · rw [Option.toList_some, List.mem_singleton] at hnew
          subst hnew
          exact .inr ⟨s.drawn + (env s.visited).draws + 1, by omega, by simp, rfl⟩
      · exact .inr ⟨_, List.mem_append_right _ (List.mem_singleton.mpr rfl), rfl⟩
  | idle | waits | dropped | fails =>
      exact ⟨⟨by simp, fun r hr => by simpa using hr, fun r hr => .inl (by simpa using hr)⟩,
        .inl rfl⟩

theorem shadowProcReport_numbered (own : CString) (env : Nat → Visit) (drawn : Nat)
    (g : Modules) :
    drawn ≤ (shadowProcReport own env drawn g).drawn ∧
      (∀ r ∈ (shadowProcReport own env drawn g).sent, ∃ n, drawn < n ∧
        n ≤ (shadowProcReport own env drawn g).drawn ∧ r.msgSeq = UInt32.ofNat n) ∧
      ∀ q, Extends (fun k k' => k'.msgSeq = k.msgSeq ∨
          ∃ r ∈ (shadowProcReport own env drawn g).sent, r.msgSeq = k'.msgSeq) (fun _ => False)
        (keyAt g q) (keyAt (shadowProcReport own env drawn g).modules q) := by
  obtain ⟨hle, hkeys⟩ := keyAt_sweepKeys (L := Pass.Le) (R := Numbered) Pass.Le.refl
    (fun _ _ _ => Pass.Le.trans) (fun _ _ => .inl rfl)
    (fun s t k k' hst hr => hr.imp_right fun ⟨r, hr, hseq⟩ => ⟨r, hst.kept r hr, hseq⟩)
    (visitKey_numbered own env) ⟨0, drawn, 0, []⟩ g
  refine ⟨hle.drawn, fun r hr => ?_, hkeys⟩
  rcases hle.fresh r hr with hnil | hnew
  · exact absurd hnil List.not_mem_nil
  · exact hnew

/-! ## The system -/

/-- The registry and the number of sequence numbers the kernel has handed out. -/
structure Core where
  modules : Modules
  drawn : Nat

inductive Event
  | push (sn resType : CString) (index : Int16) (domainId pkey : CString)
      (value : Option ShadowValue)
  | register (r : Registration)
  | reset
  | report (env : Nat → Visit)
  | ack (seq : UInt32)

def Event.apply (own : CString) (s : Core) : Event → Core
  | .push sn resType index domainId pkey value =>
      { s with modules :=
          (shadowCorePropertieChanged own sn resType index domainId pkey value s.modules).2 }
  | .register r => { s with modules := (shadowCoreModuleAddv3 own r s.modules).2 }
  | .reset => { s with modules := shadowStatusReset s.modules }
  | .report env =>
      let r := shadowProcReport own env s.drawn s.modules
      ⟨r.modules, r.drawn⟩
  | .ack seq => { s with modules := shadowReply2report seq 0 s.modules }

/-- The numbers of the reports that an event sends. -/
def Event.sends (own : CString) (s : Core) : Event → List UInt32
  | .report env => (shadowProcReport own env s.drawn s.modules).sent.map (·.msgSeq)
  | _ => []

/-- The event sets `need_report` of the key at `q`. -/
def Event.Sets (own : CString) (s : Core) (q : KeyPath) : Event → Prop
  | .push sn resType index domainId pkey _ =>
      ∃ k, findKeyNode s.modules (devName own sn) resType index domainId pkey = .ok (q, k)
  | .register r => r.Writes own s.modules q
  | .reset => (keyAt s.modules q).isSome
  | .report _ => False
  | .ack _ => False

/-- A registration or a reset finds no report outstanding for the keys it makes
due again. A push needs no such condition: it forgets the number itself. -/
def Event.Clean (own : CString) (s : Core) : Event → Prop
  | .register r => ∀ q k, r.Writes own s.modules q → keyAt s.modules q = some k → k.msgSeq = 0
  | .reset => ∀ e ∈ entries s.modules, e.node.msgSeq = 0
  | _ => True

/-- A key that waits for a number after an event waited for it before, or the
event sent it; and the event did not make the key due again. -/
theorem apply_msgSeq {own : CString} {s : Core} {ev : Event} (hclean : ev.Clean own s)
    {q : KeyPath} {k' : NodeKey} (hkey : keyAt (ev.apply own s).modules q = some k')
    (hseq : k'.msgSeq ≠ 0) :
    ¬ ev.Sets own s q ∧ (k'.msgSeq ∈ ev.sends own s ∨
      ∃ k, keyAt s.modules q = some k ∧ k.msgSeq = k'.msgSeq) := by
  cases ev with
  | push sn resType index domainId pkey value =>
      simp only [Event.apply, propertieChanged_eq] at hkey
      simp only [Event.Sets]
      cases hfind : findKeyNode s.modules (devName own sn) resType index domainId pkey with
      | error e =>
          rw [hfind] at hkey
          exact ⟨by simp, .inr ⟨k', hkey, rfl⟩⟩
      | ok r =>
          rcases r with ⟨p, node⟩
          rw [hfind] at hkey
          by_cases hq : q = p
          · subst hq
            simp only [keyAt_pushAt, Option.map_eq_some_iff] at hkey
            rcases hkey with ⟨k, -, rfl⟩
            exact absurd rfl hseq
          · simp only [keyAt_pushAt_of_ne value hq] at hkey
            refine ⟨?_, .inr ⟨k', hkey, rfl⟩⟩
            rintro ⟨k, heq⟩
            cases heq
            exact hq rfl
  | register r =>
      have hext := keyAt_addv3_extends (g := s.modules) own r q
      simp only [Event.apply] at hkey
      by_cases hw : r.Writes own s.modules q
      · rw [hkey] at hext
        rcases hext.to_some with ⟨k, hk, hkeeps⟩ | ⟨-, hnew⟩
        · exact absurd (hkeeps.trans (hclean q k hw hk)) hseq
        · exact absurd hnew hseq
      · rw [keyAt_addv3_unchanged hw] at hkey
        exact ⟨hw, .inr ⟨k', hkey, rfl⟩⟩
  | reset =>
      simp only [Event.apply, keyAt_reset, Option.map_eq_some_iff] at hkey
      obtain ⟨k, hk, rfl⟩ := hkey
      rcases mem_entries_of_keyAt hk with ⟨e, hmem, rfl⟩
      exact absurd (hclean e hmem) hseq
  | report env =>
      have hext := (shadowProcReport_numbered own env s.drawn s.modules).2.2 q
      simp only [Event.apply] at hkey
      rw [hkey] at hext
      refine ⟨not_false, ?_⟩
      rcases hext.to_some with ⟨k, hk, hsame | ⟨r, hr, hnew⟩⟩ | ⟨-, hfalse⟩
      · exact .inr ⟨k, hk, hsame.symm⟩
      · exact .inl (List.mem_map.mpr ⟨r, hr, hnew⟩)
      · exact hfalse.elim
  | ack seq =>
      have hext := keyAt_reply2report seq 0 s.modules q
      simp only [Event.apply] at hkey
      rw [hkey] at hext
      refine ⟨not_false, .inr ?_⟩
      rcases hext.to_some with ⟨k, hk, hsame | ⟨-, hack⟩⟩ | ⟨-, hfalse⟩
      · exact ⟨k, hk, by rw [hsame]⟩
      · exact absurd (by rw [hack]; rfl) hseq
      · exact hfalse.elim

/-! ## Runs -/

section Runs

variable (own : CString) (run : List Event)

/-- The core before event `n`. -/
abbrev coreAt (n : Nat) : Core := stateAt (Event.apply own) ⟨[], 0⟩ run n

/-- Event `n` sends a report with that number. -/
def SentAt (n : Nat) (seq : UInt32) : Prop :=
  ∃ ev, run[n]? = some ev ∧ seq ∈ ev.sends own (coreAt own run n)

/-- Event `n` sets `need_report` of the key at `q`. -/
def SetsAt (n : Nat) (q : KeyPath) : Prop :=
  ∃ ev, run[n]? = some ev ∧ ev.Sets own (coreAt own run n) q

/-- Between the states before and after event `n` the key at `q` stops being due. -/
def ClearedAt (n : Nat) (q : KeyPath) : Prop :=
  ∃ k k', keyAt (coreAt own run n).modules q = some k ∧ k.needReport = true ∧
    keyAt (coreAt own run (n + 1)).modules q = some k' ∧ k'.needReport = false

variable {own run}

theorem apply_drawn (s : Core) (ev : Event) : s.drawn ≤ (ev.apply own s).drawn := by
  cases ev with
  | report env => exact (shadowProcReport_numbered own env s.drawn s.modules).1
  | push | register | reset | ack => exact Nat.le_refl _

/-- The number of a report lies between the counts before and after its pass. -/
theorem SentAt.number {n : Nat} {seq : UInt32} (h : SentAt own run n seq) :
    ∃ d, (coreAt own run n).drawn < d ∧ d ≤ (coreAt own run (n + 1)).drawn ∧
      seq = UInt32.ofNat d := by
  rcases h with ⟨ev, hget, hmem⟩
  rw [coreAt, coreAt, stateAt_succ _ hget]
  cases ev with
  | report env =>
      obtain ⟨r, hr, rfl⟩ := List.mem_map.mp hmem
      exact (shadowProcReport_numbered own env _ _).2.1 r hr
  | push | register | reset | ack => exact absurd hmem List.not_mem_nil

theorem SentAt.lt_length {n : Nat} {seq : UInt32} (h : SentAt own run n seq) :
    n < run.length := by
  rcases h with ⟨ev, hget, -⟩
  exact (List.getElem?_eq_some_iff.mp hget).choose

section Unwrapped

variable (hdrawn : (coreAt own run run.length).drawn < 2 ^ 32)

include hdrawn

theorem SentAt.number_lt {n : Nat} {seq : UInt32} (h : SentAt own run n seq) :
    (coreAt own run n).drawn < seq.toNat ∧ seq.toNat ≤ (coreAt own run (n + 1)).drawn := by
  rcases h.number with ⟨d, hlt, hle, rfl⟩
  have hmono : (coreAt own run (n + 1)).drawn ≤ (coreAt own run run.length).drawn :=
    stateAt_monotone (Event.apply own) (f := Core.drawn) apply_drawn
      (Nat.succ_le_of_lt h.lt_length) (Nat.le_refl _)
  have hd : d < 2 ^ 32 := Nat.lt_of_le_of_lt (hle.trans hmono) hdrawn
  rw [UInt32.toNat_ofNat_of_lt' hd]
  exact ⟨hlt, hle⟩

theorem SentAt.ne_zero {n : Nat} {seq : UInt32} (h : SentAt own run n seq) : seq ≠ 0 := by
  rintro rfl
  have hlt := (h.number_lt hdrawn).1
  simp at hlt

theorem SentAt.unique {m n : Nat} {seq : UInt32} (h : SentAt own run m seq)
    (h' : SentAt own run n seq) : m = n := by
  obtain ⟨hlo, hhi⟩ := h.number_lt hdrawn
  rcases h'.number_lt hdrawn with ⟨hlo', hhi'⟩
  have hmono : ∀ {i j : Nat}, i < j → j ≤ run.length →
      (coreAt own run (i + 1)).drawn ≤ (coreAt own run j).drawn := fun hij hj =>
    stateAt_monotone (Event.apply own) (f := Core.drawn) apply_drawn hij hj
  rcases Nat.lt_trichotomy m n with hlt | heq | hgt
  · have hstep := hmono hlt h'.lt_length.le
    omega
  · exact heq
  · have hstep := hmono hgt h.lt_length.le
    omega

end Unwrapped

/-- Every event of the run is clean in the state it meets. -/
def CleanRun (own : CString) (run : List Event) : Prop :=
  ∀ (n : Nat) (ev : Event), run[n]? = some ev → ev.Clean own (coreAt own run n)

/-- Acknowledgements carry numbers of reports sent before. -/
def ValidRun (own : CString) (run : List Event) : Prop :=
  ∀ n seq, run[n]? = some (.ack seq) → ∃ j, j < n ∧ SentAt own run j seq

/-- When an acknowledgement clears a key, the one report with its number was sent
after every event that set `need_report` of the key. -/
def AcksCurrent (own : CString) (run : List Event) : Prop :=
  ∀ n seq q, run[n]? = some (.ack seq) → ClearedAt own run n q →
    ∃ j, j < n ∧ SentAt own run j seq ∧ (∀ j', SentAt own run j' seq → j' = j) ∧
      ∀ e, e < n → SetsAt own run e q → e < j

/-- The invariant: the number a key waits for was sent after everything that made
the key due. -/
def Current (own : CString) (run : List Event) (n : Nat) (s : Core) : Prop :=
  ∀ q k, keyAt s.modules q = some k → k.msgSeq ≠ 0 →
    ∃ j, j < n ∧ SentAt own run j k.msgSeq ∧ ∀ e, e < n → SetsAt own run e q → e < j

theorem current_coreAt
    (hclean : CleanRun own run) {n : Nat}
    (hn : n ≤ run.length) : Current own run n (coreAt own run n) := by
  refine stateAt_induction (Event.apply own) (I := Current own run) ?_ ?_ n hn
  · intro q k hkey
    simp [keyAt] at hkey
  · intro m ev hget hcur q k' hkey hseq
    rcases apply_msgSeq (hclean m ev hget) hkey hseq with ⟨hsets, horigin⟩
    -- event `m` itself did not make the key due, so only earlier events count
    have hearlier : ∀ e, e < m + 1 → SetsAt own run e q → e < m := by
      intro e he hset
      rcases Nat.lt_or_ge e m with hlt | hge
      · exact hlt
      · have hem : e = m := by omega
        subst hem
        obtain ⟨ev', hget', hset'⟩ := hset
        rw [hget] at hget'
        cases hget'
        exact absurd hset' hsets
    rcases horigin with hsent | ⟨k, hk, hsame⟩
    · exact ⟨m, Nat.lt_succ_self m, ⟨ev, hget, hsent⟩, hearlier⟩
    · rcases hcur q k hk (by rwa [hsame]) with ⟨j, hj, hsent, hlater⟩
      exact ⟨j, by omega, by rwa [← hsame], fun e he hset => hlater e (hearlier e he hset) hset⟩

/-- Acknowledgements are never stale in a run whose registrations and resets find
no report outstanding for the keys they make due, as long as the counter of the
kernel has not wrapped. -/
theorem acks_current_of_clean (own : CString) (run : List Event) (hvalid : ValidRun own run)
    (hclean : CleanRun own run) (hdrawn : (coreAt own run run.length).drawn < 2 ^ 32) :
    AcksCurrent own run := by
  intro n seq q hget hcleared
  rcases hcleared with ⟨k, k', hk, hdue, hk', hnot⟩
  have hext := keyAt_reply2report seq 0 (coreAt own run n).modules q
  rw [coreAt, stateAt_succ _ hget] at hk'
  rw [hk] at hext
  obtain ⟨k'', hk'', hwrite⟩ := hext.of_some
  have hkk : k'' = k' := Option.some.inj (hk''.symm.trans hk')
  subst hkk
  have hseq : k.msgSeq = seq := by
    rcases hwrite with rfl | ⟨hseq, -⟩
    · simp [hdue] at hnot
    · exact hseq
  rcases hvalid n seq hget with ⟨i, -, hsent⟩
  have hn : n ≤ run.length := (List.getElem?_eq_some_iff.mp hget).choose.le
  obtain ⟨j, hj, hsentj, hlater⟩ := current_coreAt hclean hn q k hk
    (by rw [hseq]; exact hsent.ne_zero hdrawn)
  rw [hseq] at hsentj
  exact ⟨j, hj, hsentj, fun j' h' => h'.unique hdrawn hsentj, hlater⟩

end Runs

/-! ### An acknowledged report, and a stale one -/

/-- Register, report, acknowledge, and after a reset once more. -/
def sampleRun : List Event :=
  [.register sampleRegistration, .report fun _ => sampleVisit, .ack 1, .reset,
    .report fun _ => sampleVisit, .ack 2]

theorem sampleRun_current :
    ValidRun (.lit "OWN") sampleRun ∧ AcksCurrent (.lit "OWN") sampleRun := by
  have hvalid : ValidRun (.lit "OWN") sampleRun := by
    intro n seq hget
    match n with
    | 2 =>
        cases hget
        exact ⟨1, by decide, _, rfl, by decide⟩
    | 5 =>
        cases hget
        exact ⟨4, by decide, _, rfl, by decide⟩
    | 0 | 1 | 3 | 4 => cases hget
    | _ + 6 => cases hget
  refine ⟨hvalid, acks_current_of_clean _ _ hvalid ?_ (by decide)⟩
  intro n ev hget
  match n with
  | 0 =>
      cases hget
      intro q k _ hkey
      simp [keyAt] at hkey
  | 3 =>
      cases hget
      change ∀ e ∈ entries (coreAt (.lit "OWN") sampleRun 3).modules, e.node.msgSeq = 0
      decide
  | 1 | 2 | 4 | 5 =>
      cases hget
      trivial
  | _ + 6 => cases hget

/-- A reset while a report is under way: the acknowledgement of that report clears
the key that the reset made due. -/
def staleRun : List Event :=
  [.register sampleRegistration, .report fun _ => sampleVisit, .reset, .ack 1]

theorem staleRun_not_current :
    ValidRun (.lit "OWN") staleRun ∧ ¬ AcksCurrent (.lit "OWN") staleRun := by
  constructor
  · intro n seq hget
    match n with
    | 3 =>
        cases hget
        exact ⟨1, by decide, _, rfl, by decide⟩
    | 0 | 1 | 2 => cases hget
    | _ + 4 => cases hget
  · intro h
    obtain ⟨j, hj, -, -, hlater⟩ :=
      h 3 1 (0, 0, 0, 0, 0, ()) rfl ⟨_, _, rfl, rfl, rfl, rfl⟩
    have hreset := hlater 2 (by decide) ⟨.reset, rfl, rfl⟩
    omega

end EzIot.Shadow
