import EzIot.Shadow.Tree

/-! # Report passes

A pass visits every key under the lock. What the outside does during the visit
of the `n`-th key (clock readings, the `business2cloud` callback, the kernel) is
the `n`-th entry of an environment, so a pass is a function of the tree, the
number of sequence numbers drawn so far and its environment.
-/

namespace EzIot.Shadow

open CText CJson Nested

/-- `ez_shadow_business2cloud_param_t`, and `ez_shadow_business2dev_param_t` which
has the same members. -/
structure BusinessParam where
  pres : ShadowRes
  pdomain : CString
  pkey : CString

/-- What the outside does while one key is visited. -/
structure Visit where
  /-- the clock when the timer is tested -/
  now : Timespec
  /-- the value a callback writes; `none` when it returns an error -/
  dev2cloud : Callback → BusinessParam → Option ShadowValue
  /-- sequence numbers that other senders drew since the last report -/
  draws : Nat
  /-- the kernel takes the message -/
  sendOk : Bool
  /-- the clock when the timer is started -/
  later : Timespec

/-- A report as the kernel gets it. Module, method and message type are always
`basic`, `shadow` and `report`; the body is printed without formatting. -/
structure Report where
  subSerial : CField 72
  resourceType : CField 64
  resourceId : UInt16
  msgSeq : UInt32
  body : Value

/-- The body that `shadow_protocol_report` builds. -/
def reportBody (domain : CField 32) (key : CField 32) (value : Value) (ver : UInt32) : Value :=
  .object [
    (ascii "method", .string (ascii "report")),
    (ascii "spv", .number (.ofInt 3)),
    (ascii "state", .object [
      (ascii "reported", .object [
        (ascii "domain", .string domain.val),
        (ascii "identifier", .string key.val),
        (ascii "value", value)]),
      (ascii "version", .number (.ofInt ver.toNat))])]

def shadowProtocolReport (devsn : CField 48) (resType : CField 32) (index : Int16)
    (domain key : CField 32) (value : Value) (ver seq : UInt32) : Report where
  subSerial := .strncpy devsn.toCString
  resourceType := .strncpy resType.toCString
  resourceId := index.toUInt16
  msgSeq := seq
  body := reportBody domain key value ver

/-- The parameter of the callback: the own device goes by its serial there. -/
def genParam (own : CString) (devsn : CField 48) (resType : CField 32) (index : Int16)
    (domain key : CString) : BusinessParam where
  pres := ⟨if devsn.toCString = defaultName then .strncpy own else devsn, resType, index⟩
  pdomain := domain
  pkey := key

/-- What a due key has to report. -/
inductive Pending
  | nothing
  | invalid
  | json (value : Value)

/-- The value of a due key: the pushed one, or the one its callback gives. -/
def NodeKey.pending (own : CString) (v : Visit) (devsn : CField 48) (resType : CField 32)
    (index : Int16) (domain : CField 32) (k : NodeKey) : Pending :=
  match k.jsonValue with
  | some value => .json value
  | none =>
      match k.dev2cloud with
      | none => .nothing
      | some cb =>
          match v.dev2cloud cb (genParam own devsn resType index domain.toCString k.key.toCString) with
          | none => .nothing
          | some tlv =>
              match tlv2json tlv with
              | none => .invalid
              | some value => .json value

def NodeKey.waiting (v : Visit) (k : NodeKey) : Bool :=
  k.reportTimer.sec ≠ 0 && !timeIsexpired k.reportTimer v.now

/-- `CONFIG_EZIOT_SHADOW_FULL_SYNC_RETRY_INTERVAL` in seconds. -/
def retryInterval : Nat := 30

/-- `genaral_seq` when `n` numbers were drawn before. -/
def genaralSeq (n : Nat) : UInt32 := UInt32.ofNat (n + 1)

/-- The key as a successful report leaves it. -/
def NodeKey.reported (v : Visit) (seq : UInt32) (k : NodeKey) : NodeKey :=
  { k with msgSeq := seq, reportTimer := timeCountdown (retryInterval * 1000) v.later }

/-- `do_report`: its result, the key afterwards and the report that was sent. -/
def doReport (own : CString) (v : Visit) (drawn : Nat) (devsn : CField 48) (resType : CField 32)
    (index : Int16) (domain : CField 32) (k : NodeKey) : Int × NodeKey × Option Report :=
  if k.needReport = false then (0, k, none)
  else if k.waiting v then (1, k, none)
  else
    match k.pending own v devsn resType index domain with
    | .nothing => (0, { k with needReport := false }, none)
    | .invalid => (-1, k, none)
    | .json value =>
        if v.sendOk then
          let seq := genaralSeq (drawn + v.draws)
          (0, k.reported v seq,
            some (shadowProtocolReport devsn resType index domain k.key value k.statVer seq))
        else (-1, k, none)

/-- The locals of `shadow_proc_report` and the reports it has sent. -/
structure Pass where
  visited : Nat
  drawn : Nat
  totalRemaining : Nat
  sent : List Report

/-- The body of the innermost loop. -/
def visitKey (own : CString) (env : Nat → Visit) (devsn : CField 48) (resType : CField 32)
    (index : Int16) (domain : CField 32) (s : Pass) (k : NodeKey) : Pass × NodeKey × Bool :=
  let v := env s.visited
  match doReport own v s.drawn devsn resType index domain k with
  | (result, k', report) =>
      ({ visited := s.visited + 1
         drawn := if report.isSome then s.drawn + v.draws + 1 else s.drawn
         totalRemaining := if result = 1 then s.totalRemaining + 1 else s.totalRemaining
         sent := s.sent ++ report.toList }, k', result == -1)

/-- What a pass returns and leaves behind. -/
structure PassResult where
  rv : Int
  modules : Modules
  drawn : Nat
  sent : List Report

def shadowProcReport (own : CString) (env : Nat → Visit) (drawn : Nat) (g : Modules) :
    PassResult :=
  match sweepKeys (visitKey own env) ⟨0, drawn, 0, []⟩ g with
  | (s, g', stop) => ⟨if stop then -1 else if s.totalRemaining ≠ 0 then 1 else 0, g', s.drawn, s.sent⟩

/-! ## The pass as one loop over all keys -/

structure Entry where
  devSn : CField 48
  type : CField 32
  index : Int16
  domain : CField 32
  node : NodeKey

def NodeDomain.entries (devSn : CField 48) (type : CField 32) (index : Int16) (d : NodeDomain) :
    List Entry :=
  d.keyLst.map (Entry.mk devSn type index d.domainString)

def NodeIndex.entries (devSn : CField 48) (type : CField 32) (x : NodeIndex) : List Entry :=
  x.domainLst.flatMap (NodeDomain.entries devSn type x.index)

def NodeIndexSet.entries (devSn : CField 48) (s : NodeIndexSet) : List Entry :=
  s.indexLst.flatMap (NodeIndex.entries devSn s.type)

def NodeDev.entries (d : NodeDev) : List Entry := d.typeLst.flatMap (NodeIndexSet.entries d.devSn)

def entries (g : Modules) : List Entry := g.flatMap NodeDev.entries

section Flat

variable {σ : Type}
  (f : CField 48 → CField 32 → Int16 → CField 32 → σ → NodeKey → σ × NodeKey × Bool)

/-- A visit of a key as a visit of its entry. -/
def onEntry (s : σ) (e : Entry) : σ × Entry × Bool :=
  match f e.devSn e.type e.index e.domain s e.node with
  | (s', k, stop) => (s', { e with node := k }, stop)

theorem sweep_domain_entries (devSn : CField 48) (type : CField 32) (index : Int16) (s : σ)
    (d : NodeDomain) :
    sweep (onEntry f) s (d.entries devSn type index) =
      ((d.sweepKeys (f devSn type index) s).1,
        (d.sweepKeys (f devSn type index) s).2.1.entries devSn type index,
        (d.sweepKeys (f devSn type index) s).2.2) := by
  obtain ⟨name, lst⟩ := d
  simp only [NodeDomain.entries, NodeDomain.sweepKeys]
  induction lst generalizing s with
  | nil => rfl
  | cons k lst ih =>
      have hvisit : onEntry f s ⟨devSn, type, index, name, k⟩ =
          ((f devSn type index name s k).1,
            ⟨devSn, type, index, name, (f devSn type index name s k).2.1⟩,
            (f devSn type index name s k).2.2) := rfl
      cases hstop : (f devSn type index name s k).2.2 with
      | true =>
          rw [List.map_cons, sweep_cons_stop _ (by rw [hvisit]; exact hstop),
            sweep_cons_stop _ hstop, hvisit]
          rfl
      | false =>
          rw [List.map_cons, sweep_cons_next _ (by rw [hvisit]; exact hstop),
            sweep_cons_next _ hstop, hvisit, ih]
          rfl

theorem sweep_entries (g : Modules) (s : σ) :
    sweep (onEntry f) s (entries g) =
      ((sweepKeys f s g).1, entries (sweepKeys f s g).2.1, (sweepKeys f s g).2.2) := by
  refine sweep_flatMap (fun s d => ?_) g s
  refine sweep_flatMap (fun s t => ?_) d.typeLst s
  refine sweep_flatMap (fun s x => ?_) t.indexLst s
  exact sweep_flatMap (fun s m => sweep_domain_entries f d.devSn t.type x.index s m) x.domainLst s

end Flat

/-! ## What a visit does -/

section Outcomes

variable (own : CString) (v : Visit) (e : Entry)

/-- The report timer of a due key is still running. -/
def Entry.waits : Bool := e.node.needReport && e.node.waiting v

def Entry.pending : Pending := e.node.pending own v e.devSn e.type e.index e.domain

/-- A due key has a value and the kernel takes the report. -/
def Entry.sends : Bool :=
  e.node.needReport && !e.node.waiting v &&
    match e.pending own v with
    | .json _ => v.sendOk
    | _ => false

/-- A due key has no valid value, or the kernel refuses the report. -/
def Entry.fails : Bool :=
  e.node.needReport && !e.node.waiting v &&
    match e.pending own v with
    | .json _ => !v.sendOk
    | .invalid => true
    | .nothing => false

inductive Entry.Handled (drawn : Nat) : Int × NodeKey × Option Report → Prop
  | idle : e.node.needReport = false → Handled drawn (0, e.node, none)
  | waits : e.waits v = true → Handled drawn (1, e.node, none)
  | dropped : e.node.needReport = true → e.waits v = false → e.sends own v = false →
      e.fails own v = false → Handled drawn (0, { e.node with needReport := false }, none)
  | fails : e.waits v = false → e.fails own v = true → Handled drawn (-1, e.node, none)
  | sent (value : Value) : e.waits v = false → e.fails own v = false → e.sends own v = true →
      Handled drawn (0, e.node.reported v (genaralSeq (drawn + v.draws)),
        some (shadowProtocolReport e.devSn e.type e.index e.domain e.node.key value
          e.node.statVer (genaralSeq (drawn + v.draws))))

theorem doReport_handled (drawn : Nat) :
    e.Handled own v drawn (doReport own v drawn e.devSn e.type e.index e.domain e.node) := by
  unfold doReport
  cases hneed : e.node.needReport with
  | false => exact .idle hneed
  | true =>
      cases hwait : e.node.waiting v with
      | true => exact .waits (by simp [Entry.waits, hneed, hwait])
      | false =>
          have hwaits : e.waits v = false := by simp [Entry.waits, hwait]
          have hsends : e.sends own v = match e.pending own v with
              | .json _ => v.sendOk
              | _ => false := by simp [Entry.sends, hneed, hwait]
          have hfails : e.fails own v = match e.pending own v with
              | .json _ => !v.sendOk
              | .invalid => true
              | .nothing => false := by simp [Entry.fails, hneed, hwait]
          simp only [Bool.true_eq_false, if_false]
          change e.Handled own v drawn (match e.pending own v with
            | .nothing => _
            | .invalid => _
            | .json value => _)
          cases hpending : e.pending own v with
          | nothing =>
              rw [hpending] at hsends hfails
              exact .dropped hneed hwaits hsends hfails
          | invalid =>
              rw [hpending] at hfails
              exact .fails hwaits hfails
          | json value =>
              rw [hpending] at hsends hfails
              cases hok : v.sendOk with
              | true =>
                  rw [hok] at hsends hfails
                  exact .sent value hwaits hfails hsends
              | false =>
                  rw [hok] at hfails
                  exact .fails hwaits hfails

end Outcomes

/-! ## What a pass does -/

section Pass

variable {own : CString} {env : Nat → Visit}

/-- One visit of a pass. -/
abbrev visitEntry (own : CString) (env : Nat → Visit) : Pass → Entry → Pass × Entry × Bool :=
  onEntry (visitKey own env)

theorem visitEntry_visited (s : Pass) (e : Entry) :
    (visitEntry own env s e).1.visited = s.visited + 1 := rfl

/-- A visit is one of the outcomes of `do_report`, booked in the pass. -/
theorem visitEntry_handled (own : CString) (env : Nat → Visit) (s : Pass) (e : Entry) :
    ∃ r, e.Handled own (env s.visited) s.drawn r ∧
      visitEntry own env s e =
        ({ visited := s.visited + 1
           drawn := if r.2.2.isSome then s.drawn + (env s.visited).draws + 1 else s.drawn
           totalRemaining := if r.1 = 1 then s.totalRemaining + 1 else s.totalRemaining
           sent := s.sent ++ r.2.2.toList }, { e with node := r.2.1 }, r.1 == -1) :=
  ⟨_, doReport_handled own (env s.visited) e s.drawn, rfl⟩

theorem visitEntry_stop (s : Pass) (e : Entry) :
    (visitEntry own env s e).2.2 = e.fails own (env s.visited) := by
  rcases visitEntry_handled own env s e with ⟨r, hr, heq⟩
  rw [heq]
  cases hr with
  | idle hneed => simp [Entry.fails, hneed]
  | waits hwaits =>
      have hwaiting : e.node.waiting (env s.visited) = true := by
        simpa [Entry.waits] using (Bool.and_eq_true_iff.mp hwaits).2
      simp [Entry.fails, hwaiting]
  | dropped _ _ _ hfails => simp [hfails]
  | fails _ hfails => simp [hfails]
  | sent value _ hfails _ => simp [hfails]

variable (own env) in
theorem visitEntry_remaining (s : Pass) (e : Entry) :
    (visitEntry own env s e).1.totalRemaining =
      s.totalRemaining + (e.waits (env s.visited)).toNat := by
  rcases visitEntry_handled own env s e with ⟨r, hr, heq⟩
  rw [heq]
  cases hr with
  | idle hneed => simp [Entry.waits, hneed]
  | waits hwaits => simp [hwaits]
  | dropped _ hwaits _ _ => simp [hwaits]
  | fails hwaits _ => simp [hwaits]
  | sent value hwaits _ _ => simp [hwaits]

variable (own env) in
/-- After a visit that neither waits nor fails the key is due exactly when it
was sent. -/
theorem visitEntry_needReport (s : Pass) (e : Entry) (hwaits : e.waits (env s.visited) = false)
    (hfails : e.fails own (env s.visited) = false) :
    (visitEntry own env s e).2.1.node.needReport = e.sends own (env s.visited) := by
  obtain ⟨r, hr, heq⟩ := visitEntry_handled own env s e
  rw [heq]
  cases hr with
  | idle hneed => simp [Entry.sends, hneed]
  | waits hwaits' => simp [hwaits] at hwaits'
  | dropped _ _ hsends _ => simp [hsends]
  | fails _ hfails' => simp [hfails] at hfails'
  | sent value _ _ hsends =>
      have hneed : e.node.needReport = true := by
        simp only [Entry.sends, Bool.and_eq_true] at hsends
        exact hsends.1.1
      simp [NodeKey.reported, hneed, hsends]

/-- Some key has the property at its own visit; the first one is visit `n`. -/
def AtVisit (P : Visit → Entry → Bool) (env : Nat → Visit) (n : Nat) (l : List Entry) : Prop :=
  ∃ i e, l[i]? = some e ∧ P (env (n + i)) e = true

theorem atVisit_nil {P : Visit → Entry → Bool} {n : Nat} : ¬ AtVisit P env n [] := by
  simp [AtVisit]

theorem atVisit_cons {P : Visit → Entry → Bool} {n : Nat} {e : Entry} {l : List Entry} :
    AtVisit P env n (e :: l) ↔ P (env n) e = true ∨ AtVisit P env (n + 1) l := by
  constructor
  · intro hex
    rcases hex with ⟨i, e', hget, hP⟩
    cases i with
    | zero =>
        cases (by simpa using hget : e = e')
        exact .inl hP
    | succ i => exact .inr ⟨i, e', by simpa using hget, by rwa [Nat.add_assoc, Nat.add_comm 1 i]⟩
  · intro hex
    rcases hex with hP | ⟨i, e', hget, hP⟩
    · exact ⟨0, e, by simp, hP⟩
    · exact ⟨i + 1, e', by simpa using hget, by rwa [Nat.add_assoc, Nat.add_comm 1 i] at hP⟩

variable (own env) in
theorem pass_stop (l : List Entry) (s : Pass) :
    (sweep (visitEntry own env) s l).2.2 = true ↔ AtVisit (Entry.fails own) env s.visited l := by
  induction l generalizing s with
  | nil => simp [sweep_nil, atVisit_nil]
  | cons e l ih =>
      rw [atVisit_cons]
      cases hstop : (visitEntry own env s e).2.2 with
      | true =>
          rw [sweep_cons_stop _ hstop]
          exact ⟨fun _ => .inl (by rw [← visitEntry_stop, hstop]), fun _ => rfl⟩
      | false =>
          rw [sweep_cons_next _ hstop]
          rw [visitEntry_stop] at hstop
          rw [hstop, Bool.false_eq_true, false_or]
          exact ih (visitEntry own env s e).1

variable (own env) in
theorem pass_remaining (l : List Entry) (s : Pass)
    (hstop : ¬ AtVisit (Entry.fails own) env s.visited l) :
    s.totalRemaining ≤ (sweep (visitEntry own env) s l).1.totalRemaining ∧
      ((sweep (visitEntry own env) s l).1.totalRemaining ≠ s.totalRemaining ↔
        AtVisit Entry.waits env s.visited l) := by
  induction l generalizing s with
  | nil => simp [sweep_nil, atVisit_nil]
  | cons e l ih =>
      rw [atVisit_cons, not_or] at hstop
      have hnext : (visitEntry own env s e).2.2 = false := by
        rw [visitEntry_stop]
        simpa using hstop.1
      rcases ih (visitEntry own env s e).1 hstop.2 with ⟨hle, hiff⟩
      rw [visitEntry_visited] at hiff
      rw [sweep_cons_next _ hnext, atVisit_cons, ← hiff]
      dsimp only
      have hrem := visitEntry_remaining own env s e
      cases hwaits : e.waits (env s.visited) with
      | true =>
          simp only [hwaits, Bool.toNat_true] at hrem
          refine ⟨by omega, ?_⟩
          simp only [true_or, iff_true]
          omega
      | false =>
          simp only [hwaits, Bool.toNat_false, Nat.add_zero] at hrem
          rw [hrem] at hle ⊢
          simp [hle]

variable (own env) in
theorem pass_needReport (l : List Entry) (s : Pass)
    (hstop : ¬ AtVisit (Entry.fails own) env s.visited l)
    (hwait : ¬ AtVisit Entry.waits env s.visited l) :
    (∃ e ∈ (sweep (visitEntry own env) s l).2.1, e.node.needReport = true) ↔
      AtVisit (Entry.sends own) env s.visited l := by
  induction l generalizing s with
  | nil => simp [sweep_nil, atVisit_nil]
  | cons e l ih =>
      rw [atVisit_cons, not_or] at hstop hwait
      have hnext : (visitEntry own env s e).2.2 = false := by
        rw [visitEntry_stop]
        simpa using hstop.1
      have hneed := visitEntry_needReport own env s e (by simpa using hwait.1)
        (by simpa using hstop.1)
      rw [sweep_cons_next _ hnext, atVisit_cons, ← hneed, List.exists_mem_cons_iff]
      exact or_congr_right (ih (visitEntry own env s e).1 hstop.2 hwait.2)

end Pass

section Idle

variable (own : CString) (env : Nat → Visit) (drawn : Nat) (g : Modules)

abbrev pass : Pass × List Entry × Bool :=
  sweep (visitEntry own env) ⟨0, drawn, 0, []⟩ (entries g)

theorem shadowProcReport_rv :
    (shadowProcReport own env drawn g).rv = if (pass own env drawn g).2.2 then -1
      else if (pass own env drawn g).1.totalRemaining ≠ 0 then 1 else 0 := by
  rw [pass, sweep_entries]
  rfl

theorem shadowProcReport_entries :
    entries (shadowProcReport own env drawn g).modules = (pass own env drawn g).2.1 := by
  rw [pass, sweep_entries]
  rfl

/-- A pass returns 0 exactly when no key waits and none fails. -/
theorem shadowProcReport_rv_zero :
    (shadowProcReport own env drawn g).rv = 0 ↔
      ¬ AtVisit (Entry.fails own) env 0 (entries g) ∧ ¬ AtVisit Entry.waits env 0 (entries g) := by
  have hstop := pass_stop own env (entries g) ⟨0, drawn, 0, []⟩
  rw [shadowProcReport_rv]
  by_cases hfails : AtVisit (Entry.fails own) env 0 (entries g)
  · rw [if_pos (hstop.mpr hfails)]
    simp [hfails]
  · rw [if_neg fun h => hfails (hstop.mp h),
      ← (pass_remaining own env (entries g) ⟨0, drawn, 0, []⟩ hfails).2]
    simp [hfails]

/-- The worker goes idle over a key that still needs its report exactly when a
pass sends something and no key waits or fails. -/
theorem idle_iff_nothing_sent :
    ((shadowProcReport own env drawn g).rv = 0 →
      ∀ e ∈ entries (shadowProcReport own env drawn g).modules, e.node.needReport = false) ↔
    ((∃ (n : Nat) (e : Entry), (entries g)[n]? = some e ∧
        (e.waits (env n) = true ∨ e.fails own (env n) = true)) ∨
      ∀ (n : Nat) (e : Entry), (entries g)[n]? = some e → e.sends own (env n) = false) := by
  rw [shadowProcReport_rv_zero, shadowProcReport_entries]
  by_cases hbusy : AtVisit (Entry.fails own) env 0 (entries g) ∨
      AtVisit Entry.waits env 0 (entries g)
  · refine iff_of_true (fun h => absurd hbusy (not_or.mpr h)) (.inl ?_)
    rcases hbusy with ⟨n, e, hget, hfails⟩ | ⟨n, e, hget, hwaits⟩
    · exact ⟨n, e, hget, .inr (by simpa using hfails)⟩
    · exact ⟨n, e, hget, .inl (by simpa using hwaits)⟩
  · rcases not_or.mp hbusy with ⟨hfails, hwaits⟩
    have hneed := pass_needReport own env (entries g) ⟨0, drawn, 0, []⟩ hfails hwaits
    constructor
    · intro hidle
      refine .inr fun n e hget => Bool.eq_false_iff.mpr fun hsends => ?_
      obtain ⟨e', hmem, hdue⟩ := hneed.mpr ⟨n, e, hget, by simpa using hsends⟩
      simp [hidle ⟨hfails, hwaits⟩ e' hmem] at hdue
    · rintro (⟨n, e, hget, hw | hf⟩ | hnone) -
      · exact absurd ⟨n, e, hget, by simpa using hw⟩ hwaits
      · exact absurd ⟨n, e, hget, by simpa using hf⟩ hfails
      · intro e hmem
        refine Bool.eq_false_iff.mpr fun hdue => ?_
        rcases hneed.mp ⟨e, hmem, hdue⟩ with ⟨n, e', hget, hsends⟩
        simp [hnone n e' hget] at hsends

end Idle

/-- One registered key whose callback gives a value that the kernel accepts. -/
def sampleVisit : Visit where
  now := ⟨100, 0⟩
  dev2cloud := fun _ _ => some ⟨4, .int 1⟩
  draws := 0
  sendOk := true
  later := ⟨100, 0⟩

def sampleRegistration : Registration :=
  ⟨.lit "SUB1", .lit "Video", 0, .lit "light", [⟨.strncpy (.lit "power"), none, some 1⟩]⟩

/-- The pass sends the key, returns 0 and leaves it due: a lost acknowledgement is
not noticed by the idle worker. -/
theorem idle_with_report_outstanding :
    let g := (shadowCoreModuleAddv3 (.lit "OWN") sampleRegistration []).2
    let r := shadowProcReport (.lit "OWN") (fun _ => sampleVisit) 0 g
    ¬ (r.rv = 0 → ∀ e ∈ entries r.modules, e.node.needReport = false) := by
  decide

end EzIot.Shadow
