import EzIot.Shadow.Core
import EzIot.Shadow.Visits

/-! # Changed keys

A push or a reset makes a key due and stops a timer, the one of its index. What keeps the
key from the next pass is the timer of its last report.
-/

namespace EzIot.Shadow

open CText CJson Nested Run

/-! ## The place of a key in a pass -/

/-- The number of keys before the one at a path. -/
def position : Modules → KeyPath → Nat :=
  rank NodeDev.entries fun dev =>
    rank (NodeIndexSet.entries dev.devSn) (fun t =>
      rank (NodeIndex.entries dev.devSn t.type) (fun x =>
        rank (NodeDomain.entries dev.devSn t.type x.index) (fun _ p => p.1) x.domainLst)
        t.indexLst) dev.typeLst

theorem entry_at_position {g : Modules} {q : KeyPath} {k : NodeKey} (h : keyAt g q = some k) :
    ∃ e, (entries g)[position g q]? = some e ∧ e.node = k := by
  refine getElem?_rank (P := fun (e : Entry) k => e.node = k) h fun dev h => ?_
  refine getElem?_rank (P := fun (e : Entry) k => e.node = k) h fun t h => ?_
  refine getElem?_rank (P := fun (e : Entry) k => e.node = k) h fun x h => ?_
  refine getElem?_rank (P := fun (e : Entry) k => e.node = k) h fun d h => ?_
  rw [NodeDomain.keyAt_eq] at h
  refine ⟨⟨dev.devSn, t.type, x.index, d.domainString, k⟩, ?_, rfl⟩
  rw [NodeDomain.entries, List.getElem?_map, h]
  rfl

/-! ## Changes and what follows them -/

/-- A push that succeeds for the key, or a reset. -/
def Changes (own : CString) (s : Core) (q : KeyPath) (c : CoreEvent) : Prop :=
  c.Pushes own s q ∨ (c = .reset ∧ (keyAt s.modules q).isSome)

/-- The pushed value that the next report is to carry. -/
def cachedValue (s : Core) (q : KeyPath) : CoreEvent → Option Value
  | .push _ _ _ _ _ value => value.bind tlv2json
  | _ => (keyAt s.modules q).bind NodeKey.jsonValue

def needsReport (s : Core) (q : KeyPath) : Option Bool :=
  (keyAt s.modules q).map NodeKey.needReport

/-- What may happen between a change and the next pass: anything but another push of the key and
the removal of its device, and nothing makes the key due again once it is not. The key goes from
`q` to `q'`. -/
def Between (own : CString) : List CoreEvent → Core → KeyPath → KeyPath → Prop
  | [], _, q, q' => q' = q
  | e :: es, s, q, q' =>
      ¬ e.IsReport ∧ ¬ e.Pushes own s q ∧
        ∃ j, e.device own s.modules q.1 = some j ∧
          (needsReport s q = some false → needsReport (e.apply own s) (j, q.2) = some false) ∧
          Between own es (e.apply own s) (j, q.2) q'

/-- The acknowledgement of a report takes the key. -/
def CoreEvent.Takes (s : Core) (q : KeyPath) : CoreEvent → Prop
  | .ack seq code =>
      needsReport ⟨shadowReply2report seq code s.modules, s.drawn⟩ q = some false
  | _ => False

/-- No acknowledgement takes the key. -/
def Untaken (own : CString) : List CoreEvent → Core → KeyPath → Prop
  | [], _, _ => True
  | e :: es, s, q =>
      ¬ e.Takes s q ∧
        ∀ j, e.device own s.modules q.1 = some j → Untaken own es (e.apply own s) (j, q.2)

/-- The newest value of a key: the one that was pushed, or what its callback gives now. -/
def Entry.newest (own : CString) (v : Visit) (cached : Option Value) (e : Entry) : Option Value :=
  match cached with
  | some value => some value
  | none => e.node.dev2cloud.bind fun cb =>
      (v.dev2cloud cb (genParam own e.devSn e.type e.index e.domain.toCString e.node.key.toCString)).bind
        tlv2json

section Change

variable {own : CString} {s : Core} {c : CoreEvent} {q q' : KeyPath} {es : List CoreEvent}
  {k : NodeKey}

theorem changed_key (h : Changes own s q c) : ∃ k, keyAt (c.apply own s).modules q = some k ∧
    k.needReport = true ∧ k.jsonValue = cachedValue s q c := by
  rcases h with hpush | ⟨rfl, hkey⟩
  · cases c with
    | push sn resType index domainId pkey value =>
        obtain ⟨k, hfind⟩ := hpush
        refine ⟨k.changed value, ?_, rfl, rfl⟩
        have hkey := keyAt_of_findKeyNode hfind
        rw [CoreEvent.apply, propertieChanged_eq, hfind, keyAt_pushAt, hkey, Option.map_some]
    | _ => exact absurd hpush id
  · obtain ⟨k, hk⟩ := Option.isSome_iff_exists.mp hkey
    refine ⟨{ k with needReport := true }, ?_, rfl, ?_⟩
    · rw [CoreEvent.apply, keyAt_reset, hk, Option.map_some]
    · change k.jsonValue = (keyAt s.modules q).bind NodeKey.jsonValue
      rw [hk, Option.bind_some]

theorem acknowledged_due {code : Int} (h : (k.acknowledged code).needReport = true) :
    (k.acknowledged code).jsonValue = k.jsonValue ∧ k.needReport = true := by
  by_cases hcode : code = 0
  · simp [NodeKey.acknowledged, hcode] at h
  · simpa [NodeKey.acknowledged, hcode] using h

theorem between_idle (h : Between own es s q q') (hidle : needsReport s q = some false) :
    needsReport (coreAfter own es s) q' = some false := by
  induction es generalizing s q with
  | nil =>
      cases h
      exact hidle
  | cons e es ih =>
      obtain ⟨-, -, j, -, hstays, hrest⟩ := h
      exact ih hrest (hstays hidle)

/-- When the pass begins the key is still due with its value, unless an acknowledgement has taken
it. -/
theorem between_key (h : Between own es s q q') (hkey : keyAt s.modules q = some k)
    (hdue : k.needReport = true) : ∃ k', keyAt (coreAfter own es s).modules q' = some k' ∧
      (k'.needReport = true ↔ Untaken own es s q) ∧
      (k'.needReport = true → k'.jsonValue = k.jsonValue) := by
  induction es generalizing s q k with
  | nil =>
      cases h
      exact ⟨k, hkey, iff_of_true hdue trivial, fun _ => rfl⟩
  | cons e es ih =>
      obtain ⟨hreport, hpush, j, hmove, -, hrest⟩ := h
      obtain ⟨i, p⟩ := q
      obtain ⟨k₁, hk₁, heffect⟩ := apply_key hkey hreport hpush hmove
      have hnow : needsReport (e.apply own s) (j, p) = some k₁.needReport := by
        rw [needsReport, hk₁, Option.map_some]
      cases hdue₁ : k₁.needReport with
      | false =>
          -- Only an acknowledgement leaves a due key so.
          rw [hdue₁] at hnow
          have htakes : e.Takes s (i, p) := by
            rcases heffect with hstays | ⟨code, rfl, rfl⟩
            · exact absurd ((hstays.needReport hdue).symm.trans hdue₁) (by decide)
            · cases hmove
              exact hnow
          obtain ⟨k', hk', hidle⟩ := Option.map_eq_some_iff.mp (between_idle hrest hnow)
          refine ⟨k', hk', iff_of_false (by simp [hidle]) fun huntaken => huntaken.1 htakes, ?_⟩
          simp [hidle]
      | true =>
          have hvalue : k₁.jsonValue = k.jsonValue := by
            rcases heffect with hstays | ⟨code, -, rfl⟩
            · exact hstays.jsonValue
            · exact (acknowledged_due hdue₁).1
          have hnot : ¬ e.Takes s (i, p) := by
            cases e with
            | ack seq code =>
                cases hmove
                intro htakes
                have hidle : some k₁.needReport = some false := hnow.symm.trans htakes
                exact absurd (hdue₁.symm.trans (Option.some.inj hidle)) (by decide)
            | _ => exact id
          have hlater : Untaken own (e :: es) s (i, p) ↔ Untaken own es (e.apply own s) (j, p) := by
            refine ⟨fun huntaken => huntaken.2 j hmove, fun hrest => ⟨hnot, fun j' hj' => ?_⟩⟩
            cases hmove.symm.trans hj'
            exact hrest
          obtain ⟨k', hk', hiff, hsame⟩ := ih hrest hk₁ hdue₁
          exact ⟨k', hk', hiff.trans hlater.symm, fun hdue' => (hsame hdue').trans hvalue⟩

/-- An acknowledgement takes a due key only if it has the number of its last report and result
0. -/
theorem taken_by_ack {e : CoreEvent} (hkey : keyAt s.modules q = some k)
    (hdue : k.needReport = true) (htakes : e.Takes s q) : e = .ack k.msgSeq 0 := by
  cases e with
  | ack seq code =>
      have hext := keyAt_reply2report seq code s.modules q
      rw [hkey] at hext
      obtain ⟨k', hk', heffect⟩ := hext.of_some
      have hidle : k'.needReport = false := by
        simpa [CoreEvent.Takes, needsReport, hk'] using htakes
      rcases heffect with rfl | ⟨rfl, rfl⟩
      · exact absurd (hdue.symm.trans hidle) (by decide)
      · by_cases hcode : code = 0
        · rw [hcode]
        · simp [NodeKey.acknowledged, hcode, hdue] at hidle
  | _ => exact absurd htakes id

end Change

/-! ## The next pass -/

section Next

variable {own : CString} {v : Visit} {env : Nat → Visit} {drawn n : Nat} {g : Modules} {e : Entry}
  {cached : Option Value} {value : Value}

/-- The visit of entry `n` sends that value of the key. -/
def SendsAt (own : CString) (env : Nat → Visit) (drawn : Nat) (g : Modules) (n : Nat) (e : Entry)
    (value : Value) : Prop :=
  ∃ seq, reportAt own env drawn g n =
    some (shadowProtocolReport e.devSn e.type e.index e.domain e.node.key value e.node.statVer seq)

/-- The visit sends the newest value of the key. -/
def SendsNewest (own : CString) (env : Nat → Visit) (s : Core) (cached : Option Value) (n : Nat)
    (e : Entry) : Prop :=
  ∃ value, e.newest own (env n) cached = some value ∧ SendsAt own env s.drawn s.modules n e value

theorem pending_eq_json_iff (h : e.node.jsonValue = cached) :
    e.pending own v = .json value ↔ e.newest own v cached = some value := by
  unfold Entry.pending NodeKey.pending Entry.newest
  rw [h]
  cases cached with
  | some x => simp
  | none =>
      cases e.node.dev2cloud with
      | none => simp
      | some cb =>
          dsimp only
          rw [Option.bind_some]
          cases v.dev2cloud cb
              (genParam own e.devSn e.type e.index e.domain.toCString e.node.key.toCString) with
          | none => simp
          | some tlv =>
              rw [Option.bind_some]
              cases htlv : tlv2json tlv <;> simp [htlv]

theorem shadowProtocolReport_value {devsn : CField 48} {resType domain key : CField 32}
    {index : Int16} {ver seq seq' : UInt32} {x y : Value}
    (h : shadowProtocolReport devsn resType index domain key x ver seq =
      shadowProtocolReport devsn resType index domain key y ver seq') : x = y := by
  have hbody := congrArg Report.body h
  simpa [shadowProtocolReport, reportBody] using hbody

/-- What a visit sends of a due key. -/
theorem doReport_sends (hdue : e.node.needReport = true) :
    (∃ seq, (doReport own v drawn e.devSn e.type e.index e.domain e.node).2.2 =
      some (shadowProtocolReport e.devSn e.type e.index e.domain e.node.key value e.node.statVer seq)) ↔
      e.node.waiting v = false ∧ e.pending own v = .json value ∧ v.sendOk = true := by
  unfold doReport
  rw [if_neg (by simp [hdue])]
  cases hwait : e.node.waiting v with
  | true => simp
  | false =>
      rw [if_neg Bool.false_ne_true]
      have hentry : e.node.pending own v e.devSn e.type e.index e.domain = e.pending own v := rfl
      rw [hentry]
      cases e.pending own v with
      | nothing => simp
      | invalid => simp
      | json x =>
          cases v.sendOk with
          | false => simp
          | true =>
              simp only [and_true, true_and, Pending.json.injEq]
              constructor
              · intro hsent
                rcases hsent with ⟨seq, hseq⟩
                exact shadowProtocolReport_value (Option.some.inj hseq)
              · intro hvalue
                subst hvalue
                exact ⟨_, rfl⟩

theorem sendsAt_iff (hget : (entries g)[n]? = some e)
    (hclear : ∀ m e', m < n → (entries g)[m]? = some e' → e'.fails own (env m) = false) :
    SendsAt own env drawn g n e value ↔ e.node.needReport = true ∧ e.node.waiting (env n) = false ∧
      e.pending own (env n) = .json value ∧ (env n).sendOk = true := by
  have hlen : n ≤ (entries g).length := Nat.le_of_lt (List.getElem?_eq_some_iff.mp hget).choose
  have hreached : (reached (visitEntry own env) ⟨0, drawn, 0, []⟩ (entries g) n).isSome := by
    refine (reached_visit hlen).mpr fun m e' hm hget' => ?_
    rw [Nat.zero_add]
    exact hclear m e' hm hget'
  obtain ⟨t, ht⟩ := Option.isSome_iff_exists.mp hreached
  have hn : t.visited = n := by
    rw [reached_visited ht, Nat.zero_add]
  subst hn
  rw [SendsAt, reportAt, reportOf, ht, Option.bind_some, hget, Option.bind_some]
  cases hdue : e.node.needReport with
  | false => simp [doReport, hdue]
  | true =>
      rw [doReport_sends hdue]
      exact (and_iff_right rfl).symm

end Next

/-- After a change the next pass that comes to the key sends its newest value exactly if its own
report timer is not running then, there is a value, the kernel takes the message, and no
acknowledgement has taken the key. -/
theorem due_at_once_iff {own : CString} {s : Core} {c : CoreEvent} {q q' : KeyPath}
    {es : List CoreEvent} (hchange : Changes own s q c)
    (hbetween : Between own es (c.apply own s) q q') (env : Nat → Visit) :
    let s' := coreAfter own es (c.apply own s)
    let n := position s'.modules q'
    ∃ e, (entries s'.modules)[n]? = some e ∧ keyAt s'.modules q' = some e.node ∧
      ((∀ m e', m < n → (entries s'.modules)[m]? = some e' → e'.fails own (env m) = false) →
        (SendsNewest own env s' (cachedValue s q c) n e ↔
          Untaken own es (c.apply own s) q ∧ e.node.waiting (env n) = false ∧
            (e.newest own (env n) (cachedValue s q c)).isSome ∧ (env n).sendOk = true)) := by
  obtain ⟨k, hk, hdue, hvalue⟩ := changed_key hchange
  obtain ⟨k', hk', huntaken, hsame⟩ := between_key hbetween hk hdue
  obtain ⟨e, hget, rfl⟩ := entry_at_position hk'
  refine ⟨e, hget, hk', fun hclear => ?_⟩
  unfold SendsNewest
  simp only [sendsAt_iff hget hclear]
  rw [← huntaken]
  constructor
  · intro hsends
    rcases hsends with ⟨value, hnewest, hdue', hwait, -, hsend⟩
    exact ⟨hdue', hwait, by rw [hnewest, Option.isSome_some], hsend⟩
  · intro hready
    rcases hready with ⟨hdue', hwait, hsome, hsend⟩
    obtain ⟨value, hnewest⟩ := Option.isSome_iff_exists.mp hsome
    have hpending := (pending_eq_json_iff ((hsame hdue').trans hvalue)).mpr hnewest
    exact ⟨value, hnewest, hdue', hwait, hpending, hsend⟩

/-- The registered key, after the pass that has sent it. -/
def reportedCore : Core :=
  coreAfter (.lit "OWN") [.register sampleRegistration, .report fun _ => sampleVisit] ⟨[], 0⟩

def samplePush : CoreEvent :=
  .push (.lit "SUB1") (.lit "Video") 0 (.lit "light") (.lit "power") (some ⟨4, .int 2⟩)

theorem samplePush_changes : Changes (.lit "OWN") reportedCore (0, 0, 0, 0, 0, ()) samplePush :=
  .inl ⟨_, rfl⟩

theorem due_at_once_later : ∃ e,
    (entries (samplePush.apply (.lit "OWN") reportedCore).modules)[0]? = some e ∧
      SendsNewest (.lit "OWN") (fun _ => { sampleVisit with now := ⟨1000, 0⟩ })
        (samplePush.apply (.lit "OWN") reportedCore)
        (cachedValue reportedCore (0, 0, 0, 0, 0, ()) samplePush) 0 e := by
  have hnone : Between (.lit "OWN") [] (samplePush.apply (.lit "OWN") reportedCore)
      (0, 0, 0, 0, 0, ()) (0, 0, 0, 0, 0, ()) := rfl
  obtain ⟨e, hget, -, hiff⟩ := due_at_once_iff samplePush_changes hnone
    fun _ => { sampleVisit with now := ⟨1000, 0⟩ }
  refine ⟨e, hget, (hiff fun m _ hm => absurd hm (Nat.not_lt_zero m)).mpr ⟨trivial, ?_⟩⟩
  cases hget
  decide +kernel

/-- A value that is pushed while the report before it is in flight waits for the timer of that
report. -/
theorem running_timer_delays :
    Changes (.lit "OWN") reportedCore (0, 0, 0, 0, 0, ()) samplePush ∧ ∃ e,
      (entries (samplePush.apply (.lit "OWN") reportedCore).modules)[0]? = some e ∧
        ¬ SendsNewest (.lit "OWN") (fun _ => sampleVisit) (samplePush.apply (.lit "OWN") reportedCore)
          (cachedValue reportedCore (0, 0, 0, 0, 0, ()) samplePush) 0 e := by
  refine ⟨samplePush_changes, _, rfl, ?_⟩
  intro hsends
  rcases hsends with ⟨value, -, seq, hsent⟩
  cases hsent

end EzIot.Shadow
