import EzIot.Hub.List
import EzIot.Lib.Scan

/-! # The counter of sub-devices that are not authenticated

Beside the stored list the hub counts the sub-devices whose authentication is still
outstanding. A timer asks for them again while the counter is positive.
-/

namespace EzIot.Hub

open CText CJson Kv Run

/-! ## Calls -/

structure EzSubdevInfo where
  authMode : Int8
  subdevType : CField 33
  subdevSn : CField 17
  subdevVcode : CField 33
  subdevVer : CField 33
  subdevUuid : CField 17
  sta : Int8
deriving DecidableEq

/-- What `ez_iot_hub_add` hands on: the structure is the beginning of the internal one,
and the rest of that is zero. -/
def EzSubdevInfo.internal (info : EzSubdevInfo) : SubdevInfo :=
  ⟨info.authMode, info.subdevType, info.subdevSn, info.subdevVcode, info.subdevVer,
    info.subdevUuid, info.sta, 0⟩

def sapDevSnLen : Nat := 9

/-- The serial in a reply; a licensed device is named behind its product key. There is no
result where nothing is scanned into the buffer, or more than it takes. -/
def replySn (childserial : CString) : Option CString :=
  if childserial.length = sapDevSnLen then
    some (CField.strncpy childserial : CField 17).toCString
  else
    match sscanf [.scanset childserial.length 58, .lit 58, .word] childserial.val with
    | [_, .text sn] => if sn.length < 17 then some (.ofMem sn) else none
    | _ => none

def hubSubdevAuthDone (query : Accesses) (buf : Option Bytes) (len : Nat) :
    Option (Option HubOp) :=
  match buf with
  | none => some none
  | some mem =>
      if len = 0 then some none
      else
        match cJSONParse mem with
        | none => some none
        | some root =>
            match root.getObjectItem (ascii "childserial"), root.getObjectItem (ascii "result") with
            | some (.string serial), some (.number result) =>
                (replySn (.ofMem serial)).map fun sn =>
                  if result.valueint = 0 then some (.authPassed sn)
                  else if result.valueint = 1 then some (.authFailure query sn)
                  else none
            | _, _ => some none

inductive HubCall
  | add (info : EzSubdevInfo)
  | del (sn : CString)
  | verUpdate (sn ver : CString)
  | statusUpdate (sn : CString) (online : Bool)
  | clean
  | authDone (query : Accesses) (buf : Option Bytes) (len : Nat)

/-- The operation on the list that a call comes to, if any. -/
def HubCall.op : HubCall → Option (Option HubOp)
  | .add info => some (some (.add info.internal))
  | .del sn => some (some (.del sn))
  | .verUpdate sn ver => some (some (.verUpdate sn ver))
  | .statusUpdate sn online => some (some (.statusUpdate sn online))
  | .clean => some (some .clean)
  | .authDone query buf len => hubSubdevAuthDone query buf len

/-! ## The counter -/

/-- `subdev_info.access` in `hub_del_do`. -/
def delAccess (a : Accesses) (sn : CString) (kv : Store) : Option Int8 :=
  match readList a kv with
  | .ok (some (.array items)) =>
      match findDevBySn sn items with
      | some (some index) => (items[index]?.bind jsonToSubdev).map SubdevInfo.access
      | _ => none
  | _ => none

/-- What an operation that returned `rv` makes of `g_unauth_count`. -/
def HubOp.count (a : Accesses) (kv : Store) (rv : HubErr) (count : Int) : HubOp → Int
  | .add _ => if rv = .succ then count + 1 else count
  | .del sn => if rv = .succ ∧ delAccess a sn kv = some 0 then count - 1 else count
  | .authFailure _ sn => if rv = .succ ∧ delAccess a sn kv = some 0 then count - 1 else count
  | .verUpdate _ _ => count
  | .statusUpdate _ _ => count
  | .authPassed _ => count
  | .clean => count

structure HubState extends Sublist where
  gUnauthCount : Int

section Runs

variable (p : Printer)

/-- A call that returns. -/
def HubState.step (h : HubState) (i : HubCall × Accesses) : Option HubState :=
  match i.1.op with
  | none => none
  | some none => some h
  | some (some op) =>
      if h.locked then none
      else
        (op.run p i.2 h.kv).map fun r =>
          { kv := r.2
            locked := decide (op = .clean ∧ r.1 ≠ .succ)
            gUnauthCount := op.count i.2 h.kv r.1 h.gUnauthCount }

def authRetryTimerCb (h : HubState) : Bool := decide (0 < h.gUnauthCount)

def SubdevInfo.unauth (d : SubdevInfo) : Bool := d.access == 0

/-- The counter is the number of stored devices that are not authenticated, so that the
timer starts a round exactly when there is one. -/
structure CountExact (h : HubState) (l : List SubdevInfo) : Prop where
  stored : storedList h.kv = some l
  count : h.gUnauthCount = (l.countP SubdevInfo.unauth : Nat)
  round : authRetryTimerCb h = true ↔ ∃ d ∈ l, d.access = 0

/-! ## When it stays exact -/

/-- Whether the list is written: it can be read and has what the operation needs. A text
that is too long is cut off where it is read, and no list any more. -/
def HubOp.reached (a : Accesses) (kv : Store) (op : HubOp) : Bool :=
  (decide (op = .clean) ||
      !unreadable a kv && decide ((kv.value hublistKey).length ≤ hubListSize)) &&
    op.writes (storedItems kv)

def storedDevs (kv : Store) : List SubdevInfo := (storedList kv).getD []

/-- The stored device of a serial is not authenticated. -/
def unauthSn (kv : Store) (sn : CString) : Bool :=
  (storedDevs kv).any fun d => d.isOf sn && d.unauth

/-- What is written is stored, at once or by its repetition. -/
def Accesses.stores (a : Accesses) : Bool := a.rawSet || a.rawSetLogged

/-- What is written is stored by its repetition only. -/
def Accesses.storesLate (a : Accesses) : Bool := !a.rawSet && a.rawSetLogged

/-- An addition, or the removal of an unauthenticated device, that failed is not stored
by the log; and no unauthenticated device passes its authentication or is wiped. -/
def HubOp.keepsCount (a : Accesses) (kv : Store) : HubOp → Bool
  | .add _ => !a.storesLate
  | .del sn => !(a.storesLate && unauthSn kv sn)
  | .authFailure _ sn => !(a.storesLate && unauthSn kv sn)
  | .authPassed sn => !(a.stores && unauthSn kv sn)
  | .clean => !(a.stores && (storedDevs kv).any SubdevInfo.unauth)
  | .verUpdate _ _ => true
  | .statusUpdate _ _ => true

def KeepsCount (h : HubState) (i : HubCall × Accesses) : Prop :=
  ∀ op, i.1.op = some (some op) → op.reached i.2 h.kv = true → op.keepsCount i.2 h.kv = true

end Runs

/-! ## What is written -/

theorem hubSubdevAuthDone_cases (buf : Option Bytes) (len : Nat) :
    (∀ query, hubSubdevAuthDone query buf len = none) ∨
      (∀ query, hubSubdevAuthDone query buf len = some none) ∨
      (∃ sn, ∀ query, hubSubdevAuthDone query buf len = some (some (.authPassed sn))) ∨
      ∃ sn, ∀ query, hubSubdevAuthDone query buf len = some (some (.authFailure query sn)) := by
  unfold hubSubdevAuthDone
  split
  · exact .inr (.inl fun _ => rfl)
  split
  · exact .inr (.inl fun _ => rfl)
  split
  · exact .inr (.inl fun _ => rfl)
  split
  · next serial result _ _ =>
      cases hsn : replySn (.ofMem serial) with
      | none => exact .inl fun _ => rfl
      | some sn =>
          simp only [Option.map_some]
          split
          · exact .inr (.inr (.inl ⟨sn, fun _ => rfl⟩))
          split
          · exact .inr (.inr (.inr ⟨sn, fun _ => rfl⟩))
          · exact .inr (.inl fun _ => rfl)
  · exact .inr (.inl fun _ => rfl)

theorem hubSubdevAuthDone_ne_add (query : Accesses) (buf : Option Bytes) (len : Nat)
    (d : SubdevInfo) : hubSubdevAuthDone query buf len ≠ some (some (.add d)) := by
  intro hop
  rcases hubSubdevAuthDone_cases buf len with h | h | ⟨sn, h⟩ | ⟨sn, h⟩
  all_goals
    rw [h query] at hop
    cases hop

section Counted

variable {p : Printer} {a : Accesses} {kv : Store} {entries : List SubdevEntry} {sn : CString}

theorem readList_truncated (h : Kept p kv entries)
    (hlong : hubListSize < (kv.value hublistKey).length) (a : Accesses) :
    ∃ rv, rv ≠ .succ ∧ readList a kv = .error rv := by
  have hne : kv.value hublistKey ≠ [] := List.ne_nil_of_length_pos (Nat.zero_lt_of_lt hlong)
  have htext : kv.value hublistKey = printList p (entries.map SubdevEntry.toJson) :=
    h.text.resolve_right fun hnil => hne hnil.2
  have hcut : cJSONParse (kv.rawGet hublistKey (kv.rawLength hublistKey hubListSize)) = none := by
    have hlength : kv.rawLength hublistKey hubListSize = hubListSize :=
      Nat.min_eq_left (Nat.le_of_lt hlong)
    rw [hlength]
    exact cJSONParse_cutRecords (isRecord_entries entries)
      (htext.symm.trans (List.take_append_drop hubListSize _).symm)
      (List.ne_nil_of_length_pos (by rw [List.length_drop]; omega))
  unfold readList
  cases a.rawGetLength with
  | false => exact ⟨.storage, by decide, rfl⟩
  | true =>
      cases a.rawGet with
      | false => exact ⟨.storage, by decide, by simp [Store.rawLength_ne_zero hne]⟩
      | true => exact ⟨.memory, by decide, by simp [Store.rawLength_ne_zero hne, hcut]⟩

/-- Every operation writes the list with its change where it gets to, or reports an error. -/
theorem Kept.run (h : Kept p kv entries) (a : Accesses) (op : HubOp) :
    ∃ rv, rv ≠ .succ ∧ op.run p a kv = some (
      if op.reached a kv = true then writeList a (op.text p (Hub.storedItems kv)) kv
      else (rv, kv)) := by
  by_cases hclean : op = .clean
  · subst hclean
    exact ⟨.storage, by decide, rfl⟩
  · by_cases hfits : (kv.value hublistKey).length ≤ hubListSize
    · obtain ⟨rv, hrv, hrun⟩ := HubOp.run_listed (h.listed hfits) a op
      refine ⟨rv, hrv, hrun.trans ?_⟩
      simp [HubOp.reached, HubOp.unread, hclean, hfits]
    · obtain ⟨rv, hrv, hread⟩ := readList_truncated h (Nat.lt_of_not_le hfits) a
      refine ⟨rv, hrv, ?_⟩
      have hnot : op.reached a kv = false := by simp [HubOp.reached, hclean, hfits]
      rw [hnot]
      cases op with
      | clean => exact absurd rfl hclean
      | add d => simp only [HubOp.run, hubAddDo, hread]; rfl
      | del sn => simp only [HubOp.run, hubDelDo, editSubdev, hread]; rfl
      | verUpdate sn ver => simp only [HubOp.run, hubVerUpdateDo, editSubdev, hread]; rfl
      | statusUpdate sn online => simp only [HubOp.run, hubStatusUpdateDo, editSubdev, hread]; rfl
      | authPassed sn => simp only [HubOp.run, hubSubdevAuthPassed, editSubdev, hread]; rfl
      | authFailure query sn =>
          obtain ⟨query', hquery⟩ : ∃ r, hubSubdevQuery query sn kv = some r := by
            obtain ⟨rv', -, hread'⟩ := readList_truncated h (Nat.lt_of_not_le hfits) query
            exact ⟨.error rv', by simp only [hubSubdevQuery, hread']⟩
          simp only [HubOp.run, hubSubdevAuthFailure, hquery, Option.bind_some, hubDelDo,
            editSubdev, hread]
          rfl

/-! ## Unauthenticated entries -/

def SubdevEntry.unauth (e : SubdevEntry) : Bool := e.access == 0

/-- Whose serial is found stands once in the list. -/
theorem Kept.split (h : Kept p kv entries) (hfound : (Hub.storedItems kv).any (holdsSn sn) = true) :
    ∃ pre e post, entries = pre ++ e :: post ∧ (∀ x ∈ pre, x.isOf sn = false) ∧ e.isOf sn = true ∧
      ∀ x ∈ post, x.isOf sn = false := by
  rw [h.storedItems, any_holdsSn] at hfound
  obtain ⟨i, hfind⟩ := Option.isSome_iff_exists.mp hfound
  obtain ⟨pre, e, post, rfl, rfl, he, hpre⟩ := findIdx?_eq_some_split hfind
  refine ⟨pre, e, post, rfl, hpre, he, fun x hx => ?_⟩
  exact List.rel_of_pairwise_cons (List.pairwise_append.mp (h.pairwise sn)).2.1 hx he

theorem Kept.storedDevs (h : Kept p kv entries) :
    storedDevs kv = entries.map SubdevEntry.info := by
  rw [Hub.storedDevs, h.storedList, Option.getD_some]

theorem any_not_isOf {l : List SubdevEntry} (h : ∀ x ∈ l, x.isOf sn = false) :
    (l.map SubdevEntry.info).any (fun d => d.isOf sn && d.unauth) = false := by
  rw [List.any_map, List.any_eq_false]
  intro x hx
  have hself : x.info.isOf sn = false := h x hx
  simp [hself]

/-- Whether the device of a serial is authenticated is what its entry says. -/
theorem Kept.unauthSn_split {pre post : List SubdevEntry} {e : SubdevEntry}
    (h : Kept p kv (pre ++ e :: post)) (hpre : ∀ x ∈ pre, x.isOf sn = false)
    (he : e.isOf sn = true) (hpost : ∀ x ∈ post, x.isOf sn = false) :
    unauthSn kv sn = e.unauth := by
  have hself : e.info.isOf sn = true := he
  rw [unauthSn, h.storedDevs, List.map_append, List.map_cons, List.any_append, List.any_cons,
    any_not_isOf hpre, any_not_isOf hpost, hself]
  simp only [Bool.false_or, Bool.true_and, Bool.or_false]
  rfl

/-- How the number of unauthenticated devices changes with the list. -/
def HubOp.gain (kv : Store) : HubOp → Int
  | .add d => if d.unauth then 1 else 0
  | .del sn => if unauthSn kv sn then -1 else 0
  | .authFailure _ sn => if unauthSn kv sn then -1 else 0
  | .authPassed sn => if unauthSn kv sn then -1 else 0
  | .clean => -((storedDevs kv).countP SubdevInfo.unauth : Nat)
  | .verUpdate _ _ => 0
  | .statusUpdate _ _ => 0

theorem Kept.erased_unauth (h : Kept p kv entries)
    (hfound : (Hub.storedItems kv).any (holdsSn sn) = true) :
    ((entries.eraseP (SubdevEntry.isOf sn)).countP SubdevEntry.unauth : Int) =
      entries.countP SubdevEntry.unauth + if unauthSn kv sn then -1 else 0 := by
  obtain ⟨pre, e, post, rfl, hpre, he, hpost⟩ := h.split hfound
  rw [h.unauthSn_split hpre he hpost, List.eraseP_append_right _ fun x hx => by simp [hpre x hx],
    List.eraseP_cons_of_pos he, List.countP_append, List.countP_append, List.countP_cons]
  cases e.unauth with
  | true => simp only [if_true]; omega
  | false => simp

theorem Kept.modified_unauth (h : Kept p kv entries) (f : SubdevEntry → SubdevEntry)
    (hfound : (Hub.storedItems kv).any (holdsSn sn) = true) :
    ∃ e, e.unauth = unauthSn kv sn ∧
      ((Slots.modifyFirst (SubdevEntry.isOf sn) f entries).countP SubdevEntry.unauth : Int) =
        entries.countP SubdevEntry.unauth + (if (f e).unauth then 1 else 0) -
          if unauthSn kv sn then 1 else 0 := by
  obtain ⟨pre, e, post, rfl, hpre, he, hpost⟩ := h.split hfound
  refine ⟨e, (h.unauthSn_split hpre he hpost).symm, ?_⟩
  rw [h.unauthSn_split hpre he hpost, Slots.modifyFirst_append hpre he, List.countP_append,
    List.countP_append, List.countP_cons, List.countP_cons]
  push_cast
  omega

theorem Kept.effect_unauth (h : Kept p kv entries) {op : HubOp}
    (hwrites : op.writes (Hub.storedItems kv) = true) :
    ((op.effect entries).countP SubdevEntry.unauth : Int) =
      entries.countP SubdevEntry.unauth + op.gain kv := by
  cases op with
  | add d =>
      rw [HubOp.effect, List.countP_append, List.countP_singleton]
      push_cast
      rfl
  | del sn => exact h.erased_unauth hwrites
  | authFailure query sn => exact h.erased_unauth hwrites
  | verUpdate sn ver =>
      obtain ⟨e, he, hcount⟩ := h.modified_unauth (fun e => { e with ver := ver }) hwrites
      have hkept : SubdevEntry.unauth { e with ver := ver } = unauthSn kv sn := he
      rw [HubOp.effect, hcount, hkept, HubOp.gain]
      omega
  | statusUpdate sn online =>
      obtain ⟨e, he, hcount⟩ := h.modified_unauth (fun e => { e with sta := .online online }) hwrites
      have hkept : SubdevEntry.unauth { e with sta := .online online } = unauthSn kv sn := he
      rw [HubOp.effect, hcount, hkept, HubOp.gain]
      omega
  | authPassed sn =>
      obtain ⟨e, -, hcount⟩ := h.modified_unauth (fun e => { e with access := 1 }) hwrites
      have hpassed : SubdevEntry.unauth { e with access := 1 } = false := rfl
      rw [HubOp.effect, hcount, hpassed, HubOp.gain]
      cases unauthSn kv sn with
      | true => exact Int.sub_eq_add_neg
      | false => rfl
  | clean =>
      have hall : (Hub.storedDevs kv).countP SubdevInfo.unauth = entries.countP SubdevEntry.unauth := by
        rw [h.storedDevs, List.countP_map]
        rfl
      rw [HubOp.effect, HubOp.gain, hall, List.countP_nil]
      omega

theorem Kept.delAccess (h : Kept p kv entries) (hread : unreadable a kv = false)
    (hfits : (kv.value hublistKey).length ≤ hubListSize)
    (hfound : (Hub.storedItems kv).any (holdsSn sn) = true) :
    Hub.delAccess a sn kv = some 0 ↔ unauthSn kv sn = true := by
  have hne : kv.value hublistKey ≠ [] := by
    intro hnil
    rw [h.storedItems, h.eq_nil hnil] at hfound
    exact Bool.noConfusion hfound
  obtain ⟨pre, e, post, rfl, hpre, he, hpost⟩ := h.split hfound
  have hindex : (pre ++ e :: post).findIdx? (SubdevEntry.isOf sn) = some pre.length := by
    rw [List.findIdx?_append, List.findIdx?_eq_none_iff.mpr hpre, List.findIdx?_cons, he]
    simp
  have hitem : ((pre ++ e :: post).map SubdevEntry.toJson)[pre.length]? = some e.toJson := by simp
  unfold Hub.delAccess
  rw [(h.listed hfits).readList hread, if_neg hne]
  simp only [findDevBySn_entries, hindex, hitem, Option.bind_some, SubdevEntry.jsonToSubdev_toJson,
    Option.map_some, Option.some_inj]
  rw [h.unauthSn_split hpre he hpost, SubdevEntry.unauth, beq_iff_eq]
  rfl

/-! ## Steps -/

/-- How a successful operation changes the counter. -/
def HubOp.counted (kv : Store) : HubOp → Int
  | .add _ => 1
  | .del sn => if unauthSn kv sn then -1 else 0
  | .authFailure _ sn => if unauthSn kv sn then -1 else 0
  | .verUpdate _ _ => 0
  | .statusUpdate _ _ => 0
  | .authPassed _ => 0
  | .clean => 0

theorem HubOp.count_of_error {op : HubOp} {rv : HubErr} (hrv : rv ≠ .succ) (count : Int) :
    op.count a kv rv count = count := by
  cases op <;> simp [HubOp.count, hrv]

theorem Kept.count_succ (h : Kept p kv entries) {op : HubOp} (hreached : op.reached a kv = true)
    (count : Int) : op.count a kv .succ count = count + op.counted kv := by
  rw [HubOp.reached, Bool.and_eq_true, Bool.or_eq_true, Bool.and_eq_true, Bool.not_eq_true',
    decide_eq_true_eq, decide_eq_true_eq] at hreached
  have hdel (sn : CString) (hread : unreadable a kv = false ∧
      (kv.value hublistKey).length ≤ hubListSize)
      (hfound : (Hub.storedItems kv).any (holdsSn sn) = true) :
      (if HubErr.succ = .succ ∧ Hub.delAccess a sn kv = some 0 then count - 1 else count) =
        count + if unauthSn kv sn then -1 else 0 := by
    simp only [true_and, h.delAccess hread.1 hread.2 hfound]
    split
    · exact Int.sub_eq_add_neg
    · exact (Int.add_zero count).symm
  cases op with
  | add d => rfl
  | del sn => exact hdel sn (hreached.1.resolve_left (by simp)) hreached.2
  | authFailure query sn => exact hdel sn (hreached.1.resolve_left (by simp)) hreached.2
  | verUpdate | statusUpdate | authPassed | clean => exact (Int.add_zero count).symm

/-- The counter follows a list that is stored at once. -/
theorem HubOp.keepsCount_rawSet {op : HubOp} (hset : a.rawSet = true)
    (hadd : ∀ d, op = .add d → d.unauth = true) :
    op.keepsCount a kv = true ↔ op.counted kv = op.gain kv := by
  have hstores : a.stores = true := by rw [Accesses.stores, hset, Bool.true_or]
  have hlate : a.storesLate = false := by rw [Accesses.storesLate, hset]; rfl
  cases op with
  | add d => simp [HubOp.keepsCount, HubOp.counted, HubOp.gain, hlate, hadd d rfl]
  | del | authFailure | verUpdate | statusUpdate =>
      simp [HubOp.keepsCount, HubOp.counted, HubOp.gain, hlate]
  | authPassed sn =>
      simp only [HubOp.keepsCount, HubOp.counted, HubOp.gain, hstores, Bool.true_and]
      cases unauthSn kv sn <;> decide
  | clean =>
      simp only [HubOp.keepsCount, HubOp.counted, HubOp.gain, hstores, Bool.true_and,
        Bool.not_eq_true', List.any_eq_false, zero_eq_neg, Int.natCast_eq_zero, List.countP_eq_zero]

/-- It does not follow one that is stored by the log. -/
theorem HubOp.keepsCount_logged {op : HubOp} (hset : a.rawSet = false)
    (hlogged : a.rawSetLogged = true) (hadd : ∀ d, op = .add d → d.unauth = true) :
    op.keepsCount a kv = true ↔ op.gain kv = 0 := by
  have hstores : a.stores = true := by rw [Accesses.stores, hlogged, Bool.or_true]
  have hlate : a.storesLate = true := by rw [Accesses.storesLate, hset, hlogged]; rfl
  cases op with
  | add d => simp [HubOp.keepsCount, HubOp.gain, hlate, hadd d rfl]
  | del sn | authFailure query sn =>
      simp only [HubOp.keepsCount, HubOp.gain, hlate, Bool.true_and]
      cases unauthSn kv sn <;> decide
  | authPassed sn =>
      simp only [HubOp.keepsCount, HubOp.gain, hstores, Bool.true_and]
      cases unauthSn kv sn <;> decide
  | verUpdate | statusUpdate => simp [HubOp.keepsCount, HubOp.gain]
  | clean =>
      simp only [HubOp.keepsCount, HubOp.gain, hstores, Bool.true_and, Bool.not_eq_true',
        List.any_eq_false, neg_eq_zero, Int.natCast_eq_zero, List.countP_eq_zero]

/-- Nothing else changes the list. -/
theorem HubOp.keepsCount_not_stored {op : HubOp} (hset : a.rawSet = false)
    (hlogged : a.rawSetLogged = false) : op.keepsCount a kv = true := by
  cases op <;> simp [HubOp.keepsCount, Accesses.stores, Accesses.storesLate, hset, hlogged]

theorem HubCall.add_unauth {call : HubCall} {op : HubOp} (hop : call.op = some (some op)) :
    ∀ d, op = .add d → d.unauth = true := by
  intro d hop
  subst hop
  cases call with
  | add info =>
      cases hop
      rfl
  | del | verUpdate | statusUpdate | clean => cases hop
  | authDone query buf len => exact absurd hop (hubSubdevAuthDone_ne_add query buf len d)

/-- The counter is the number of entries that are not authenticated. -/
structure Counted (p : Printer) (h : HubState) (entries : List SubdevEntry) : Prop where
  kept : Kept p h.kv entries
  count : h.gUnauthCount = (entries.countP SubdevEntry.unauth : Nat)

theorem Counted.exact {h : HubState} (hc : Counted p h entries) :
    CountExact h (entries.map SubdevEntry.info) := by
  have hcount : (entries.map SubdevEntry.info).countP SubdevInfo.unauth =
      entries.countP SubdevEntry.unauth := by
    rw [List.countP_map]
    rfl
  refine ⟨hc.kept.storedList, hcount ▸ hc.count, ?_⟩
  rw [authRetryTimerCb, decide_eq_true_iff, hc.count, ← hcount, Int.natCast_pos, List.countP_pos_iff]
  simp only [SubdevInfo.unauth, beq_iff_eq]

/-- The other direction: the list is exact only with that number. -/
theorem Kept.counted {h : HubState} (hk : Kept p h.kv entries) {l : List SubdevInfo}
    (he : CountExact h l) : Counted p h entries := by
  have hl : l = entries.map SubdevEntry.info := Option.some_inj.mp (he.stored.symm.trans hk.storedList)
  refine ⟨hk, ?_⟩
  rw [he.count, hl, List.countP_map]
  rfl

/-- Every call leaves a list, and the counter is that of the list exactly when the call
keeps it. -/
theorem Counted.step {h h' : HubState} (hc : Counted p h entries) {i : HubCall × Accesses}
    (hstep : h.step p i = some h') :
    ∃ entries', Kept p h'.kv entries' ∧
      (h'.gUnauthCount = (entries'.countP SubdevEntry.unauth : Nat) ↔ KeepsCount h i) := by
  unfold HubState.step at hstep
  split at hstep
  · cases hstep
  · next hnone =>
      cases hstep
      refine ⟨entries, hc.kept, iff_of_true hc.count fun op hop _ => ?_⟩
      cases hnone.symm.trans hop
  · next op hop =>
      have hkeeps : KeepsCount h i ↔
          (op.reached i.2 h.kv = true → op.keepsCount i.2 h.kv = true) :=
        ⟨fun hk => hk op hop, fun hk op' hop' => by cases hop.symm.trans hop'; exact hk⟩
      split at hstep
      · cases hstep
      · obtain ⟨rv, hrv, hrun⟩ := hc.kept.run i.2 op
        rw [hrun] at hstep
        cases hstep
        rw [hkeeps]
        by_cases hreached : op.reached i.2 h.kv = true
        · have hwrites : op.writes (Hub.storedItems h.kv) = true := (Bool.and_eq_true_iff.mp hreached).2
          have hgain := hc.kept.effect_unauth hwrites
          simp only [hreached, if_true, true_imp_iff]
          unfold writeList
          cases hset : i.2.rawSet with
          | true =>
              refine ⟨_, hc.kept.effect hwrites, ?_⟩
              simp only [if_true, hc.kept.count_succ hreached]
              rw [HubOp.keepsCount_rawSet hset (HubCall.add_unauth hop), hgain, hc.count]
              omega
          | false =>
              simp only [Bool.false_eq_true, if_false]
              rw [HubOp.count_of_error (by simp)]
              cases hlogged : i.2.rawSetLogged with
              | true =>
                  refine ⟨_, hc.kept.effect hwrites, ?_⟩
                  rw [HubOp.keepsCount_logged hset hlogged (HubCall.add_unauth hop), hgain, hc.count]
                  omega
              | false =>
                  exact ⟨entries, hc.kept, iff_of_true hc.count (HubOp.keepsCount_not_stored hset hlogged)⟩
        · rw [if_neg hreached]
          refine ⟨entries, hc.kept, iff_of_true ?_ fun h => absurd h hreached⟩
          simp only [HubOp.count_of_error hrv, hc.count]

theorem Kept.after (hk : Kept p kv entries) {op : HubOp} {r : HubErr × Store}
    (hrun : op.run p a kv = some r) :
    ∃ entries', Kept p r.2 entries' ∧ (entries' = entries ∨ entries' = op.effect entries) := by
  obtain ⟨rv, -, hrun'⟩ := hk.run a op
  cases hrun'.symm.trans hrun
  by_cases hreached : op.reached a kv = true
  · have heffect := hk.effect (Bool.and_eq_true_iff.mp hreached).2
    simp only [if_pos hreached, writeList]
    cases a.rawSet with
    | true => exact ⟨_, heffect, .inr rfl⟩
    | false =>
        cases a.rawSetLogged with
        | true => exact ⟨_, heffect, .inr rfl⟩
        | false => exact ⟨entries, hk, .inl rfl⟩
  · rw [if_neg hreached]
    exact ⟨entries, hk, .inl rfl⟩

theorem Kept.step {h h' : HubState} (hk : Kept p h.kv entries) {i : HubCall × Accesses}
    (hstep : h.step p i = some h') : ∃ entries', Kept p h'.kv entries' ∧
      (entries' = entries ∨ ∃ op, i.1.op = some (some op) ∧ entries' = op.effect entries) := by
  unfold HubState.step at hstep
  split at hstep
  · cases hstep
  · cases hstep
    exact ⟨entries, hk, .inl rfl⟩
  · next op hop =>
      split at hstep
      · cases hstep
      · obtain ⟨r, hrun, rfl⟩ := Option.map_eq_some_iff.mp hstep
        obtain ⟨entries', hkept, heffect⟩ := hk.after hrun
        exact ⟨entries', hkept, heffect.imp_right fun heq => ⟨op, hop, heq⟩⟩

/-- Every call returns that finds the mutex free and reads something from its reply. -/
theorem Kept.returns {h : HubState} (hk : Kept p h.kv entries) (hfree : h.locked = false)
    {i : HubCall × Accesses} (hop : i.1.op ≠ none) : ∃ h', h.step p i = some h' := by
  unfold HubState.step
  split
  · next hnone => exact absurd hnone hop
  · exact ⟨h, rfl⟩
  · obtain ⟨rv, -, hrun⟩ := hk.run i.2 _
    rw [hfree, hrun]
    exact ⟨_, rfl⟩

/-- A device is authenticated or not. -/
def SubdevEntry.AccessFlag (e : SubdevEntry) : Prop := e.access = 0 ∨ e.access = 1

theorem effect_accessFlag {op : HubOp} (h : ∀ e ∈ entries, e.AccessFlag)
    (hadd : ∀ d, op = .add d → d.unauth = true) : ∀ e ∈ op.effect entries, e.AccessFlag := by
  cases op with
  | add d =>
      intro e he
      rcases List.mem_append.mp he with hmem | hnew
      · exact h e hmem
      · rw [List.mem_singleton.mp hnew]
        exact .inl (beq_iff_eq.mp (hadd d rfl))
  | del | authFailure => exact fun e he => h e (List.mem_of_mem_eraseP he)
  | verUpdate | statusUpdate => exact Slots.forall_mem_modifyFirst h fun _ he => he
  | authPassed => exact Slots.forall_mem_modifyFirst h fun _ _ => .inr rfl
  | clean => exact fun e he => absurd he List.not_mem_nil

end Counted

/-! ## Runs -/

/-- A hub that starts with an empty list. -/
def HubState.initial : HubState := ⟨⟨fun _ => none, false⟩, 0⟩

theorem counted_initial (p : Printer) : Counted p .initial [] :=
  ⟨⟨.inr ⟨rfl, rfl⟩, .nil, Nat.zero_le _⟩, rfl⟩

/-- Whatever fails, the store keeps a list. -/
theorem exists_kept {p : Printer} {h : HubState}
    (hreach : Reach (HubState.step p) (fun _ _ => True) .initial h) :
    ∃ entries, Kept p h.kv entries ∧ ∀ e ∈ entries, e.AccessFlag := by
  refine hreach.invariant
    (I := fun h => ∃ entries, Kept p h.kv entries ∧ ∀ e ∈ entries, e.AccessFlag)
    ⟨[], (counted_initial p).kept, fun e he => absurd he List.not_mem_nil⟩ ?_
  rintro s i s' ⟨entries, hk, hflag⟩ - hstep
  obtain ⟨entries', hk', heffect⟩ := hk.step hstep
  refine ⟨entries', hk', ?_⟩
  rcases heffect with rfl | ⟨op, hop, rfl⟩
  · exact hflag
  · exact effect_accessFlag hflag (HubCall.add_unauth hop)

/-- As long as every call keeps the counter, it is the number of stored devices that are
not authenticated; and a call that does not keep it leaves another number. -/
theorem unauth_count_exact (p : Printer) {h : HubState}
    (hreach : Reach (HubState.step p) KeepsCount .initial h) :
    (∃ l, CountExact h l) ∧ ∀ i h', h.step p i = some h' →
      ((∃ l, CountExact h' l) ↔ KeepsCount h i) := by
  obtain ⟨entries, hc⟩ := hreach.invariant (I := fun h => ∃ entries, Counted p h entries)
    ⟨[], counted_initial p⟩ fun h i h' hc hkeeps hstep => by
      obtain ⟨entries, hc⟩ := hc
      obtain ⟨entries', hkept, hcount⟩ := hc.step hstep
      exact ⟨entries', hkept, hcount.mpr hkeeps⟩
  refine ⟨⟨_, hc.exact⟩, fun i h' hstep => ?_⟩
  obtain ⟨entries', hkept, hcount⟩ := hc.step hstep
  rw [← hcount]
  constructor
  · intro hexists
    rcases hexists with ⟨l, hexact⟩
    exact (hkept.counted hexact).count
  · exact fun heq => ⟨_, Counted.exact ⟨hkept, heq⟩⟩

def sampleInfo : EzSubdevInfo :=
  ⟨0, .strncpy (.lit "T"), .strncpy (.lit "S12345678"), .strncpy (.lit "V"), .strncpy (.lit "V1"),
    .strncpy (.lit "U"), 1⟩

/-- The first addition. -/
theorem unauth_count_exact_add : ∃ h,
    HubState.initial.step samplePrinter (.add sampleInfo, .fine) = some h ∧
      h.gUnauthCount = 1 ∧ ∃ l, CountExact h l := by
  obtain ⟨h, hstep, hcount⟩ : ∃ h, HubState.initial.step samplePrinter (.add sampleInfo, .fine) =
      some h ∧ h.gUnauthCount = 1 := ⟨_, rfl, rfl⟩
  have hreach : Reach (HubState.step samplePrinter) KeepsCount .initial h :=
    Reach.next .start (fun op hop _ => by cases hop; rfl) hstep
  exact ⟨h, hstep, hcount, (unauth_count_exact samplePrinter hreach).1⟩

def passedReply : Bytes := ascii "\x7b\"childserial\":\"S12345678\",\"result\":0\x7d"

/-- A device is added and passes its authentication; it is still counted. -/
theorem unauth_count_drifts : ∃ h,
    Reach (HubState.step samplePrinter) (fun _ _ => True) .initial h ∧ ¬ ∃ l, CountExact h l := by
  have hrun : ([(.add sampleInfo, .fine), (.authDone .fine (some passedReply) 42, .fine)].foldlM
      (HubState.step samplePrinter) .initial).map (fun h => (storedList h.kv, h.gUnauthCount)) =
        some (some [{ sampleInfo.internal with access := 1 }], 1) := by decide +kernel
  obtain ⟨h, hfold, hend⟩ := Option.map_eq_some_iff.mp hrun
  obtain ⟨hlist, hcount⟩ := Prod.mk.inj hend
  refine ⟨h, Reach.of_foldlM hfold, ?_⟩
  intro hexists
  rcases hexists with ⟨l, hexact⟩
  have hl : l = [{ sampleInfo.internal with access := 1 }] :=
    Option.some_inj.mp (hexact.stored.symm.trans hlist)
  have hzero := hexact.count
  rw [hl, hcount] at hzero
  revert hzero
  decide

end EzIot.Hub
