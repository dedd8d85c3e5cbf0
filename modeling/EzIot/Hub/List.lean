import Mathlib.Data.List.Nodup
import EzIot.CJson.Edit
import EzIot.Kv.Store
import EzIot.Lib.Run

/-! # The list of sub-devices

A hub keeps its sub-devices in the store, as the text of an array. Every operation
reads the text, edits the array and writes it back.
-/

namespace EzIot.Hub

open CText CJson Kv Run

/-! ## Sub-devices -/

structure SubdevInfo where
  authm : Int8
  type : CField 33
  sn : CField 17
  vcode : CField 33
  ver : CField 33
  uuid : CField 17
  sta : Int8
  access : Int8
deriving DecidableEq

inductive HubErr
  | succ
  | storage
  | memory
  | subdevNotFound
  | subdevExisted
  | outOfRange
deriving DecidableEq

/-- The results of the accesses to the store. A write that fails is repeated: the log
of the check evaluates it once more. -/
structure Accesses where
  rawGetLength : Bool
  rawGet : Bool
  rawSet : Bool
  rawSetLogged : Bool
deriving DecidableEq

/-- `cJSON_PrintUnformatted`; integers have a text of their own. -/
structure Printer where
  printNumber : Rat → Bytes
  integral : ∀ i : Int, i.natAbs < 10 ^ 15 → printNumber i = decimalInt i

/-- `EZIOT_HUB_LIST_SIZE` and `COMPONENT_HUB_SUBLIST_MAX`. -/
def hubListSize : Nat := 8192
def componentHubSublistMax : Nat := 64

/-- `EZ_KV_DEFALUT_KEY_HUBLIST`. -/
def hublistKey : CString := .lit "hublist"

def subdevToJson (d : SubdevInfo) : Value :=
  .object [(ascii "sta", .number (.ofInt d.sta.toInt)), (ascii "authm", .number (.ofInt d.authm.toInt)),
    (ascii "type", .string d.type.val), (ascii "sn", .string d.sn.val),
    (ascii "vcode", .string d.vcode.val), (ascii "ver", .string d.ver.val),
    (ascii "uuid", .string d.uuid.val), (ascii "access", .number (.ofInt d.access.toInt))]

/-- `json_to_subdev`. There is no result where a text is copied from a null pointer. -/
def jsonToSubdev (v : Value) : Option SubdevInfo :=
  match v.stringElement "type", v.stringElement "sn", v.stringElement "vcode",
      v.stringElement "ver", v.stringElement "uuid" with
  | some type, some sn, some vcode, some ver, some uuid =>
      some {
        sta := .ofInt (v.intElement "sta")
        authm := .ofInt (v.intElement "authm")
        type := .strncpy type
        sn := .strncpy sn
        vcode := .strncpy vcode
        ver := .strncpy ver
        uuid := .strncpy uuid
        access := .ofInt (v.intElement "access") }
  | _, _, _, _, _ => none

def findDevBySn (sn : CString) (items : List Value) : Option (Option Nat) :=
  findByText "sn" sn items

/-! ## Operations -/

section Operations

variable (p : Printer)

def printList (items : List Value) : Bytes := printValue p.printNumber (.array items)

/-- How every operation begins: the parsed list, nothing where it is empty. -/
def readList (a : Accesses) (kv : Store) : Except HubErr (Option Value) :=
  if a.rawGetLength = false then .error .storage
  else
    let length := kv.rawLength hublistKey hubListSize
    if length = 0 then .ok none
    else if a.rawGet = false then .error .storage
    else
      match cJSONParse (kv.rawGet hublistKey length) with
      | none => .error .memory
      | some root => .ok (some root)

/-- `ezos_kv_raw_set` inside of its check. -/
def writeList (a : Accesses) (text : Bytes) (kv : Store) : HubErr × Store :=
  if a.rawSet then (.succ, kv.rawSet hublistKey text)
  else (.storage, if a.rawSetLogged then kv.rawSet hublistKey text else kv)

def addTo (a : Accesses) (d : SubdevInfo) (items : List Value) (kv : Store) : HubErr × Store :=
  if items.length ≥ componentHubSublistMax then (.outOfRange, kv)
  else writeList a (printList p (items ++ [subdevToJson d])) kv

/-- `hub_add_do`. There is no result where the list was written by somebody else: no
array, or an element without texts. -/
def hubAddDo (a : Accesses) (d : SubdevInfo) (kv : Store) : Option (HubErr × Store) :=
  match readList a kv with
  | .error rv => some (rv, kv)
  | .ok none => some (addTo p a d [] kv)
  | .ok (some (.array items)) =>
      match findDevBySn d.sn.toCString items with
      | none => none
      | some (some _) => some (.subdevExisted, kv)
      | some none => some (addTo p a d items kv)
  | .ok (some _) => none

def editSubdev (a : Accesses) (sn : CString) (edit : List Value → Nat → Option (List Value))
    (kv : Store) : Option (HubErr × Store) :=
  match readList a kv with
  | .error rv => some (rv, kv)
  | .ok none => some (.subdevNotFound, kv)
  | .ok (some (.array items)) =>
      match findDevBySn sn items with
      | none => none
      | some none => some (.subdevNotFound, kv)
      | some (some index) =>
          (edit items index).map fun items => writeList a (printList p items) kv
  | .ok (some _) => none

def replaceAt (name : String) (x : Value) (items : List Value) (index : Nat) :
    Option (List Value) :=
  items[index]?.map fun item => items.set index (item.replaceItemInObject name x)

/-- An edit of an element that is decoded before. -/
def decoded (edit : List Value → Nat → Option (List Value)) (items : List Value) (index : Nat) :
    Option (List Value) :=
  (items[index]?.bind jsonToSubdev).bind fun _ => edit items index

def hubDelDo (a : Accesses) (sn : CString) : Store → Option (HubErr × Store) :=
  editSubdev p a sn (decoded fun items index => some (items.eraseIdx index))

def hubVerUpdateDo (a : Accesses) (sn ver : CString) : Store → Option (HubErr × Store) :=
  editSubdev p a sn (decoded (replaceAt "ver" (.string ver.val)))

def hubStatusUpdateDo (a : Accesses) (sn : CString) (online : Bool) :
    Store → Option (HubErr × Store) :=
  editSubdev p a sn (replaceAt "sta" (.bool online))

def hubSubdevAuthPassed (a : Accesses) (sn : CString) : Store → Option (HubErr × Store) :=
  editSubdev p a sn (decoded (replaceAt "access" (.number (.ofInt 1))))

def hubCleanDo (a : Accesses) (kv : Store) : Option (HubErr × Store) := some (writeList a [] kv)

def hubSubdevQuery (a : Accesses) (sn : CString) (kv : Store) : Option (Except HubErr SubdevInfo) :=
  match readList a kv with
  | .error rv => some (.error rv)
  | .ok none => some (.error .subdevNotFound)
  | .ok (some root) =>
      match findDevBySn sn root.children with
      | none => none
      | some none => some (.error .subdevNotFound)
      | some (some index) => (root.children[index]?.bind jsonToSubdev).map .ok

/-- `hub_subdev_auth_failure`; what the query returns is only reported. -/
def hubSubdevAuthFailure (query a : Accesses) (sn : CString) (kv : Store) :
    Option (HubErr × Store) :=
  (hubSubdevQuery query sn kv).bind fun _ => hubDelDo p a sn kv

end Operations

/-! ## Sequences of operations -/

inductive HubOp
  | add (d : SubdevInfo)
  | del (sn : CString)
  | verUpdate (sn ver : CString)
  | statusUpdate (sn : CString) (online : Bool)
  | clean
  | authPassed (sn : CString)
  | authFailure (query : Accesses) (sn : CString)
deriving DecidableEq

/-- The store and whether the mutex was left locked. -/
structure Sublist where
  kv : Store
  locked : Bool

section Runs

variable (p : Printer)

def HubOp.run (a : Accesses) (kv : Store) : HubOp → Option (HubErr × Store)
  | .add d => hubAddDo p a d kv
  | .del sn => hubDelDo p a sn kv
  | .verUpdate sn ver => hubVerUpdateDo p a sn ver kv
  | .statusUpdate sn online => hubStatusUpdateDo p a sn online kv
  | .clean => hubCleanDo a kv
  | .authPassed sn => hubSubdevAuthPassed p a sn kv
  | .authFailure query sn => hubSubdevAuthFailure p query a sn kv

/-- An operation that returns. A list that cannot be cleaned leaves the mutex locked,
and whoever takes it then waits for ever. -/
def Sublist.step (s : Sublist) (i : HubOp × Accesses) : Option Sublist :=
  if s.locked then none
  else (i.1.run p i.2 s.kv).map fun r => ⟨r.2, decide (i.1 = .clean ∧ r.1 ≠ .succ)⟩

def storedItems (kv : Store) : List Value :=
  match cJSONParse (kv.value hublistKey) with
  | some (.array items) => items
  | _ => []

def storedList (kv : Store) : Option (List SubdevInfo) := (storedItems kv).mapM jsonToSubdev

/-! ## What is meant -/

def SubdevInfo.isOf (sn : CString) (d : SubdevInfo) : Bool := decide (d.sn.toCString = sn)

/-- What a successful operation makes of the list. -/
def HubOp.meant (l : List SubdevInfo) : HubOp → List SubdevInfo
  | .add d => l ++ [d]
  | .del sn => l.filter fun d => !d.isOf sn
  | .verUpdate sn ver => l.map fun d => if d.isOf sn then { d with ver := .strncpy ver } else d
  | .statusUpdate sn online =>
      l.map fun d => if d.isOf sn then { d with sta := if online then 1 else 0 } else d
  | .clean => []
  | .authPassed sn => l.map fun d => if d.isOf sn then { d with access := 1 } else d
  | .authFailure _ sn => l.filter fun d => !d.isOf sn

/-- The element that an operation needs. -/
def HubOp.named : HubOp → Option CString
  | .add _ => none
  | .clean => none
  | .del sn => some sn
  | .verUpdate sn _ => some sn
  | .statusUpdate sn _ => some sn
  | .authPassed sn => some sn
  | .authFailure _ sn => some sn

/-- The accesses where none fails. -/
def Accesses.fine : Accesses := ⟨true, true, true, true⟩

/-- The stored list is one, without repeated serials and within its limit. -/
def ListSound (kv : Store) : Prop :=
  ∃ l, storedList kv = some l ∧ (l.map SubdevInfo.sn).Nodup ∧ l.length ≤ componentHubSublistMax

/-- What an operation returned and left behind is what it is meant for. -/
structure OpSound (kv : Store) (op : HubOp) (r : HubErr × Store) : Prop where
  failed : r.1 ≠ .succ → r.2.value hublistKey = kv.value hublistKey
  done : r.1 = .succ → ∃ l, storedList kv = some l ∧ storedList r.2 = some (op.meant l) ∧
    ∀ sn, op.named = some sn → ∃ d ∈ l, d.isOf sn = true
  added : r.1 = .succ → ∀ d, op = .add d →
    hubSubdevQuery .fine d.sn.toCString r.2 = some (.ok d)

/-! ## When the writes are fine -/

def holdsSn (sn : CString) (item : Value) : Bool := decide (item.stringElement "sn" = some sn)

/-- Whether an operation that can read the list gets to write it. -/
def HubOp.writes (items : List Value) : HubOp → Bool
  | .add d => !items.any (holdsSn d.sn.toCString) && decide (items.length < componentHubSublistMax)
  | .clean => true
  | .del sn => items.any (holdsSn sn)
  | .verUpdate sn _ => items.any (holdsSn sn)
  | .statusUpdate sn _ => items.any (holdsSn sn)
  | .authPassed sn => items.any (holdsSn sn)
  | .authFailure _ sn => items.any (holdsSn sn)

def HubOp.text (items : List Value) : HubOp → Bytes
  | .add d => printList p (items ++ [subdevToJson d])
  | .del sn => printList p (items.eraseP (holdsSn sn))
  | .verUpdate sn ver => printList p (Slots.modifyFirst (holdsSn sn)
      (fun item => item.replaceItemInObject "ver" (.string ver.val)) items)
  | .statusUpdate sn online => printList p (Slots.modifyFirst (holdsSn sn)
      (fun item => item.replaceItemInObject "sta" (.bool online)) items)
  | .clean => []
  | .authPassed sn => printList p (Slots.modifyFirst (holdsSn sn)
      (fun item => item.replaceItemInObject "access" (.number (.ofInt 1))) items)
  | .authFailure _ sn => printList p (items.eraseP (holdsSn sn))

/-- An access fails that the list is read with. -/
def unreadable (a : Accesses) (kv : Store) : Bool :=
  !a.rawGetLength || (decide (kv.value hublistKey ≠ []) && !a.rawGet)

def HubOp.unread (a : Accesses) (kv : Store) (op : HubOp) : Bool :=
  decide (op ≠ .clean) && unreadable a kv

/-- A list that is written can be read again as a whole, and a write that failed does
not succeed in the log. -/
def WritesFine (s : Sublist) (i : HubOp × Accesses) : Prop :=
  i.1.unread i.2 s.kv = false → i.1.writes (storedItems s.kv) = true →
    if i.2.rawSet then (i.1.text p (storedItems s.kv)).length ≤ hubListSize
    else i.2.rawSetLogged = true →
      i.1.text p (storedItems s.kv) = s.kv.value hublistKey

end Runs

/-! ## The list as a list of entries -/

inductive Sta
  | code (n : Int8)
  | online (b : Bool)

structure SubdevEntry where
  sta : Sta
  authm : Int8
  type : CField 33
  sn : CField 17
  vcode : CField 33
  ver : CString
  uuid : CField 17
  access : Int8

def Sta.toJson : Sta → Value
  | .code n => .number (.ofInt n.toInt)
  | .online b => .bool b

def Sta.sta : Sta → Int8
  | .code n => n
  | .online b => if b then 1 else 0

namespace SubdevEntry

def toJson (e : SubdevEntry) : Value :=
  .object [(ascii "sta", e.sta.toJson), (ascii "authm", .number (.ofInt e.authm.toInt)),
    (ascii "type", .string e.type.val), (ascii "sn", .string e.sn.val),
    (ascii "vcode", .string e.vcode.val), (ascii "ver", .string e.ver.val),
    (ascii "uuid", .string e.uuid.val), (ascii "access", .number (.ofInt e.access.toInt))]

def ofInfo (d : SubdevInfo) : SubdevEntry :=
  ⟨.code d.sta, d.authm, d.type, d.sn, d.vcode, d.ver.toCString, d.uuid, d.access⟩

def info (e : SubdevEntry) : SubdevInfo :=
  ⟨e.authm, e.type, e.sn, e.vcode, .strncpy e.ver, e.uuid, e.sta.sta, e.access⟩

def isOf (sn : CString) (e : SubdevEntry) : Bool := decide (e.sn.toCString = sn)

theorem info_ofInfo (d : SubdevInfo) : (ofInfo d).info = d := by
  unfold ofInfo info
  rw [CField.strncpy_toCString]
  rfl

theorem holdsSn_toJson (sn : CString) (e : SubdevEntry) : holdsSn sn e.toJson = e.isOf sn := by
  have hsn : e.toJson.stringElement "sn" = some e.sn.toCString := valuestring_string e.sn.toCString
  exact decide_eq_decide.mpr (by rw [hsn, Option.some_inj])

theorem valueint_int8 (n : Int8) : Int8.ofInt (Dbl.ofInt n.toInt).valueint = n := by
  have hlow := n.le_toInt
  have hhigh := n.toInt_lt
  have hrange : max intMin (min intMax n.toInt) = n.toInt := by
    unfold intMin intMax
    omega
  rw [Dbl.valueint_ofInt, hrange, Int8.ofInt_toInt]

theorem jsonToSubdev_toJson (e : SubdevEntry) : jsonToSubdev e.toJson = some e.info := by
  have htype : e.toJson.stringElement "type" = some e.type.toCString := valuestring_string _
  have hsn : e.toJson.stringElement "sn" = some e.sn.toCString := valuestring_string _
  have hvcode : e.toJson.stringElement "vcode" = some e.vcode.toCString := valuestring_string _
  have hver : e.toJson.stringElement "ver" = some e.ver := valuestring_string _
  have huuid : e.toJson.stringElement "uuid" = some e.uuid.toCString := valuestring_string _
  have hauthm : Int8.ofInt (e.toJson.intElement "authm") = e.authm := valueint_int8 e.authm
  have haccess : Int8.ofInt (e.toJson.intElement "access") = e.access := valueint_int8 e.access
  have hsta : Int8.ofInt (e.toJson.intElement "sta") = e.sta.sta := by
    show Int8.ofInt e.sta.toJson.valueint = e.sta.sta
    cases e.sta with
    | code n => exact valueint_int8 n
    | online b => cases b <;> rfl
  unfold jsonToSubdev
  simp only [htype, hsn, hvcode, hver, huuid, hauthm, haccess, hsta, CField.strncpy_toCString]
  rfl

theorem prints_int8 (p : Printer) (n : Int8) : Prints p.printNumber (n.toInt : Rat) := by
  have hlow := n.le_toInt
  have hhigh := n.toInt_lt
  have hsmall : n.toInt.natAbs < 10 ^ 15 := by omega
  exact prints_decimalInt hsmall (p.integral n.toInt hsmall)

theorem isRecord_toJson (p : Printer) (e : SubdevEntry) : IsRecord p.printNumber e.toJson := by
  have hsta : e.sta.toJson.children = [] ∧ e.sta.toJson.isContainer = false ∧
      Printable p.printNumber e.sta.toJson := by
    cases e.sta with
    | code n => exact ⟨rfl, rfl, prints_int8 p n⟩
    | online b => exact ⟨rfl, rfl, trivial⟩
  refine ⟨_, rfl, ?_, ?_⟩
  · simp only [List.forall_mem_cons]
    exact ⟨by decide, by decide, by decide, by decide, by decide, by decide, by decide, by decide,
      fun _ h => absurd h List.not_mem_nil⟩
  · simp only [List.forall_mem_cons]
    exact ⟨hsta, ⟨rfl, rfl, prints_int8 p e.authm⟩, ⟨rfl, rfl, e.type.noNul⟩, ⟨rfl, rfl, e.sn.noNul⟩,
      ⟨rfl, rfl, e.vcode.noNul⟩, ⟨rfl, rfl, e.ver.noNul⟩, ⟨rfl, rfl, e.uuid.noNul⟩,
      ⟨rfl, rfl, prints_int8 p e.access⟩, fun _ h => absurd h List.not_mem_nil⟩

end SubdevEntry

structure Listed (p : Printer) (kv : Store) (entries : List SubdevEntry) : Prop where
  text : kv.value hublistKey = printList p (entries.map SubdevEntry.toJson) ∨
    entries = [] ∧ kv.value hublistKey = []
  fits : (kv.value hublistKey).length ≤ hubListSize
  nodup : (entries.map SubdevEntry.sn).Nodup
  bound : entries.length ≤ componentHubSublistMax

/-- The store keeps the text of these entries, also where it is too long to be read. -/
structure Kept (p : Printer) (kv : Store) (entries : List SubdevEntry) : Prop where
  text : kv.value hublistKey = printList p (entries.map SubdevEntry.toJson) ∨
    entries = [] ∧ kv.value hublistKey = []
  nodup : (entries.map SubdevEntry.sn).Nodup
  bound : entries.length ≤ componentHubSublistMax

section Listed

variable {p : Printer} {a : Accesses} {kv : Store} {entries : List SubdevEntry} {sn : CString}

theorem Listed.kept (h : Listed p kv entries) : Kept p kv entries := ⟨h.text, h.nodup, h.bound⟩

theorem Kept.listed (h : Kept p kv entries) (hfits : (kv.value hublistKey).length ≤ hubListSize) :
    Listed p kv entries :=
  ⟨h.text, hfits, h.nodup, h.bound⟩

theorem isRecord_entries (entries : List SubdevEntry) :
    ∀ v ∈ entries.map SubdevEntry.toJson, IsRecord p.printNumber v := by
  intro v hv
  obtain ⟨e, -, rfl⟩ := List.mem_map.mp hv
  exact e.isRecord_toJson p

theorem cJSONParse_entries (entries : List SubdevEntry) :
    cJSONParse (printList p (entries.map SubdevEntry.toJson)) =
      some (.array (entries.map SubdevEntry.toJson)) :=
  cJSONParse_printRecords (isRecord_entries entries)

theorem Kept.parse (h : Kept p kv entries) (hne : kv.value hublistKey ≠ []) :
    cJSONParse (kv.value hublistKey) = some (.array (entries.map SubdevEntry.toJson)) := by
  rcases h.text with htext | ⟨-, hnil⟩
  · rw [htext]
    exact cJSONParse_entries entries
  · exact absurd hnil hne

theorem Kept.eq_nil (h : Kept p kv entries) (hnil : kv.value hublistKey = []) :
    entries = [] := by
  rcases h.text with htext | ⟨hentries, -⟩
  · exact absurd (htext.symm.trans hnil) (printArray_ne_nil _)
  · exact hentries

theorem Kept.storedItems (h : Kept p kv entries) :
    storedItems kv = entries.map SubdevEntry.toJson := by
  unfold Hub.storedItems
  by_cases hnil : kv.value hublistKey = []
  · rw [h.eq_nil hnil, hnil]
    rfl
  · rw [h.parse hnil]

theorem mapM_entries (entries : List SubdevEntry) :
    (entries.map SubdevEntry.toJson).mapM jsonToSubdev = some (entries.map SubdevEntry.info) := by
  induction entries with
  | nil => rfl
  | cons e entries ih =>
      rw [List.map_cons, List.mapM_cons, SubdevEntry.jsonToSubdev_toJson, ih]
      rfl

theorem Kept.storedList (h : Kept p kv entries) :
    storedList kv = some (entries.map SubdevEntry.info) := by
  unfold Hub.storedList
  rw [h.storedItems, mapM_entries]

theorem findDevBySn_entries (sn : CString) (entries : List SubdevEntry) :
    findDevBySn sn (entries.map SubdevEntry.toJson) =
      some (entries.findIdx? (SubdevEntry.isOf sn)) :=
  findByText_map SubdevEntry.toJson (fun e => e.sn.toCString) (fun _ => rfl) sn entries

theorem any_holdsSn (sn : CString) (entries : List SubdevEntry) :
    (entries.map SubdevEntry.toJson).any (holdsSn sn) =
      (entries.findIdx? (SubdevEntry.isOf sn)).isSome := by
  rw [List.any_map, List.findIdx?_isSome]
  exact congrArg (List.any entries) (funext fun e => e.holdsSn_toJson sn)

theorem readList_unreadable (h : unreadable a kv = true) : readList a kv = .error .storage := by
  unfold unreadable at h
  unfold readList
  cases hlen : a.rawGetLength with
  | false => rfl
  | true =>
      rw [hlen] at h
      simp only [Bool.not_true, Bool.false_or, Bool.and_eq_true, decide_eq_true_eq,
        Bool.not_eq_true'] at h
      simp [Store.rawLength_ne_zero h.1, h.2]

theorem Listed.readList (h : Listed p kv entries) (hread : unreadable a kv = false) :
    readList a kv = .ok (if kv.value hublistKey = [] then none
      else some (.array (entries.map SubdevEntry.toJson))) := by
  unfold unreadable at hread
  rw [Bool.or_eq_false_iff, Bool.not_eq_false', Bool.and_eq_false_iff, Bool.not_eq_false'] at hread
  unfold Hub.readList
  by_cases hnil : kv.value hublistKey = []
  · simp [hread.1, Store.rawLength_eq_zero hnil, hnil]
  · have hget : a.rawGet = true := hread.2.resolve_left (by simpa using hnil)
    simp only [hread.1, hget, Store.rawLength_ne_zero hnil, Store.rawGet_rawLength h.fits,
      h.kept.parse hnil, hnil, if_false]
    rfl

/-! ## The operations on the entries -/

theorem Listed.editSubdev (h : Listed p kv entries)
    {edit : List Value → Nat → Option (List Value)} {t : List SubdevEntry}
    (hedit : ∀ i, entries.findIdx? (SubdevEntry.isOf sn) = some i →
      edit (entries.map SubdevEntry.toJson) i = some (t.map SubdevEntry.toJson)) :
    ∃ rv, rv ≠ .succ ∧ editSubdev p a sn edit kv = some (
      if unreadable a kv = false ∧ (Hub.storedItems kv).any (holdsSn sn) = true then
        writeList a (printList p (t.map SubdevEntry.toJson)) kv
      else (rv, kv)) := by
  rw [h.kept.storedItems, any_holdsSn]
  unfold Hub.editSubdev
  cases hread : unreadable a kv with
  | true =>
      rw [readList_unreadable hread]
      exact ⟨.storage, by decide, by simp⟩
  | false =>
      refine ⟨.subdevNotFound, by decide, ?_⟩
      rw [h.readList hread]
      by_cases hnil : kv.value hublistKey = []
      · simp [hnil, h.kept.eq_nil hnil]
      · simp only [hnil, if_false, findDevBySn_entries]
        cases hfind : entries.findIdx? (SubdevEntry.isOf sn) with
        | none => simp
        | some i => simp [hedit i hfind]

theorem replaceAt_entries {name : String} {x : Value} {f : SubdevEntry → SubdevEntry}
    (hf : ∀ e : SubdevEntry, e.toJson.replaceItemInObject name x = (f e).toJson) {i : Nat}
    (hfind : entries.findIdx? (SubdevEntry.isOf sn) = some i) :
    replaceAt name x (entries.map SubdevEntry.toJson) i =
      some ((Slots.modifyFirst (SubdevEntry.isOf sn) f entries).map SubdevEntry.toJson) := by
  rcases findIdx?_eq_some_split hfind with ⟨pre, e, post, rfl, rfl, he, hpre⟩
  have hitem : ((pre ++ e :: post).map SubdevEntry.toJson)[pre.length]? = some e.toJson := by simp
  unfold replaceAt
  rw [hitem, Option.map_some, hf, Slots.modifyFirst_append hpre he, List.map_append, List.map_cons,
    List.set_append_right _ _ (by simp), List.map_append, List.map_cons]
  simp

theorem eraseIdx_entries {i : Nat} (hfind : entries.findIdx? (SubdevEntry.isOf sn) = some i) :
    (entries.map SubdevEntry.toJson).eraseIdx i =
      (entries.eraseP (SubdevEntry.isOf sn)).map SubdevEntry.toJson := by
  rcases findIdx?_eq_some_split hfind with ⟨pre, e, post, rfl, rfl, he, hpre⟩
  rw [List.eraseP_append_right _ fun x hx => by simp [hpre x hx], List.eraseP_cons_of_pos he,
    List.map_append, List.eraseIdx_append_of_length_le (by simp)]
  simp

theorem decoded_entries {edit : List Value → Nat → Option (List Value)} {i : Nat}
    (hfind : entries.findIdx? (SubdevEntry.isOf sn) = some i) :
    decoded edit (entries.map SubdevEntry.toJson) i = edit (entries.map SubdevEntry.toJson) i := by
  rcases findIdx?_eq_some_split hfind with ⟨pre, e, post, rfl, rfl, -, -⟩
  have hitem : ((pre ++ e :: post).map SubdevEntry.toJson)[pre.length]? = some e.toJson := by simp
  unfold decoded
  rw [hitem, Option.bind_some, SubdevEntry.jsonToSubdev_toJson, Option.bind_some]

theorem Listed.query (h : Listed p kv entries) (hread : unreadable a kv = false) :
    hubSubdevQuery a sn kv = some (
      match entries.find? (SubdevEntry.isOf sn) with
      | some e => .ok e.info
      | none => .error .subdevNotFound) := by
  unfold hubSubdevQuery
  rw [h.readList hread]
  by_cases hnil : kv.value hublistKey = []
  · rw [if_pos hnil, h.kept.eq_nil hnil]
    rfl
  · simp only [hnil, if_false, children_array, findDevBySn_entries]
    rw [List.find?_eq_bind_findIdx?_getElem?]
    cases hfind : entries.findIdx? (SubdevEntry.isOf sn) with
    | none => rfl
    | some i =>
        have hlt := (List.findIdx?_eq_some_iff_getElem.mp hfind).1
        have hfirst : entries[i]? = some entries[i] := List.getElem?_eq_getElem hlt
        have hitem : (entries.map SubdevEntry.toJson)[i]? = some entries[i].toJson := by
          rw [List.getElem?_map, hfirst]
          rfl
        simp only [hitem, Option.bind_some, SubdevEntry.jsonToSubdev_toJson, hfirst]
        rfl

/-- A query that is not answered reports why. -/
theorem Listed.query_isSome (h : Listed p kv entries) (a : Accesses) (sn : CString) :
    ∃ r, hubSubdevQuery a sn kv = some r := by
  cases hread : unreadable a kv with
  | true =>
      unfold hubSubdevQuery
      rw [readList_unreadable hread]
      exact ⟨_, rfl⟩
  | false => exact ⟨_, h.query hread⟩

/-- What an operation makes of the entries. -/
def HubOp.effect (l : List SubdevEntry) : HubOp → List SubdevEntry
  | .add d => l ++ [.ofInfo d]
  | .del sn => l.eraseP (SubdevEntry.isOf sn)
  | .verUpdate sn ver => Slots.modifyFirst (SubdevEntry.isOf sn) (fun e => { e with ver := ver }) l
  | .statusUpdate sn online =>
      Slots.modifyFirst (SubdevEntry.isOf sn) (fun e => { e with sta := .online online }) l
  | .clean => []
  | .authPassed sn => Slots.modifyFirst (SubdevEntry.isOf sn) (fun e => { e with access := 1 }) l
  | .authFailure _ sn => l.eraseP (SubdevEntry.isOf sn)

theorem modifyFirst_entries {name : String} {x : Value} (f : SubdevEntry → SubdevEntry)
    (hf : ∀ e : SubdevEntry, e.toJson.replaceItemInObject name x = (f e).toJson)
    (sn : CString) (entries : List SubdevEntry) :
    Slots.modifyFirst (holdsSn sn) (fun item => item.replaceItemInObject name x)
      (entries.map SubdevEntry.toJson) =
        (Slots.modifyFirst (SubdevEntry.isOf sn) f entries).map SubdevEntry.toJson :=
  Slots.modifyFirst_map (fun e => e.holdsSn_toJson sn) hf entries

theorem eraseP_entries (sn : CString) (entries : List SubdevEntry) :
    (entries.map SubdevEntry.toJson).eraseP (holdsSn sn) =
      (entries.eraseP (SubdevEntry.isOf sn)).map SubdevEntry.toJson := by
  rw [List.eraseP_map]
  exact congrArg _ (congrArg (List.eraseP · entries) (funext fun e => e.holdsSn_toJson sn))

theorem HubOp.text_entries (op : HubOp) (entries : List SubdevEntry) :
    op.text p (entries.map SubdevEntry.toJson) =
      if op = .clean then [] else printList p ((op.effect entries).map SubdevEntry.toJson) := by
  cases op with
  | add d =>
      rw [if_neg (by simp), HubOp.effect, List.map_append]
      rfl
  | del sn => rw [if_neg (by simp), HubOp.text, eraseP_entries, HubOp.effect]
  | authFailure query sn => rw [if_neg (by simp), HubOp.text, eraseP_entries, HubOp.effect]
  | verUpdate sn ver =>
      rw [if_neg (by simp), HubOp.effect, HubOp.text,
        modifyFirst_entries (fun e => { e with ver := ver }) fun _ => rfl]
  | statusUpdate sn online =>
      rw [if_neg (by simp), HubOp.effect, HubOp.text,
        modifyFirst_entries (fun e => { e with sta := .online online }) fun _ => rfl]
  | authPassed sn =>
      rw [if_neg (by simp), HubOp.effect, HubOp.text,
        modifyFirst_entries (fun e => { e with access := 1 }) fun _ => rfl]
  | clean => rfl

theorem Listed.add (h : Listed p kv entries) (a : Accesses) (d : SubdevInfo) :
    ∃ rv, rv ≠ .succ ∧ (HubOp.add d).run p a kv = some (
      if (HubOp.add d).unread a kv = false ∧
          (HubOp.add d).writes (Hub.storedItems kv) = true then
        writeList a ((HubOp.add d).text p (Hub.storedItems kv)) kv
      else (rv, kv)) := by
  have hunread : (HubOp.add d).unread a kv = unreadable a kv := by simp [HubOp.unread]
  simp only [hunread, HubOp.writes, HubOp.text, h.kept.storedItems, any_holdsSn, HubOp.run, hubAddDo]
  cases hread : unreadable a kv with
  | true =>
      rw [readList_unreadable hread]
      exact ⟨.storage, by decide, by simp⟩
  | false =>
      rw [h.readList hread]
      have hlength : (entries.map SubdevEntry.toJson).length = entries.length := List.length_map _
      by_cases hnil : kv.value hublistKey = []
      · obtain rfl := h.kept.eq_nil hnil
        exact ⟨.outOfRange, by decide, by simp [hnil, addTo, componentHubSublistMax]⟩
      · simp only [hnil, if_false, findDevBySn_entries]
        cases hfind : entries.findIdx? (SubdevEntry.isOf d.sn.toCString) with
        | none =>
            refine ⟨.outOfRange, by decide, ?_⟩
            by_cases hfull : entries.length ≥ componentHubSublistMax
            · simp [addTo, hlength, hfull, Nat.not_lt_of_le hfull]
            · simp [addTo, hlength, hfull, Nat.lt_of_not_le hfull]
        | some i => exact ⟨.subdevExisted, by decide, by simp⟩

theorem Listed.editOp (h : Listed p kv entries) (a : Accesses) {op : HubOp}
    {edit : List Value → Nat → Option (List Value)} (hop : op ≠ .clean)
    (hwrites : op.writes (Hub.storedItems kv) = (Hub.storedItems kv).any (holdsSn sn))
    (hedit : ∀ i, entries.findIdx? (SubdevEntry.isOf sn) = some i →
      edit (entries.map SubdevEntry.toJson) i = some ((op.effect entries).map SubdevEntry.toJson)) :
    ∃ rv, rv ≠ .succ ∧ Hub.editSubdev p a sn edit kv = some (
      if op.unread a kv = false ∧ op.writes (Hub.storedItems kv) = true then
        writeList a (op.text p (Hub.storedItems kv)) kv
      else (rv, kv)) := by
  have htext := op.text_entries (p := p) entries
  rw [if_neg hop] at htext
  rw [hwrites, HubOp.unread, decide_eq_true hop, Bool.true_and, h.kept.storedItems, htext,
    ← h.kept.storedItems]
  exact h.editSubdev hedit

theorem HubOp.run_listed (h : Listed p kv entries) (a : Accesses) (op : HubOp) :
    ∃ rv, rv ≠ .succ ∧ op.run p a kv = some (
      if op.unread a kv = false ∧ op.writes (Hub.storedItems kv) = true then
        writeList a (op.text p (Hub.storedItems kv)) kv
      else (rv, kv)) := by
  cases op with
  | add d => exact h.add a d
  | del sn =>
      refine h.editOp a (by simp) rfl fun i hi => ?_
      rw [decoded_entries hi, eraseIdx_entries hi]
      rfl
  | verUpdate sn ver =>
      refine h.editOp a (by simp) rfl fun i hi => ?_
      rw [decoded_entries hi]
      exact replaceAt_entries (fun _ => rfl) hi
  | statusUpdate sn online =>
      exact h.editOp a (by simp) rfl fun i hi => replaceAt_entries (fun _ => rfl) hi
  | authPassed sn =>
      refine h.editOp a (by simp) rfl fun i hi => ?_
      rw [decoded_entries hi]
      exact replaceAt_entries (fun _ => rfl) hi
  | authFailure query sn =>
      obtain ⟨r, hquery⟩ := h.query_isSome query sn
      have hrun : (HubOp.authFailure query sn).run p a kv = hubDelDo p a sn kv := by
        simp only [HubOp.run, hubSubdevAuthFailure, hquery, Option.bind_some]
      rw [hrun]
      refine h.editOp a (by simp) rfl fun i hi => ?_
      rw [decoded_entries hi, eraseIdx_entries hi]
      rfl
  | clean => exact ⟨.storage, by decide, by simp [HubOp.run, hubCleanDo, HubOp.unread, HubOp.writes,
      HubOp.text]⟩

theorem isOf_iff {e : SubdevEntry} : e.isOf sn = true ↔ e.sn.toCString = sn := decide_eq_true_iff

theorem Kept.pairwise (h : Kept p kv entries) (sn : CString) :
    entries.Pairwise fun x y => x.isOf sn = true → y.isOf sn = false := by
  refine (List.pairwise_map.mp h.nodup).imp fun hne hx => Bool.eq_false_iff.mpr fun hy => ?_
  exact hne (CField.ext ((isOf_iff.mp hx).trans (isOf_iff.mp hy).symm))

/-- No effect changes serials, but those of an addition or a deletion. -/
theorem map_sn_modifyFirst {f : SubdevEntry → SubdevEntry} (hf : ∀ e, (f e).sn = e.sn) :
    (Slots.modifyFirst (SubdevEntry.isOf sn) f entries).map SubdevEntry.sn =
      entries.map SubdevEntry.sn :=
  Slots.map_modifyFirst hf

/-- Who writes the list keeps it a list. -/
theorem Kept.effect (h : Kept p kv entries) {op : HubOp}
    (hwrites : op.writes (Hub.storedItems kv) = true) :
    Kept p (kv.rawSet hublistKey (op.text p (Hub.storedItems kv))) (op.effect entries) := by
  have hvalue : Store.value (kv.rawSet hublistKey (op.text p (Hub.storedItems kv))) hublistKey =
      op.text p (Hub.storedItems kv) := Store.value_of_eq_some Store.rawSet_self
  have hkept : ∀ {sn : CString} {f : SubdevEntry → SubdevEntry}, (∀ e, (f e).sn = e.sn) →
      ((Slots.modifyFirst (SubdevEntry.isOf sn) f entries).map SubdevEntry.sn).Nodup ∧
        (Slots.modifyFirst (SubdevEntry.isOf sn) f entries).length ≤ componentHubSublistMax := by
    intro sn f hf
    have hmap : (Slots.modifyFirst (SubdevEntry.isOf sn) f entries).map SubdevEntry.sn =
        entries.map SubdevEntry.sn := map_sn_modifyFirst hf
    have hlength := congrArg List.length hmap
    rw [List.length_map, List.length_map] at hlength
    exact ⟨hmap ▸ h.nodup, hlength ▸ h.bound⟩
  have herased : ∀ {sn : CString}, ((entries.eraseP (SubdevEntry.isOf sn)).map SubdevEntry.sn).Nodup ∧
      (entries.eraseP (SubdevEntry.isOf sn)).length ≤ componentHubSublistMax := fun {sn} =>
    ⟨h.nodup.sublist (List.eraseP_sublist.map SubdevEntry.sn),
      Nat.le_trans (List.length_eraseP_le) h.bound⟩
  have hnodup : ((op.effect entries).map SubdevEntry.sn).Nodup ∧
      (op.effect entries).length ≤ componentHubSublistMax := by
    cases op with
    | add d =>
        rw [HubOp.writes, h.storedItems, any_holdsSn, Bool.and_eq_true, Bool.not_eq_true',
          Option.isSome_eq_false_iff, Option.isNone_iff_eq_none, List.findIdx?_eq_none_iff,
          decide_eq_true_eq, List.length_map] at hwrites
        rw [HubOp.effect, List.map_append, List.map_singleton, List.nodup_append, List.length_append]
        refine ⟨⟨h.nodup, List.nodup_singleton _, fun x hx y hy heq => ?_⟩, hwrites.2⟩
        obtain ⟨e, he, rfl⟩ := List.mem_map.mp hx
        rw [List.mem_singleton.mp hy] at heq
        exact Bool.noConfusion ((hwrites.1 e he).symm.trans
          (isOf_iff.mpr (congrArg CField.toCString heq)))
    | del sn => exact herased
    | authFailure query sn => exact herased
    | verUpdate sn ver => exact hkept fun _ => rfl
    | statusUpdate sn online => exact hkept fun _ => rfl
    | authPassed sn => exact hkept fun _ => rfl
    | clean => exact ⟨.nil, Nat.zero_le _⟩
  refine ⟨?_, hnodup.1, hnodup.2⟩
  rw [hvalue, h.storedItems, op.text_entries]
  by_cases hclean : op = .clean
  · subst hclean
    exact .inr ⟨rfl, rfl⟩
  · rw [if_neg hclean]
    exact .inl rfl

theorem Listed.effect (h : Listed p kv entries) {op : HubOp}
    (hwrites : op.writes (Hub.storedItems kv) = true)
    (hfits : (op.text p (Hub.storedItems kv)).length ≤ hubListSize) :
    Listed p (kv.rawSet hublistKey (op.text p (Hub.storedItems kv))) (op.effect entries) :=
  (h.kept.effect hwrites).listed
    (le_of_eq_of_le (congrArg List.length (Store.value_of_eq_some Store.rawSet_self)) hfits)

theorem map_info_modifyFirst (h : Kept p kv entries) {f : SubdevEntry → SubdevEntry}
    {g : SubdevInfo → SubdevInfo} (hf : ∀ e, (f e).info = g e.info) :
    (Slots.modifyFirst (SubdevEntry.isOf sn) f entries).map SubdevEntry.info =
      (entries.map SubdevEntry.info).map fun d => if d.isOf sn then g d else d := by
  rw [Slots.modifyFirst_eq_map (h.pairwise sn), List.map_map, List.map_map]
  refine List.map_congr_left fun e _ => ?_
  show (if e.isOf sn then f e else e).info = if e.isOf sn then g e.info else e.info
  split
  · exact hf e
  · rfl

theorem map_info_eraseP (h : Kept p kv entries) (sn : CString) :
    (entries.eraseP (SubdevEntry.isOf sn)).map SubdevEntry.info =
      (entries.map SubdevEntry.info).filter fun d => !d.isOf sn := by
  rw [Slots.eraseP_eq_filter (h.pairwise sn), List.filter_map]
  rfl

theorem Kept.effect_info (h : Kept p kv entries) (op : HubOp) :
    (op.effect entries).map SubdevEntry.info = op.meant (entries.map SubdevEntry.info) := by
  cases op with
  | add d =>
      rw [HubOp.effect, List.map_append, List.map_singleton, SubdevEntry.info_ofInfo, HubOp.meant]
  | del sn => exact map_info_eraseP h sn
  | authFailure query sn => exact map_info_eraseP h sn
  | verUpdate sn ver => exact map_info_modifyFirst h fun _ => rfl
  | statusUpdate sn online => exact map_info_modifyFirst h fun _ => rfl
  | authPassed sn => exact map_info_modifyFirst h fun _ => rfl
  | clean => rfl

/-- Who writes the list has found its element. -/
theorem Kept.exists_named (h : Kept p kv entries) {op : HubOp}
    (hwrites : op.writes (Hub.storedItems kv) = true) (hnamed : op.named = some sn) :
    ∃ d ∈ entries.map SubdevEntry.info, d.isOf sn = true := by
  have hfound : (Hub.storedItems kv).any (holdsSn sn) = true := by
    cases op with
    | add d => cases hnamed
    | clean => cases hnamed
    | del | verUpdate | statusUpdate | authPassed | authFailure =>
        cases hnamed
        exact hwrites
  rw [h.storedItems, any_holdsSn, List.findIdx?_isSome, List.any_eq_true] at hfound
  obtain ⟨e, he, hself⟩ := hfound
  exact ⟨e.info, List.mem_map_of_mem he, hself⟩

theorem Listed.query_added (h : Listed p kv entries) {d : SubdevInfo} {kv' : Store}
    (hwrites : (HubOp.add d).writes (Hub.storedItems kv) = true)
    (hadded : Listed p kv' ((HubOp.add d).effect entries)) :
    hubSubdevQuery .fine d.sn.toCString kv' = some (.ok d) := by
  have hfine : unreadable .fine kv' = false := by simp [unreadable, Accesses.fine]
  rw [HubOp.writes, h.kept.storedItems, any_holdsSn, Bool.and_eq_true, Bool.not_eq_true',
    Option.isSome_eq_false_iff, Option.isNone_iff_eq_none, List.findIdx?_eq_none_iff] at hwrites
  have hself : (SubdevEntry.ofInfo d).isOf d.sn.toCString = true := isOf_iff.mpr rfl
  have hfind : ((HubOp.add d).effect entries).find? (SubdevEntry.isOf d.sn.toCString) =
      some (.ofInfo d) := by
    rw [HubOp.effect, List.find?_append,
      List.find?_eq_none.mpr fun e he => by simp [hwrites.1 e he], Option.none_or,
      List.find?_cons_of_pos hself]
  rw [hadded.query hfine, hfind]
  simp only [SubdevEntry.info_ofInfo]

theorem OpSound.of_error {op : HubOp} {r : HubErr × Store} (hrv : r.1 ≠ .succ)
    (hkv : r.2.value hublistKey = kv.value hublistKey) : OpSound kv op r :=
  ⟨fun _ => hkv, fun hsucc => absurd hsucc hrv, fun hsucc => absurd hsucc hrv⟩

theorem Listed.step {s : Sublist} (h : Listed p s.kv entries) (op : HubOp)
    (hfine : WritesFine p s (op, a)) :
    ∃ r, op.run p a s.kv = some r ∧ OpSound s.kv op r ∧ ∃ entries', Listed p r.2 entries' := by
  obtain ⟨rv, hrv, hrun⟩ := op.run_listed h a
  refine ⟨_, hrun, ?_⟩
  by_cases hreached : op.unread a s.kv = false ∧ op.writes (Hub.storedItems s.kv) = true
  · have hok := hfine hreached.1 hreached.2
    rw [if_pos hreached]
    unfold writeList
    cases hset : a.rawSet with
    | true =>
        rw [hset] at hok
        have heffect := h.effect hreached.2 hok
        refine ⟨⟨fun herr => absurd rfl herr, fun _ => ?_, fun _ d hd => ?_⟩, _, heffect⟩
        · refine ⟨_, h.kept.storedList, ?_, fun sn hsn => h.kept.exists_named hreached.2 hsn⟩
          rw [← h.kept.effect_info]
          exact heffect.kept.storedList
        · subst hd
          exact h.query_added hreached.2 heffect
    | false =>
        rw [hset] at hok
        cases hlogged : a.rawSetLogged with
        | false =>
            exact ⟨.of_error (by simp) rfl, entries, h⟩
        | true =>
            -- the repeated write stores what is stored already
            have hvalue : Store.value (s.kv.rawSet hublistKey (op.text p (Hub.storedItems s.kv)))
                hublistKey = s.kv.value hublistKey :=
              (Store.value_of_eq_some Store.rawSet_self).trans (hok hlogged)
            refine ⟨.of_error (by simp) hvalue, entries, ?_, ?_, h.nodup, h.bound⟩
            · exact hvalue ▸ h.text
            · exact hvalue ▸ h.fits
  · rw [if_neg hreached]
    exact ⟨.of_error hrv rfl, entries, h⟩

theorem Kept.sound (h : Kept p kv entries) : ListSound kv := by
  refine ⟨_, h.storedList, ?_, ?_⟩
  · rw [List.map_map]
    exact h.nodup
  · rw [List.length_map]
    exact h.bound

end Listed

/-! ## Runs -/

/-- As long as all writes are fine, the stored list is one, and every operation does
what it is meant for. -/
theorem hub_list_sound (p : Printer) {s : Sublist}
    (h : Reach (Sublist.step p) (WritesFine p) ⟨fun _ => none, false⟩ s) :
    ListSound s.kv ∧ ∀ op a, WritesFine p s (op, a) →
      ∃ r, op.run p a s.kv = some r ∧ OpSound s.kv op r := by
  obtain ⟨entries, hlisted⟩ := h.invariant (I := fun s => ∃ entries, Listed p s.kv entries)
    ⟨[], .inr ⟨rfl, rfl⟩, Nat.zero_le _, .nil, Nat.zero_le _⟩
    fun s i s' hs hfine hstep => by
      obtain ⟨entries, hs⟩ := hs
      obtain ⟨r, hrun, -, hleft⟩ := hs.step i.1 hfine
      unfold Sublist.step at hstep
      split at hstep
      · cases hstep
      · rw [hrun] at hstep
        cases hstep
        exact hleft
  refine ⟨hlisted.kept.sound, fun op a hfine => ?_⟩
  obtain ⟨r, hrun, hsound, -⟩ := hlisted.step op hfine
  exact ⟨r, hrun, hsound⟩

def samplePrinter : Printer where
  printNumber q := decimalInt q.num
  integral i _ := by simp

def sampleSubdev : SubdevInfo :=
  ⟨0, .strncpy (.lit "T"), .strncpy (.lit "S1"), .strncpy (.lit "V"), .strncpy (.lit "V1"),
    .strncpy (.lit "U"), 1, 0⟩

/-- The first addition. -/
theorem hub_list_sound_first : ListSound (fun _ => none) ∧
    ∃ r, (HubOp.add sampleSubdev).run samplePrinter .fine (fun _ => none) = some r ∧
      OpSound (fun _ => none) (.add sampleSubdev) r := by
  obtain ⟨hlist, hops⟩ := hub_list_sound samplePrinter .start
  refine ⟨hlist, hops (.add sampleSubdev) .fine ?_⟩
  have hfits : ((HubOp.add sampleSubdev).text samplePrinter []).length ≤ hubListSize := by decide +kernel
  exact fun _ _ => hfits

/-- A write fails, and its repetition in the log stores the list all the same. -/
theorem logged_write_not_sound : ∃ s op a r,
    Reach (Sublist.step samplePrinter) (fun _ _ => True) ⟨fun _ => none, false⟩ s ∧
      op.run samplePrinter a s.kv = some r ∧ ¬ OpSound s.kv op r := by
  refine ⟨_, .add sampleSubdev, ⟨true, true, false, true⟩, _, .start, rfl, fun hsound => ?_⟩
  have hunchanged := hsound.failed (by simp [addTo, writeList, componentHubSublistMax])
  have hstored : Store.value (Store.rawSet (fun _ => none) hublistKey
      (printList samplePrinter [subdevToJson sampleSubdev])) hublistKey =
        printList samplePrinter [subdevToJson sampleSubdev] :=
    Store.value_of_eq_some Store.rawSet_self
  exact printArray_ne_nil _ (hstored.symm.trans hunchanged)

end EzIot.Hub
