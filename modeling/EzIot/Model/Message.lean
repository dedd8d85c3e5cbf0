import EzIot.Lib.Ledger
import EzIot.Model.Route

/-! # Messages built for the things model

A value becomes the body of an event, an attribute or a service message. The body is put
together from nodes of cJSON, any of which may be missing for want of memory.
-/

namespace EzIot.Model

open CText CJson Kernel Ledger

/-! ## Nodes -/

/-- Which allocations for a message succeed. -/
structure MsgAllocs where
  root : Bool
  data : Bool
  dataKey : Bool
  value : Bool
  valueKey : Bool

def MsgAllocs.fine : MsgAllocs := ⟨true, true, true, true, true⟩

def addMember (name : String) (item : Value) : Value → Value
  | .object members => .object (members ++ [(ascii name, item)])
  | v => v

/-- `cJSON_AddItemToObject`: without a copy of the name, nothing happens. -/
def JsonTree.addItem (object : JsonTree) (key : Bool) (name : String) (item : JsonTree) : JsonTree :=
  if key then ⟨addMember name item.value object.value, object.nodes ++ item.nodes⟩ else object

/-- The same, where `object` is the member `below` of a tree. -/
def JsonTree.addItemBelow (tree : JsonTree) (below : String) (key : Bool) (name : String)
    (item object : JsonTree) : JsonTree :=
  if key then
    ⟨tree.value.replaceItemInObject below (addMember name item.value object.value),
      tree.nodes ++ item.nodes⟩
  else tree

/-- `cJSON_AddObjectToObject`: the tree and the new object in it. -/
def JsonTree.addObject (ok key : Bool) (name : String) (tree : JsonTree) (l : Ledger) :
    Option (JsonTree × JsonTree) × Ledger :=
  match createTree ok (.object []) l with
  | (none, l) => (none, l)
  | (some item, l) =>
      if key then (some (tree.addItem true name item, item), l) else (none, item.delete l)

/-! ## Builders -/

inductive MessageErrcode
  | sucess
  | invalidParam
  | jsonErr
  | jsonCreateErr
  | jsonPrintErr
  | kernelSendErr
deriving DecidableEq

/-- What a builder returns and leaves. -/
structure Made where
  ret : MessageErrcode
  context : Option Bytes
  ledger : Ledger

/-- The nodes of `ez_value_to_json`. -/
def createValue (ok : Bool) (msg : ModelMsg) (l : Ledger) : Option JsonTree × Ledger :=
  match ezValueToJson msg with
  | none => (none, l)
  | some v => createTree ok v l

section Builders

variable (print : Value → Option Bytes) (a : MsgAllocs) (msg : ModelMsg) (l : Ledger)

/-- The end of a builder: the tree is printed and deleted. -/
def printTree (tree : JsonTree) (l : Ledger) : Made :=
  match print tree.value with
  | none => ⟨.jsonPrintErr, none, tree.delete l⟩
  | some text => ⟨.sucess, some text, tree.delete l⟩

def ezMakeEventReportMsg : Made :=
  match createValue a.value msg l with
  | (none, l) => ⟨.jsonErr, none, l⟩
  | (some pjsvalue, l) => printTree print pjsvalue l

def ezMakeAttributeReportMsg : Made :=
  match createTree a.root (.object []) l with
  | (none, l) => ⟨.jsonCreateErr, none, l⟩
  | (some pjsroot, l) =>
      match pjsroot.addObject a.data a.dataKey "data" l with
      | (none, l) => ⟨.jsonCreateErr, none, pjsroot.delete l⟩
      | (some (pjsroot, pjsdata), l) =>
          match createValue a.value msg l with
          -- `pjsdata` is deleted, and then `pjsroot` with it
          | (none, l) => ⟨.jsonErr, none, pjsroot.delete (pjsdata.delete l)⟩
          | (some pjsvalue, l) =>
              printTree print (pjsroot.addItemBelow "data" a.valueKey "Value" pjsvalue pjsdata) l

def ezMakeServiceMsg : Made :=
  match createTree a.root (.object []) l with
  | (none, l) => ⟨.jsonCreateErr, none, l⟩
  | (some pjsroot, l) =>
      match createValue a.value msg l with
      | (none, l) => ⟨.jsonErr, none, pjsroot.delete l⟩
      | (some pjsvalue, l) => printTree print (pjsroot.addItem a.valueKey "data" pjsvalue) l

end Builders

/-! ## Sending -/

structure EzMsgAttr where
  msgSeq : UInt32
  msgQos : Qos
  msgType : CField 64

/-- What `ez_model_send_user_msg` returns, sends and leaves. -/
structure UserMsg where
  ret : MessageErrcode
  sent : List PubmsgV3
  msgAttr : EzMsgAttr
  ledger : Ledger

def methodName : ModelType → CField 128
  | .ezEvent => .strncpy (.lit "event")
  | .ezAttribute => .strncpy (.lit "attribute")
  | .ezService => .strncpy (.lit "service")

/-- The message of `ez_model_msg2platform`. -/
def pubmsgOf (basicInfo : EzBasicInfo) (msgAttr : EzMsgAttr) (context : Bytes) : PubmsgV3 where
  msgResponse := false
  msgQos := msgAttr.msgQos
  msgSeq := msgAttr.msgSeq
  msgBody := cstr context
  resourceId := basicInfo.resourceId
  resourceType := basicInfo.resourceType
  module := .strncpy (.lit "model")
  method := methodName basicInfo.type
  msgType := msgAttr.msgType
  subSerial := basicInfo.subserial
  extMsg := .strncpy (.ofMem (basicInfo.domain.val ++ ch '/' :: basicInfo.identifier.val))

/-- The builder for a type of message. -/
def makeMsg (print : Value → Option Bytes) (a : MsgAllocs) (type : ModelType) (msg : ModelMsg)
    (l : Ledger) : Made :=
  match type with
  | .ezEvent => ezMakeEventReportMsg print a msg l
  | .ezAttribute => ezMakeAttributeReportMsg print a msg l
  | .ezService => ezMakeServiceMsg print a msg l

/-- `ez_model_send_user_msg`; `send` is `ez_kernel_send_v3`, which gives a sequence number
if it takes the message. -/
def ezModelSendUserMsg (print : Value → Option Bytes) (a : MsgAllocs)
    (send : PubmsgV3 → Option UInt32) (basicInfo : EzBasicInfo) (msg : ModelMsg)
    (msgAttr : EzMsgAttr) (l : Ledger) : UserMsg :=
  if basicInfo.domain.length = 0 ∨ basicInfo.identifier.length = 0 ∨
      basicInfo.resourceId.length = 0 ∨ basicInfo.resourceType.length = 0 then
    ⟨.invalidParam, [], msgAttr, l⟩
  else
    let made := makeMsg print a basicInfo.type msg l
    match made.context with
    | none => ⟨made.ret, [], msgAttr, made.ledger⟩
    | some context =>
        let pubmsg := pubmsgOf basicInfo msgAttr context
        match send pubmsg with
        | none => ⟨.kernelSendErr, [pubmsg], msgAttr, made.ledger⟩
        | some msgSeq => ⟨.sucess, [pubmsg], { msgAttr with msgSeq := msgSeq }, made.ledger⟩

/-! ## Values that arrive -/

/-- A value of the types that are not floating point. The text of an array or an object is
one, or it is no JSON. -/
def IsModelValue (v : ModelMsg) : Prop :=
  match v.data with
  | .bool _ => True
  | .int i => intMin ≤ i ∧ i ≤ intMax
  | .string _ => True
  | .array value => ∀ mem root, value = some mem → cJSONParse mem = some root →
      ∃ items, root = .array items
  | .object value => ∀ mem root, value = some mem → cJSONParse mem = some root →
      ∃ members, root = .object members
  | .null => True
  | .double _ => False
  | .other => False

/-- A value that has a JSON form: the text of an array or an object is JSON. -/
def Encodable (v : ModelMsg) : Prop :=
  match v.data with
  | .bool _ => True
  | .int _ => True
  | .double _ => True
  | .string value => value.isSome
  | .array value => ∃ mem items, value = some mem ∧ cJSONParse mem = some (.array items)
  | .object value => ∃ mem members, value = some mem ∧ cJSONParse mem = some (.object members)
  | .null => True
  | .other => False

theorem encodable_iff {v : ModelMsg} (hv : IsModelValue v) :
    Encodable v ↔ ∃ x, ezValueToJson v = some x := by
  obtain ⟨length, data⟩ := v
  cases data with
  | bool | int | double | null => exact iff_of_true trivial ⟨_, rfl⟩
  | string value => cases value <;> simp [Encodable, ezValueToJson]
  | array value =>
      constructor
      · rintro ⟨mem, items, rfl, hparse⟩
        exact ⟨_, hparse⟩
      · rintro ⟨x, hx⟩
        obtain ⟨mem, rfl, hparse⟩ := Option.bind_eq_some_iff.mp hx
        obtain ⟨items, rfl⟩ := hv mem x rfl hparse
        exact ⟨mem, items, rfl, hparse⟩
  | object value =>
      constructor
      · rintro ⟨mem, members, rfl, hparse⟩
        exact ⟨_, hparse⟩
      · rintro ⟨x, hx⟩
        obtain ⟨mem, rfl, hparse⟩ := Option.bind_eq_some_iff.mp hx
        obtain ⟨members, rfl⟩ := hv mem x rfl hparse
        exact ⟨mem, members, rfl, hparse⟩
  | other => exact absurd hv id

/-- Equal values: the same type, and the same truth value, number, text or tree. -/
inductive SameValue : ModelData → ModelData → Prop
  | bool (b : Int) : SameValue (.bool b) (.bool (if b = 0 then 0 else 1))
  | int (i : Int) : SameValue (.int i) (.int i)
  | string {mem mem' : Bytes} (text : cstr mem' = cstr mem) :
      SameValue (.string (some mem)) (.string (some mem'))
  | array {mem mem' : Bytes} {items : List Value} (sent : cJSONParse mem = some (.array items))
      (received : cJSONParse mem' = some (.array items)) :
      SameValue (.array (some mem)) (.array (some mem'))
  | object {mem mem' : Bytes} {members : List (Bytes × Value)}
      (sent : cJSONParse mem = some (.object members))
      (received : cJSONParse mem' = some (.object members)) :
      SameValue (.object (some mem)) (.object (some mem'))
  | null : SameValue .null .null

def Inverts (print : Value → Option Bytes) (v : Value) : Prop :=
  ∀ text, print v = some text → cJSONParse text = some v

def attributeBody (x : Value) : Value := .object [(ascii "data", .object [(ascii "Value", x)])]

def serviceBody (x : Value) : Value := .object [(ascii "data", x)]

/-- Parsing inverts printing, for the messages with `x`, and for `x` itself if its text is
handed on. -/
structure ParsesBack (print : Value → Option Bytes) (x : Value) : Prop where
  attributeBody : Inverts print (attributeBody x)
  serviceBody : Inverts print (serviceBody x)
  value : x.isContainer = true → ∃ text, print x = some text ∧ cJSONParse text = some x

theorem fits_member {d : Nat} {name : Bytes} {x : Value} (hd : d < nestingLimit)
    (hx : Fits (d + 1) x) : Fits d (.object [(name, x)]) := by
  refine .node (fun _ => hd) fun y hy => ?_
  rw [List.mem_singleton.mp hy]
  exact hx

theorem printable_member {printNumber : Rat → Bytes} {name : Bytes} {x : Value}
    (hname : (0 : UInt8) ∉ name) (hx : Each (Printable printNumber) x) :
    Each (Printable printNumber) (.object [(name, x)]) := by
  refine .node (fun m hm => ?_) fun y hy => ?_
  · rw [List.mem_singleton.mp hm]
    exact hname
  · rw [List.mem_singleton.mp hy]
    exact hx

theorem parsesBack_printValue {printNumber : Rat → Bytes} {x : Value} (hfits : Fits 2 x)
    (hprint : Each (Printable printNumber) x) :
    ParsesBack (fun v => some (printValue printNumber v)) x := by
  have hdata : (0 : UInt8) ∉ ascii "data" := by decide
  have hvalue : (0 : UInt8) ∉ ascii "Value" := by decide
  refine ⟨?_, ?_, fun hcontainer => ⟨_, rfl, ?_⟩⟩
  · intro text htext
    cases htext
    exact cJSONParse_printValue rfl (fits_member (by decide) (fits_member (by decide) hfits))
      (printable_member hdata (printable_member hvalue hprint))
  · intro text htext
    cases htext
    exact cJSONParse_printValue rfl (fits_member (by decide) (hfits.mono (by omega)))
      (printable_member hdata hprint)
  · exact cJSONParse_printValue hcontainer (hfits.mono (by omega)) hprint

/-- The value of a JSON value that a model value became is equal to it. -/
theorem json2tlv_ezValueToJson {print : Value → Option Bytes} {v : ModelMsg} {x : Value}
    (hv : IsModelValue v) (hx : ezValueToJson v = some x) (hback : ParsesBack print x) :
    ∃ v', json2tlv print (some x) = some v' ∧ SameValue v.data v'.data := by
  obtain ⟨length, data⟩ := v
  cases data with
  | bool b =>
      cases hx
      refine ⟨_, rfl, ?_⟩
      have hsame := SameValue.bool b
      by_cases hb : b = 0
      · simpa [hb] using hsame
      · simpa [hb] using hsame
  | int i =>
      cases hx
      obtain ⟨hmin, hmax⟩ : intMin ≤ i ∧ i ≤ intMax := hv
      refine ⟨⟨4, .int i⟩, ?_, .int i⟩
      rw [json2tlv, isDouble, Shadow.isDouble_ofInt hmin hmax, Shadow.valueint_of_fits hmin hmax]
      rfl
  | string value =>
      obtain ⟨mem, rfl, rfl⟩ := Option.map_eq_some_iff.mp hx
      exact ⟨_, rfl, .string (cstr_of_no_zero (zero_not_mem_cstr mem))⟩
  | array value =>
      obtain ⟨mem, rfl, hparse⟩ := Option.bind_eq_some_iff.mp hx
      obtain ⟨items, rfl⟩ := hv mem x rfl hparse
      obtain ⟨text, hprint, hagain⟩ := hback.value rfl
      refine ⟨⟨strlen text, .array (some text)⟩, ?_, .array hparse hagain⟩
      rw [json2tlv, hprint]
      rfl
  | object value =>
      obtain ⟨mem, rfl, hparse⟩ := Option.bind_eq_some_iff.mp hx
      obtain ⟨members, rfl⟩ := hv mem x rfl hparse
      obtain ⟨text, hprint, hagain⟩ := hback.value rfl
      refine ⟨⟨strlen text, .object (some text)⟩, ?_, .object hparse hagain⟩
      rw [json2tlv, hprint]
      rfl
  | null =>
      cases hx
      exact ⟨_, rfl, .null⟩
  | double d => exact absurd hv id
  | other => exact absurd hv id

/-! ## What the builders do -/

section Builders

variable {print : Value → Option Bytes} {a : MsgAllocs} {v : ModelMsg} {x : Value} {l : Ledger}

theorem nodeCount_pos (v : Value) : 0 < nodeCount v := by
  cases v <;> simp only [nodeCount] <;> omega

theorem printTree_context (tree : JsonTree) (l : Ledger) :
    (printTree print tree l).context = print tree.value := by
  unfold printTree
  cases print tree.value <;> rfl

theorem printTree_ledger (tree : JsonTree) (l : Ledger) :
    (printTree print tree l).ledger = tree.delete l := by
  unfold printTree
  cases print tree.value <;> rfl

/-- The value is made: it can be encoded, and there is memory for its nodes. -/
def MsgAllocs.Made (a : MsgAllocs) (v : ModelMsg) (x : Value) : Prop :=
  a.value = true ∧ ezValueToJson v = some x

theorem createValue_made (h : a.Made v x) (l : Ledger) :
    createValue a.value v l = (some ⟨x, l.fresh (nodeCount x)⟩, l.alloc (nodeCount x)) := by
  unfold createValue createTree
  rw [h.2]
  simp only [h.1, if_true]

theorem createValue_not_made (h : ¬ ∃ x, a.Made v x) (l : Ledger) :
    createValue a.value v l = (none, l) := by
  unfold createValue createTree
  cases hx : ezValueToJson v with
  | none => rfl
  | some x =>
      have hvalue : ¬ a.value = true := fun hvalue => h ⟨x, hvalue, hx⟩
      simp only [hvalue, Bool.false_eq_true, if_false]

theorem createTree_ok (v : Value) (l : Ledger) :
    createTree true v l = (some ⟨v, l.fresh (nodeCount v)⟩, l.alloc (nodeCount v)) := rfl

theorem createTree_failed (v : Value) (l : Ledger) : createTree false v l = (none, l) := rfl

theorem fresh_ne_nil (v : Value) (l : Ledger) : l.fresh (nodeCount v) ≠ [] := by
  have hpos := nodeCount_pos v
  intro hnil
  have hlength := congrArg List.length hnil
  rw [Ledger.fresh, List.length_range', List.length_nil] at hlength
  omega

/-! ### Services -/

theorem ezMakeServiceMsg_made (hroot : a.root = true) (h : a.Made v x) :
    ezMakeServiceMsg print a v l =
      printTree print
        ((JsonTree.mk (.object []) (l.fresh 1)).addItem a.valueKey "data"
          ⟨x, (l.alloc 1).fresh (nodeCount x)⟩)
        ((l.alloc 1).alloc (nodeCount x)) := by
  unfold ezMakeServiceMsg
  rw [hroot, createTree_ok]
  simp only [createValue_made h]
  rfl

theorem ezMakeServiceMsg_not_made (hroot : a.root = true) (h : ¬ ∃ x, a.Made v x) :
    ezMakeServiceMsg print a v l = ⟨.jsonErr, none, (l.alloc 1).free (l.fresh 1)⟩ := by
  unfold ezMakeServiceMsg
  rw [hroot, createTree_ok]
  simp only [createValue_not_made h]
  rfl

theorem ezMakeServiceMsg_failed (hroot : a.root = false) :
    ezMakeServiceMsg print a v l = ⟨.jsonCreateErr, none, l⟩ := by
  unfold ezMakeServiceMsg
  rw [hroot, createTree_failed]

/-- The value is leaked if its name cannot be copied. -/
theorem service_settled_iff (print : Value → Option Bytes) (a : MsgAllocs) (v : ModelMsg)
    (l : Ledger) : Settled l (ezMakeServiceMsg print a v l).ledger ↔
      (a.root = true → (∃ x, a.Made v x) → a.valueKey = true) := by
  cases hroot : a.root with
  | false =>
      rw [ezMakeServiceMsg_failed hroot]
      exact iff_of_true Owes.rfl fun h => nomatch h
  | true =>
      by_cases hmade : ∃ x, a.Made v x
      · rcases hmade with ⟨x, hx⟩
        have howes : Owes l ((l.alloc 1).alloc (nodeCount x))
            (l.fresh 1 ++ (l.alloc 1).fresh (nodeCount x)) := (Owes.first l 1).alloc _
        rw [ezMakeServiceMsg_made hroot hx, printTree_ledger]
        cases hkey : a.valueKey with
        | true => exact iff_of_true howes.free_all fun _ _ => rfl
        | false =>
            refine iff_of_false ?_ ?_
            · exact (Owes.free howes).not_settled (fresh_ne_nil x (l.alloc 1))
            · intro h
              cases h rfl ⟨x, hx⟩
      · rw [ezMakeServiceMsg_not_made hroot hmade]
        exact iff_of_true (Owes.first l 1).free_all fun _ h => absurd h hmade

/-! ### Attributes -/

theorem addObject_ok (tree : JsonTree) (l : Ledger) :
    tree.addObject true true "data" l =
      (some (tree.addItem true "data" ⟨.object [], l.fresh 1⟩, ⟨.object [], l.fresh 1⟩), l.alloc 1) :=
  rfl

theorem ezMakeAttributeReportMsg_made (hroot : a.root = true) (hdata : a.data = true)
    (hkey : a.dataKey = true) (h : a.Made v x) :
    ezMakeAttributeReportMsg print a v l =
      printTree print
        (((JsonTree.mk (.object []) (l.fresh 1)).addItem true "data"
          ⟨.object [], (l.alloc 1).fresh 1⟩).addItemBelow "data" a.valueKey "Value"
            ⟨x, ((l.alloc 1).alloc 1).fresh (nodeCount x)⟩ ⟨.object [], (l.alloc 1).fresh 1⟩)
        (((l.alloc 1).alloc 1).alloc (nodeCount x)) := by
  unfold ezMakeAttributeReportMsg
  rw [hroot, createTree_ok]
  simp only [hdata, hkey, addObject_ok, createValue_made h]
  rfl

/-- Without the value the object in the tree is deleted on its own, and again with the tree. -/
theorem ezMakeAttributeReportMsg_not_made (hroot : a.root = true) (hdata : a.data = true)
    (hkey : a.dataKey = true) (h : ¬ ∃ x, a.Made v x) :
    ezMakeAttributeReportMsg print a v l =
      ⟨.jsonErr, none, (((l.alloc 1).alloc 1).free ((l.alloc 1).fresh 1)).free
        (l.fresh 1 ++ (l.alloc 1).fresh 1)⟩ := by
  unfold ezMakeAttributeReportMsg
  rw [hroot, createTree_ok]
  simp only [hdata, hkey, addObject_ok, createValue_not_made h]
  rfl

theorem ezMakeAttributeReportMsg_failed
    (h : ¬ (a.root = true ∧ a.data = true ∧ a.dataKey = true)) :
    (ezMakeAttributeReportMsg print a v l).ret = .jsonCreateErr ∧
      (ezMakeAttributeReportMsg print a v l).context = none ∧
        Settled l (ezMakeAttributeReportMsg print a v l).ledger := by
  unfold ezMakeAttributeReportMsg
  cases hroot : a.root with
  | false =>
      rw [createTree_failed]
      exact ⟨rfl, rfl, Owes.rfl⟩
  | true =>
      rw [createTree_ok]
      cases hdata : a.data with
      | false => exact ⟨rfl, rfl, (Owes.first l 1).free_all⟩
      | true =>
          cases hkey : a.dataKey with
          | false =>
              have howes : Owes l ((l.alloc 1).alloc 1) (l.fresh 1 ++ (l.alloc 1).fresh 1) :=
                (Owes.first l 1).alloc 1
              exact ⟨rfl, rfl, (Owes.free (howes.perm List.perm_append_comm)).free_all⟩
          | true => exact absurd ⟨hroot, hdata, hkey⟩ h

theorem attribute_settled_iff (print : Value → Option Bytes) (a : MsgAllocs) (v : ModelMsg)
    (l : Ledger) : Settled l (ezMakeAttributeReportMsg print a v l).ledger ↔
      (a.root = true → a.data = true → a.dataKey = true →
        (∃ x, a.Made v x) ∧ a.valueKey = true) := by
  by_cases hobjects : a.root = true ∧ a.data = true ∧ a.dataKey = true
  swap
  · refine iff_of_true (ezMakeAttributeReportMsg_failed hobjects).2.2 ?_
    intro hroot hdata hkey
    exact absurd ⟨hroot, hdata, hkey⟩ hobjects
  obtain ⟨hroot, hdata, hkey⟩ := hobjects
  have hboth : Owes l ((l.alloc 1).alloc 1) (l.fresh 1 ++ (l.alloc 1).fresh 1) :=
    (Owes.first l 1).alloc 1
  by_cases hmade : ∃ x, a.Made v x
  · rcases hmade with ⟨x, hx⟩
    have howes := hboth.alloc (nodeCount x)
    rw [ezMakeAttributeReportMsg_made hroot hdata hkey hx, printTree_ledger]
    cases hvalue : a.valueKey with
    | true => exact iff_of_true howes.free_all fun _ _ _ => ⟨⟨x, hx⟩, rfl⟩
    | false =>
        refine iff_of_false ?_ ?_
        · exact (Owes.free howes).not_settled (fresh_ne_nil x ((l.alloc 1).alloc 1))
        · intro h
          cases (h hroot hdata hkey).2
  · rw [ezMakeAttributeReportMsg_not_made hroot hdata hkey hmade]
    refine iff_of_false ?_ fun h => hmade (h hroot hdata hkey).1
    have hleft := Owes.free (hboth.perm List.perm_append_comm)
    have hid : (l.alloc 1).next ∈ l.fresh 1 ++ (l.alloc 1).fresh 1 := by
      refine List.mem_append_right _ ?_
      simp [Ledger.fresh]
    refine hleft.not_settled_free hid ?_
    simp [Ledger.fresh, Ledger.alloc]

end Builders

/-! ## Delivery -/

section Delivery

variable {print : Value → Option Bytes} {a : MsgAllocs} {v : ModelMsg} {x : Value} {l : Ledger}
  {text : Bytes}

theorem ezMakeServiceMsg_context (hkey : a.valueKey = true)
    (h : (ezMakeServiceMsg print a v l).context = some text) :
    ∃ x, a.Made v x ∧ print (serviceBody x) = some text := by
  cases hroot : a.root with
  | false =>
      rw [ezMakeServiceMsg_failed hroot] at h
      cases h
  | true =>
      by_cases hmade : ∃ x, a.Made v x
      · rcases hmade with ⟨x, hx⟩
        rw [ezMakeServiceMsg_made hroot hx, printTree_context, hkey] at h
        exact ⟨x, hx, h⟩
      · rw [ezMakeServiceMsg_not_made hroot hmade] at h
        cases h

theorem ezMakeAttributeReportMsg_context (hkey : a.valueKey = true)
    (h : (ezMakeAttributeReportMsg print a v l).context = some text) :
    ∃ x, a.Made v x ∧ print (attributeBody x) = some text := by
  by_cases hobjects : a.root = true ∧ a.data = true ∧ a.dataKey = true
  · obtain ⟨hroot, hdata, hdataKey⟩ := hobjects
    by_cases hmade : ∃ x, a.Made v x
    · rcases hmade with ⟨x, hx⟩
      rw [ezMakeAttributeReportMsg_made hroot hdata hdataKey hx, printTree_context, hkey] at h
      exact ⟨x, hx, h⟩
    · rw [ezMakeAttributeReportMsg_not_made hroot hdata hdataKey hmade] at h
      cases h
  · rw [(ezMakeAttributeReportMsg_failed hobjects).2.1] at h
    cases h

/-- The message type of an attribute that is set. -/
def setType : CField 64 := .strncpy (.lit "set")

/-- A routing function hands an equal value to the request router, and to nothing else. -/
def Delivers (msgType : CField 64) (v : ModelMsg)
    (route : EzBasicInfo → UInt32 → EzDomainReg → Ledger → Routed) : Prop :=
  ∀ basicInfo seq d l, d.valid = true → ∃ router v', d.dasReqRouter = some router ∧
    SameValue v.data v'.data ∧
      (route basicInfo seq d l).calls = [.request router basicInfo msgType v' seq]

theorem delivers_of_callRequest (hv : IsModelValue v) (hx : ezValueToJson v = some x)
    (hback : ParsesBack print x) {msgType : CField 64}
    {route : EzBasicInfo → UInt32 → EzDomainReg → Ledger → Routed}
    (hroute : ∀ basicInfo seq d l, (route basicInfo seq d l).calls =
      callRequest basicInfo msgType seq d (json2tlv print (some x))) : Delivers msgType v route := by
  intro basicInfo seq d l hd
  obtain ⟨router, _, hrouter, -⟩ := d.routers hd
  obtain ⟨v', hv', hsame⟩ := json2tlv_ezValueToJson hv hx hback
  refine ⟨router, v', hrouter, hsame, ?_⟩
  rw [hroute, hv', callRequest, hrouter]
  rfl

theorem attribute_delivers (hv : IsModelValue v) (hx : ezValueToJson v = some x)
    (hback : ParsesBack print x) (hprint : print (attributeBody x) = some text) :
    Delivers setType v fun basicInfo seq d =>
      ezAttributeDataRoute print basicInfo setType text seq d := by
  have hparse : cJSONParse text = some (attributeBody x) := hback.attributeBody text hprint
  have hreply : ¬ IsReply setType := by decide +kernel
  have hset : setType.toCString = .lit "set" := by decide +kernel
  have hvalue : ((attributeBody x).getObjectItem (ascii "data")).bind
      (Value.getObjectItem (ascii "Value")) = some x := rfl
  refine delivers_of_callRequest hv hx hback fun basicInfo seq d l => ?_
  unfold ezAttributeDataRoute
  simp only [parseTree_some hparse, if_neg fun h : IsReply setType ∧ _ => hreply h.1, if_pos hset,
    hvalue]
  rfl

/-- A service request is any message that is no reply. -/
theorem service_delivers (hv : IsModelValue v) (hx : ezValueToJson v = some x)
    (hback : ParsesBack print x) (hprint : print (serviceBody x) = some text)
    {msgType : CField 64} (hreply : ¬ IsReply msgType) :
    Delivers msgType v fun basicInfo seq d =>
      ezServiceDataRoute print basicInfo msgType text seq d := by
  have hparse : cJSONParse text = some (serviceBody x) := hback.serviceBody text hprint
  have hvalue : (serviceBody x).getObjectItem (ascii "data") = some x := rfl
  refine delivers_of_callRequest hv hx hback fun basicInfo seq d l => ?_
  unfold ezServiceDataRoute
  simp only [parseTree_some hparse, if_neg hreply, hvalue]
  rfl

end Delivery

/-! ## The codec -/

/-- A value that cannot be encoded is refused, and nothing is sent. -/
def Refuses (print : Value → Option Bytes) (a : MsgAllocs) (type : ModelType) (v : ModelMsg) :
    Prop :=
  ¬ Encodable v → ∀ send basicInfo msgAttr l, basicInfo.type = type →
    (ezModelSendUserMsg print a send basicInfo v msgAttr l).ret ≠ .sucess ∧
      (ezModelSendUserMsg print a send basicInfo v msgAttr l).sent = []

/-- A value that can be encoded becomes a message, if there is memory for it. -/
def Builds (print : Value → Option Bytes) (a : MsgAllocs) (v : ModelMsg)
    (make : Ledger → Made) : Prop :=
  Encodable v → a = .fine → (∀ w, (print w).isSome) →
    ∀ l, (make l).ret = .sucess ∧ (make l).context.isSome

/-- Attribute messages: one is made of what can be encoded, what is sent arrives, and every
node is released once where the message is made and where it is routed. -/
structure AttributeCodec (print : Value → Option Bytes) (a : MsgAllocs) (v : ModelMsg) : Prop where
  builds : Builds print a v (ezMakeAttributeReportMsg print a v)
  delivers : ∀ l text, (ezMakeAttributeReportMsg print a v l).context = some text →
    Delivers setType v fun basicInfo seq d =>
      ezAttributeDataRoute print basicInfo setType text seq d
  refuses : Refuses print a .ezAttribute v
  released : ∀ l, Settled l (ezMakeAttributeReportMsg print a v l).ledger
  parsed : ∀ l basicInfo msgType buf seq d,
    Settled l (ezAttributeDataRoute print basicInfo msgType buf seq d l).ledger

/-- Service messages. -/
structure ServiceCodec (print : Value → Option Bytes) (a : MsgAllocs) (v : ModelMsg) : Prop where
  builds : Builds print a v (ezMakeServiceMsg print a v)
  delivers : ∀ l text, (ezMakeServiceMsg print a v l).context = some text → ∀ msgType,
    ¬ IsReply msgType → Delivers msgType v fun basicInfo seq d =>
      ezServiceDataRoute print basicInfo msgType text seq d
  refuses : Refuses print a .ezService v
  released : ∀ l, Settled l (ezMakeServiceMsg print a v l).ledger
  parsed : ∀ l basicInfo msgType buf seq d,
    Settled l (ezServiceDataRoute print basicInfo msgType buf seq d l).ledger

theorem printTree_builds {print : Value → Option Bytes} (hprint : ∀ w, (print w).isSome)
    (tree : JsonTree) (l : Ledger) :
    (printTree print tree l).ret = .sucess ∧ (printTree print tree l).context.isSome := by
  obtain ⟨text, htext⟩ := Option.isSome_iff_exists.mp (hprint tree.value)
  unfold printTree
  rw [htext]
  exact ⟨rfl, rfl⟩

theorem attribute_builds (print : Value → Option Bytes) (a : MsgAllocs) {v : ModelMsg}
    (hv : IsModelValue v) : Builds print a v (ezMakeAttributeReportMsg print a v) := by
  rintro hencodable rfl hprint l
  obtain ⟨x, hx⟩ := (encodable_iff hv).mp hencodable
  rw [ezMakeAttributeReportMsg_made rfl rfl rfl ⟨rfl, hx⟩]
  exact printTree_builds hprint _ _

theorem service_builds (print : Value → Option Bytes) (a : MsgAllocs) {v : ModelMsg}
    (hv : IsModelValue v) : Builds print a v (ezMakeServiceMsg print a v) := by
  rintro hencodable rfl hprint l
  obtain ⟨x, hx⟩ := (encodable_iff hv).mp hencodable
  rw [ezMakeServiceMsg_made rfl ⟨rfl, hx⟩]
  exact printTree_builds hprint _ _

theorem makeMsg_refused (print : Value → Option Bytes) (a : MsgAllocs) {v : ModelMsg}
    (hnone : ezValueToJson v = none) (type : ModelType) (l : Ledger) :
    (makeMsg print a type v l).context = none ∧ (makeMsg print a type v l).ret ≠ .sucess := by
  have hmade : ¬ ∃ x, a.Made v x := by
    rintro ⟨x, -, hx⟩
    cases hnone.symm.trans hx
  cases type with
  | ezEvent =>
      rw [makeMsg, ezMakeEventReportMsg, createValue_not_made hmade]
      exact ⟨rfl, by simp⟩
  | ezAttribute =>
      rw [makeMsg]
      by_cases hobjects : a.root = true ∧ a.data = true ∧ a.dataKey = true
      · rw [ezMakeAttributeReportMsg_not_made hobjects.1 hobjects.2.1 hobjects.2.2 hmade]
        exact ⟨rfl, by simp⟩
      · obtain ⟨hret, hcontext, -⟩ := ezMakeAttributeReportMsg_failed hobjects
        rw [hret]
        exact ⟨hcontext, by simp⟩
  | ezService =>
      rw [makeMsg]
      cases hroot : a.root with
      | false =>
          rw [ezMakeServiceMsg_failed hroot]
          exact ⟨rfl, by simp⟩
      | true =>
          rw [ezMakeServiceMsg_not_made hroot hmade]
          exact ⟨rfl, by simp⟩

theorem refuses (print : Value → Option Bytes) (a : MsgAllocs) (type : ModelType) {v : ModelMsg}
    (hv : IsModelValue v) : Refuses print a type v := by
  intro hencodable send basicInfo msgAttr l htype
  have hnone : ezValueToJson v = none := by
    rw [Option.eq_none_iff_forall_ne_some]
    exact fun x hx => hencodable ((encodable_iff hv).mpr ⟨x, hx⟩)
  obtain ⟨hcontext, hret⟩ := makeMsg_refused print a hnone basicInfo.type l
  unfold ezModelSendUserMsg
  split
  · exact ⟨by simp, rfl⟩
  · simp only [hcontext]
    exact ⟨hret, trivial⟩

def integerArray : ModelMsg := ⟨7, .array (some (ascii "[1,-20]"))⟩

theorem cJSONParse_integers : cJSONParse (ascii "[1,-20]") =
    some (.array ([1, -20].map fun i => .number (.ofInt i))) := by decide +kernel

theorem ezValueToJson_array (length : Int32) (mem : Bytes) :
    ezValueToJson ⟨length, .array (some mem)⟩ = cJSONParse mem := rfl

/-- An array whose text is no JSON. -/
def brokenArray : ModelMsg := ⟨1, .array (some (ascii "x"))⟩

end EzIot.Model
