import EzIot.CJson.Tree
import EzIot.Shadow.Route
import EzIot.Tsl.Schema

/-! # Property values from the cloud

A value reaches `property2dev` on two ways. The attribute channel reads it out of the
message itself; the shadow channel hands on what the shadow module made of it, after the
node that it came from has been deleted. Memory is not short on either of them.
-/

namespace EzIot.Tsl

open CText CJson Shadow

/-- What the union of an `ez_tsl_value_t` leads to: a number, the text behind a pointer, or
nothing that may be read where the text has been freed. -/
inductive Content
  | zero
  | bool (valueBool : Int)
  | int (valueInt : Int)
  | double (valueDouble : Dbl)
  | text (value : Bytes)
  | freed
deriving DecidableEq

/-- `ez_tsl_value_t` as `property2dev` gets it; no type is `EZ_TSL_DATA_TYPE_NULL`. -/
structure Delivery where
  type : Option DataType
  size : Int32
  content : Content
deriving DecidableEq

section Channels

variable (printNumber : Rat → Bytes)

/-! ## The attribute channel -/

def jsonTypeTransformDev : Value → DataType
  | .null => .max
  | .bool _ => .bool
  | .number _ => .int
  | .string _ => .string
  | .array _ => .array
  | .object _ => .object

/-- The `switch` of `strip_msg_wrap`. No node has the type that is `EZ_TSL_DATA_TYPE_DOUBLE`. -/
def transformDev (v : Value) : Delivery where
  type := some (jsonTypeTransformDev v)
  size :=
    match v with
    | .null => 0
    | .bool _ => 4
    | .number _ => 4
    | .string s => Int32.ofNat s.length
    | v => Int32.ofNat (printValue printNumber v).length
  content :=
    match v with
    | .null => .zero
    | .bool b => .bool (if b then 1 else 0)
    | .number d => .int d.valueint
    | .string s => .text s
    | v => .text (printValue printNumber v)

/-- The node that `strip_msg_wrap` converts, when `data` is there. -/
def unwrapped (data : Value) : Value := (data.getObjectItem (ascii "Value")).getD data

/-- `strip_msg_wrap`: what it cannot read stays as it was initialised. -/
def stripMsgWrap (buf : Bytes) : Delivery :=
  match (cJSONParse buf).bind (·.getObjectItem (ascii "data")) with
  | none => ⟨none, 0, .zero⟩
  | some data => transformDev printNumber (unwrapped data)

/-- `sscanf(ext_msg, "%32[^/]/%s", domain, identifier)` when both are read and fit. -/
def scanKey (extMsg : CString) : Option (Bytes × Bytes) :=
  let domain := (extMsg.val.takeWhile (· ≠ ch '/')).take 32
  let rest := extMsg.val.drop domain.length
  let identifier := ((rest.drop 1).dropWhile isSpace).takeWhile fun b => !isSpace b
  if domain = [] ∨ rest.head? ≠ some (ch '/') ∨ identifier = [] then none
  else if 32 ≤ domain.length ∨ 32 ≤ identifier.length then none
  else some (domain, identifier)

/-- The value of the call of `property2dev` in `tsl_attribute_process`. -/
def tslAttributeProcess (extMsg : CString) (buf : Bytes) : Option Delivery :=
  (scanKey extMsg).map fun _ => stripMsgWrap printNumber buf

/-! ## The shadow channel -/

/-- The union of a shadow value once `do_set` has deleted the node. A text was the one of
the node, an array or an object was printed to memory of its own. -/
def deleted : ShadowData → Content
  | .bool i => .bool i
  | .int i => .int i
  | .double d => .double d
  | .string _ => .freed
  | .array text => .text text
  | .object text => .text text
  | .max => .zero

/-- `ez_shadow_data_type_e` as the number of an `ez_tsl_data_type_e`. -/
def shadowType : ShadowData → Option DataType
  | .bool _ => some .bool
  | .int _ => some .int
  | .double _ => some .double
  | .string _ => some .string
  | .array _ => some .array
  | .object _ => some .object
  | .max => none

/-- The value of the call of `property2dev` in `business2dev_imp`. -/
def business2devImp (pvalue : ShadowValue) : Delivery where
  type := shadowType pvalue.data
  size := pvalue.length.toInt32
  content := deleted pvalue.data

/-! ## When the channels agree -/

/-- A message carries `v` as its member `data`, or under `Value` in there. -/
def Sends (data v : Value) : Prop := data = v ∨ data.getObjectItem (ascii "Value") = some v

/-- The values that both converters make the same of. -/
def ConvertedAlike : Value → Prop
  | .null => False
  | .number d => isDouble d = false
  | .string _ => False
  | _ => True

/-- An object with a member `Value` is taken apart, unless it was wrapped in one. -/
def TakenWhole (data v : Value) : Prop :=
  data.getObjectItem (ascii "Value") = some v ∨ v.getObjectItem (ascii "Value") = none

theorem json2tlv_of_doSet {app : App} {res : ShadowRes} {domain key : CString} {v : Value}
    {g : Modules} {call : Cloud2dev} (h : (doSet app res domain key v g).2 = some call) :
    json2tlv app.print v = some call.value := by
  unfold doSet at h
  split at h
  · cases h
  · split at h
    · cases h
    · split at h
      · cases h
      · next tlv htlv =>
          cases h
          exact htlv

theorem tslAttributeProcess_eq {extMsg : CString} {buf : Bytes} {msg data : Value}
    {delivery : Delivery} (hcall : tslAttributeProcess printNumber extMsg buf = some delivery)
    (hparse : cJSONParse buf = some msg) (hdata : msg.getObjectItem (ascii "data") = some data) :
    delivery = transformDev printNumber (unwrapped data) := by
  obtain ⟨_, _, rfl⟩ := Option.map_eq_some_iff.mp hcall
  unfold stripMsgWrap
  rw [hparse, Option.bind_some, hdata]

theorem unwrapped_of_wrapped {data v : Value}
    (h : data.getObjectItem (ascii "Value") = some v) : unwrapped data = v := by
  rw [unwrapped, h, Option.getD_some]

theorem unwrapped_of_bare {data v : Value} (hsends : Sends data v)
    (h : v.getObjectItem (ascii "Value") = none) : unwrapped data = v := by
  rcases hsends with rfl | hwrapped
  · rw [unwrapped, h, Option.getD_none]
  · exact unwrapped_of_wrapped hwrapped

/-- A member that is taken for the object it stands in is told by its text. -/
theorem transformDev_member_ne {members : List (Bytes × Value)} {m : Bytes × Value}
    (hm : m ∈ members) : transformDev printNumber m.2 ≠ transformDev printNumber (.object members) := by
  intro heq
  have htype : jsonTypeTransformDev m.2 = .object :=
    Option.some.inj (congrArg Delivery.type heq)
  have hcontent := congrArg Delivery.content heq
  obtain ⟨name, v⟩ := m
  cases v with
  | object inner =>
      have htext : printValue printNumber (.object inner) = printValue printNumber (.object members) :=
        Content.text.inj hcontent
      have hlt : (printValue printNumber (.object inner)).length <
          (printValue printNumber (.object members)).length := length_printValue_member hm
      rw [htext] at hlt
      exact absurd hlt (Nat.lt_irrefl _)
  | _ => cases htype

/-- The two converters on one node. -/
theorem transformDev_eq_iff {v : Value} {tlv : ShadowValue}
    (h : json2tlv (printValue printNumber) v = some tlv) :
    transformDev printNumber v = business2devImp tlv ↔ ConvertedAlike v := by
  cases v with
  | null => cases h
  | bool b =>
      cases h
      exact ⟨fun _ => trivial, fun _ => rfl⟩
  | number d =>
      cases hd : isDouble d with
      | false =>
          rw [json2tlv, hd] at h
          cases h
          exact ⟨fun _ => hd, fun _ => rfl⟩
      | true =>
          rw [json2tlv, hd] at h
          cases h
          constructor
          · intro heq
            cases congrArg Delivery.type heq
          · intro hint
            exact absurd (hd.symm.trans hint) Bool.noConfusion
  | string s =>
      cases h
      constructor
      · intro heq
        cases congrArg Delivery.content heq
      · exact False.elim
  | array items =>
      cases h
      exact ⟨fun _ => trivial, fun _ => rfl⟩
  | object members =>
      cases h
      exact ⟨fun _ => trivial, fun _ => rfl⟩

/-- The node that is converted is told from the value that was sent. -/
theorem unwrapped_eq_of_transformDev {data v : Value} (hsends : Sends data v)
    (heq : transformDev printNumber (unwrapped data) = transformDev printNumber v) :
    TakenWhole data v := by
  rcases hsends with rfl | hwrapped
  · right
    cases hvalue : data.getObjectItem (ascii "Value") with
    | none => rfl
    | some inner =>
        rw [unwrapped_of_wrapped hvalue] at heq
        cases data with
        | object members =>
            obtain ⟨m, hfind, rfl⟩ := Option.map_eq_some_iff.mp hvalue
            exact absurd heq (transformDev_member_ne printNumber (List.mem_of_find?_eq_some hfind))
        | _ => cases hvalue
  · exact .inl hwrapped

theorem unwrapped_of_takenWhole {data v : Value} (hsends : Sends data v)
    (hwhole : TakenWhole data v) : unwrapped data = v := by
  rcases hwhole with hwrapped | hnone
  · exact unwrapped_of_wrapped hwrapped
  · exact unwrapped_of_bare hsends hnone

/-- Only an object has members. -/
theorem convertedAlike_of_member {v : Value}
    (h : v.getObjectItem (ascii "Value") ≠ none) : ConvertedAlike v := by
  cases v with
  | object members => trivial
  | _ => exact absurd rfl h

/-- Both channels hand the same value to `property2dev` exactly when the converters agree on
it and the object is not taken apart. -/
theorem downlink_alike_iff {app : App} (hprint : app.print = printValue printNumber)
    {res : ShadowRes} {domain key extMsg : CString} {g : Modules} {buf : Bytes}
    {msg data v : Value} {call : Cloud2dev} {delivery : Delivery}
    (hparse : cJSONParse buf = some msg) (hdata : msg.getObjectItem (ascii "data") = some data)
    (hsends : Sends data v)
    (hattribute : tslAttributeProcess printNumber extMsg buf = some delivery)
    (hshadow : (doSet app res domain key v g).2 = some call) :
    delivery = business2devImp call.value ↔ ConvertedAlike v ∧ TakenWhole data v := by
  have htlv := json2tlv_of_doSet hshadow
  rw [hprint] at htlv
  have hconverted := transformDev_eq_iff printNumber htlv
  rw [tslAttributeProcess_eq printNumber hattribute hparse hdata]
  constructor
  · intro heq
    by_cases hnone : v.getObjectItem (ascii "Value") = none
    · rw [unwrapped_of_bare hsends hnone] at heq
      exact ⟨hconverted.mp heq, .inr hnone⟩
    · have hboth := convertedAlike_of_member hnone
      rw [← hconverted.mpr hboth] at heq
      exact ⟨hboth, unwrapped_eq_of_transformDev printNumber hsends heq⟩
  · intro halike
    rw [unwrapped_of_takenWhole hsends halike.2]
    exact hconverted.mpr halike.1

end Channels

/-! ### A flag and a fraction -/

def sampleSetter : App := ⟨.lit "OWN", printValue fun _ => [], fun _ _ _ => 0⟩

/-- `do_set` of the one key of a tree. -/
def sampleSet (v : Value) : Option Cloud2dev :=
  (doSet sampleSetter ⟨.strncpy (.lit "SUB1"), .strncpy (.lit "Video"), 0⟩ (.lit "light")
    (.lit "power") v (shadowCoreModuleAddv3 (.lit "OWN") ⟨.lit "SUB1", .lit "Video", 0,
      .lit "light", [⟨.strncpy (.lit "power"), some 1, none⟩]⟩ []).2).2

def flagMessage : Bytes := ascii "\x7b\"data\":true\x7d"

def fractionMessage : Bytes := ascii "\x7b\"data\":1.5\x7d"

/-- A flag arrives alike. -/
theorem downlink_alike_flag :
    ∃ delivery call,
      tslAttributeProcess (fun _ => []) (.lit "light/power") flagMessage = some delivery ∧
      sampleSet (.bool true) = some call ∧ delivery = business2devImp call.value := by
  obtain ⟨call, hcall⟩ : ∃ call, sampleSet (.bool true) = some call :=
    Option.isSome_iff_exists.mp (by decide +kernel)
  have hparse : cJSONParse flagMessage = some (.object [(ascii "data", .bool true)]) := by
    decide +kernel
  have hattribute : tslAttributeProcess (fun _ => []) (.lit "light/power") flagMessage =
      some ⟨some .bool, 4, .bool 1⟩ := by
    decide +kernel
  exact ⟨_, _, hattribute, hcall, (downlink_alike_iff _ rfl hparse (by decide +kernel) (.inl rfl)
    hattribute hcall).mpr ⟨trivial, .inr rfl⟩⟩

/-- A fraction arrives as its integer part on the attribute channel only. -/
theorem downlink_fraction_differs :
    ¬ ∀ (msg data : Value) (delivery : Delivery) (call : Cloud2dev),
      cJSONParse fractionMessage = some msg →
      msg.getObjectItem (ascii "data") = some data → Sends data (.number (.fin (3 / 2))) →
      tslAttributeProcess (fun _ => []) (.lit "light/power") fractionMessage = some delivery →
      sampleSet (.number (.fin (3 / 2))) = some call → delivery = business2devImp call.value := by
  intro h
  obtain ⟨call, hcall⟩ : ∃ call, sampleSet (.number (.fin (3 / 2))) = some call :=
    Option.isSome_iff_exists.mp (by decide +kernel)
  have hparse : cJSONParse fractionMessage =
      some (.object [(ascii "data", .number (.fin (3 / 2)))]) := by
    decide +kernel
  have hattribute : tslAttributeProcess (fun _ => []) (.lit "light/power") fractionMessage =
      some ⟨some .int, 4, .int 1⟩ := by
    decide +kernel
  have hvalue : (sampleSet (.number (.fin (3 / 2)))).map (fun c => business2devImp c.value) =
      some ⟨some .double, 8, .double (.fin (3 / 2))⟩ := by
    decide +kernel
  rw [hcall, Option.map_some, Option.some.injEq,
    ← h _ _ _ call hparse (by decide +kernel) (.inl rfl) hattribute hcall] at hvalue
  cases congrArg Delivery.type hvalue

end EzIot.Tsl
