import EzIot.CJson.Exact
import EzIot.Lib.Ledger
import EzIot.Shadow.Codec

/-! # Values of the things model

A value has a type, a length and a union. It is made of a JSON value when a message
arrives, and becomes one when a message is built. The nodes of JSON values are counted
where they are made and deleted.
-/

namespace EzIot.Model

open CText CJson

/-- `ez_json_type_e` with the member of the union that belongs to it. The texts are
pointers to memory. -/
inductive ModelData
  | bool (b : Int)
  | int (i : Int)
  | double (d : Dbl)
  | string (value : Option Bytes)
  | array (value : Option Bytes)
  | object (value : Option Bytes)
  | null
  -- a number outside the enumeration
  | other
deriving DecidableEq

/-- `ez_model_msg_t`. -/
structure ModelMsg where
  length : Int32
  data : ModelData
deriving DecidableEq

/-- After `ezos_memset`. -/
def ModelMsg.zero : ModelMsg := ⟨0, .bool 0⟩

/-- `is_double`: the module has a copy of its own. -/
def isDouble (d : Dbl) : Bool := Shadow.isDouble d

def strlen (mem : Bytes) : Int32 := Int32.ofNat (cstr mem).length

/-- `json2tlv`; `print` is `cJSON_PrintUnformatted`, with no text if there is no memory
for it. -/
def json2tlv (print : Value → Option Bytes) : Option Value → Option ModelMsg
  | none => none
  | some (.bool b) => some ⟨4, .bool (if b then 1 else 0)⟩
  | some (.number d) => some (if isDouble d then ⟨8, .double d⟩ else ⟨4, .int d.valueint⟩)
  | some .null => some ⟨0, .null⟩
  | some (.string s) => some ⟨strlen s, .string (some s)⟩
  | some (.array items) => (print (.array items)).map fun t => ⟨strlen t, .array (some t)⟩
  | some (.object members) => (print (.object members)).map fun t => ⟨strlen t, .object (some t)⟩

/-- `ez_value_to_json`, if there is memory for the nodes. -/
def ezValueToJson (pValue : ModelMsg) : Option Value :=
  match pValue.data with
  | .bool b => some (.bool (decide (b ≠ 0)))
  | .int i => some (.number (.ofInt i))
  | .double d => some (.number d)
  | .string value => value.map fun mem => .string (cstr mem)
  | .array value => value.bind cJSONParse
  | .object value => value.bind cJSONParse
  | .null => some .null
  | .other => none

/-! ## What a value says -/

/-- The message is that value, with its length: an array or an object is what its text is
read as. -/
def ModelMsg.Carries (msg : ModelMsg) (v : Value) : Prop :=
  match msg.data, v with
  | .bool i, .bool b => msg.length = 4 ∧ decide (i ≠ 0) = b
  | .int i, .number d => msg.length = 4 ∧ d = .ofInt i
  | .double d', .number d => msg.length = 8 ∧ d' = d
  | .string text, .string s => msg.length = strlen s ∧ text = some s
  | .array text, .array items =>
      ∃ mem, text = some mem ∧ msg.length = strlen mem ∧ cJSONParse mem = some (.array items)
  | .object text, .object members =>
      ∃ mem, text = some mem ∧ msg.length = strlen mem ∧ cJSONParse mem = some (.object members)
  | .null, .null => msg.length = 0
  | _, _ => False

/-- A number that is taken for an integer is one; an array or an object has a text, in which
every number is printed exactly. -/
def KeptWhole (printNumber : Rat → Bytes) (print : Value → Option Bytes) : Value → Prop
  | .number d => isDouble d = true ∨ d = .ofInt d.valueint
  | .array items => (print (.array items)).isSome ∧ Each (Printable printNumber) (.array items)
  | .object members =>
      (print (.object members)).isSome ∧ Each (Printable printNumber) (.object members)
  | _ => True

/-- `print` prints numbers by `printNumber`, where there is memory for the text. -/
def PrintsBy (printNumber : Rat → Bytes) (print : Value → Option Bytes) : Prop :=
  ∀ v text, print v = some text → text = printValue printNumber v

section Kept

variable {printNumber : Rat → Bytes} {print : Value → Option Bytes}
  (htexts : NumberTexts printNumber) (hprint : PrintsBy printNumber print)

include htexts hprint

/-- The text of an array or an object is read as it again exactly if it is kept whole. -/
theorem text_read_iff {v : Value} (hcontainer : v.isContainer = true)
    (hformed : Formed 0 (.value v)) :
    (∃ text, print v = some text ∧ cJSONParse text = some v) ↔
      (print v).isSome ∧ Each (Printable printNumber) v := by
  have hread := cJSONParse_printValue_iff htexts hcontainer hformed.1 hformed.2
  rw [← hread, Option.isSome_iff_exists]
  constructor
  · rintro ⟨text, htext, hparse⟩
    exact ⟨⟨text, htext⟩, hprint v text htext ▸ hparse⟩
  · rintro ⟨⟨text, htext⟩, hparse⟩
    exact ⟨text, htext, (hprint v text htext).symm ▸ hparse⟩

/-- A value is converted to a message that carries it exactly if it is kept whole. -/
theorem json2tlv_carries_iff {v : Value} (hformed : Formed 0 (.value v)) :
    (∃ msg, json2tlv print (some v) = some msg ∧ msg.Carries v) ↔ KeptWhole printNumber print v := by
  cases v with
  | null => exact iff_of_true ⟨_, rfl, rfl⟩ trivial
  | bool b =>
      refine iff_of_true ⟨_, rfl, rfl, ?_⟩ trivial
      cases b <;> rfl
  | string s => exact iff_of_true ⟨_, rfl, rfl, rfl⟩ trivial
  | number d =>
      cases hd : isDouble d with
      | false => simp [json2tlv, hd, ModelMsg.Carries, KeptWhole]
      | true => simp [json2tlv, hd, ModelMsg.Carries, KeptWhole]
  | array items =>
      rw [KeptWhole, ← text_read_iff htexts hprint rfl hformed]
      simp [json2tlv, ModelMsg.Carries]
  | object members =>
      rw [KeptWhole, ← text_read_iff htexts hprint rfl hformed]
      simp [json2tlv, ModelMsg.Carries]

end Kept

/-! ## Nodes -/

mutual

def nodeCount : Value → Nat
  | .array items => 1 + itemCount items
  | .object members => 1 + memberCount members
  | _ => 1

def itemCount : List Value → Nat
  | [] => 0
  | v :: vs => nodeCount v + itemCount vs

def memberCount : List (Bytes × Value) → Nat
  | [] => 0
  | m :: ms => nodeCount m.2 + memberCount ms

end

/-- A tree of cJSON, with the numbers of its nodes. -/
structure JsonTree where
  value : Value
  nodes : List Nat

/-- A function of cJSON that makes a tree: all of its nodes, or none. -/
def createTree (ok : Bool) (v : Value) (l : Ledger) : Option JsonTree × Ledger :=
  if ok then (some ⟨v, l.fresh (nodeCount v)⟩, l.alloc (nodeCount v)) else (none, l)

def JsonTree.delete (t : JsonTree) (l : Ledger) : Ledger := l.free t.nodes

/-- `cJSON_Parse`, with the nodes it makes. -/
def parseTree (buf : Bytes) (l : Ledger) : Option JsonTree × Ledger :=
  match cJSONParse buf with
  | none => (none, l)
  | some root => createTree true root l

end EzIot.Model
