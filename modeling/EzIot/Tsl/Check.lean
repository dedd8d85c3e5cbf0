import EzIot.Tsl.Schema

/-! # The check of a value

`check_schema_value` and its helpers. An array or an object arrives as a text; its
members are handed down as values of their own, the nested ones printed again. The
result is a return code, or none where C leaves the behaviour open.
-/

namespace EzIot.Tsl

open CText CJson

inductive TslValue
  | bool (b : Bool)
  | int (i : Int32)
  | double (d : Dbl)
  | string (s : CString)
  | array (text : CString)
  | object (text : CString)

def TslValue.type : TslValue → DataType
  | .bool _ => .bool
  | .int _ => .int
  | .double _ => .double
  | .string _ => .string
  | .array _ => .array
  | .object _ => .object

/-! ## Numbers and strings -/

/-- Zero stands for a bound that is absent, and bounds the wrong way round are none. -/
def Kept {α : Type} [LE α] (zero lo hi : α) : Prop := zero ≠ hi ∧ zero ≠ lo ∧ lo ≤ hi

def KeptStrict {α : Type} [LT α] (zero lo hi : α) : Prop := zero ≠ hi ∧ zero ≠ lo ∧ lo < hi

instance {α : Type} [LE α] [DecidableLE α] [DecidableEq α] (zero lo hi : α) :
    Decidable (Kept zero lo hi) := inferInstanceAs (Decidable (_ ∧ _))

instance {α : Type} [LT α] [DecidableLT α] [DecidableEq α] (zero lo hi : α) :
    Decidable (KeptStrict zero lo hi) := inferInstanceAs (Decidable (_ ∧ _))

/-- The bounds of `check_int_value` and `check_double_value`: the exclusive ones count
only where the inclusive ones do not. -/
def inRange {α : Type} [LE α] [LT α] [DecidableLE α] [DecidableLT α] [DecidableEq α]
    (zero minimum maximum exminimum exmaximum x : α) : Bool :=
  if Kept zero minimum maximum then decide (minimum ≤ x ∧ x ≤ maximum)
  else if KeptStrict zero exminimum exmaximum then decide (exminimum < x ∧ x < exmaximum)
  else true

def legal (b : Bool) : Nat := if b then Err.succ else Err.valueIllegal

/-- `check_int_value`. C leaves the remainder of the smallest `int` by `-1` open. -/
def checkIntValue (t : TypeInteger) (i : Int) : Option Nat :=
  if t.intEnum ≠ [] then some (legal (decide (i ∈ t.intEnum)))
  else if t.multiple = -1 ∧ i = intMin then none
  else if t.multiple ≠ 0 ∧ i.tmod t.multiple ≠ 0 then some Err.valueIllegal
  else some (legal (inRange 0 t.minimum t.maximum t.exminimum t.exmaximum i))

/-- The quotient of two `double`, if it is not NaN. -/
def quotient : Dbl → Dbl → Option Dbl
  | .fin a, .fin m => if m = 0 then none else some (binary64 (a / m))
  | .fin _, .inf _ => some (.fin 0)
  | .inf neg, .fin m => some (.inf (neg != decide (m < 0)))
  | .inf _, .inf _ => none

/-- Whether a quotient is its own integer part. -/
def wholeQuotient (d m : Dbl) : Option Bool :=
  (quotient d m).bind fun q => (Dbl.toInt q).map fun i => decide (q = .ofInt i)

def checkDoubleValue (t : TypeNumber) (d : Dbl) : Option Nat :=
  if t.numEnum ≠ [] then some (legal (decide (d ∈ t.numEnum)))
  else
    let range := legal (inRange (.fin 0) t.minimum t.maximum t.exminimum t.exmaximum d)
    if t.multiple = .fin 0 then some range
    else (wholeQuotient d t.multiple).map fun whole =>
      if whole then range else Err.valueIllegal

def checkStringValue (t : TypeString) (s : Bytes) : Nat :=
  if t.strEnum ≠ [] then legal (decide (s ∈ t.strEnum))
  else if Kept 0 t.minLen t.maxLen then
    legal (decide (t.minLen ≤ (s.length : Int) ∧ (s.length : Int) ≤ t.maxLen))
  else Err.succ

/-! ## Arrays and objects -/

/-- Whether `tranform_value_from_json` takes a number for an `int`: the ends of `int`
may come from saturation. -/
def isInt (d : Dbl) : Bool :=
  d = .ofInt d.valueint ∧ d.valueint ≠ intMax ∧ d.valueint ≠ intMin

/-- `tranform_value_from_json`: what has no case of its own leaves the value zero. -/
def tranformValueFromJson (p : Platform) : Value → Option TslValue
  | .null => some (.bool false)
  | .bool b => some (.bool b)
  | .number d => some (if isInt d then .int (Int32.ofInt d.valueint) else .double d)
  | .string s => if p.malloc (s.length + 1) = true then some (.string (.ofMem s)) else none
  | .array items =>
      if p.printed (.array items) = true then
        some (.array (.ofMem (printValue p.printNumber (.array items))))
      else none
  | .object members =>
      if p.printed (.object members) = true then
        some (.object (.ofMem (printValue p.printNumber (.object members))))
      else none

def arraySize (v : Value) : Int := v.children.length

/-- The loop over the children of a root, up to the first return code that is not zero. -/
def checkEach {α : Type} (p : Platform) (child : α → Value) (check : α → TslValue → Option Nat) :
    List α → Option Nat
  | [] => some Err.succ
  | x :: xs =>
      match tranformValueFromJson p (child x) with
      | none => some Err.valueIllegal
      | some v =>
          match check x v with
          | none => none
          | some ret => if ret ≠ Err.succ then some ret else checkEach p child check xs

/-- The loop of `check_array_value`. -/
def checkElements (p : Platform) (check : TslValue → Option Nat) : List Value → Option Nat :=
  checkEach p id fun _ => check

/-- The last loop of `check_object_value`. -/
def checkMembers (p : Platform) (check : Bytes → TslValue → Option Nat) :
    List (Bytes × Value) → Option Nat :=
  checkEach p Prod.snd fun m => check m.1

/-- `check_object_value` when the sizes fit and what is required is there. The root may
be anything that parses; the elements of an array have no name to compare. -/
def checkRoot (p : Platform) (property : List SchemaDesc) (check : Bytes → TslValue → Option Nat) :
    Value → Option Nat
  | .object members => checkMembers p check members
  | .array (x :: _) =>
      match tranformValueFromJson p x with
      | none => some Err.valueIllegal
      | some _ => if property.isEmpty then some Err.valueIllegal else none
  | _ => some Err.succ

mutual

def checkSchemaValue (p : Platform) : SchemaDesc → TslValue → Option Nat
  | .bool _, .bool _ => some Err.succ
  | .int _ t, .int i => checkIntValue t i.toInt
  | .double _ t, .int i => checkDoubleValue t (.ofInt i.toInt)
  | .double _ t, .double d => checkDoubleValue t d
  | .string _ t, .string s => some (checkStringValue t s.val)
  | .array _ minItem maxItem itemProp, .array text =>
      match cJSONParse text.val with
      | some (.array items) =>
          -- `type_object.max_props` is the storage of `minItem`
          let maxProps := minItem
          if Kept 0 minItem maxItem ∧ (minItem < (items.length : Int) ∨
              maxProps < (items.length : Int)) then some Err.valueIllegal
          else checkElements p (checkItem p itemProp Err.succ) items
      | _ => some Err.valueIllegal
  | .object _ maxProps minProps required property, .object text =>
      match cJSONParse text.val with
      | none => some Err.valueIllegal
      | some root =>
          if Kept 0 minProps maxProps ∧ (minProps > arraySize root ∨ maxProps < arraySize root) then
            some Err.valueIllegal
          else if required.any fun name => (root.getObjectItem name).isNone then
            some Err.valueIllegal
          else checkRoot p property (checkProperty p property) root
  | _, _ => some Err.valueType

/-- One element against every description of an item; the last return code counts. -/
def checkItem (p : Platform) : List SchemaDesc → Nat → TslValue → Option Nat
  | [], ret, _ => some ret
  | s :: ss, _, v =>
      match checkSchemaValue p s v with
      | none => none
      | some ret => checkItem p ss ret v

/-- One member against the first description with its name. -/
def checkProperty (p : Platform) : List SchemaDesc → Bytes → TslValue → Option Nat
  | [], _, _ => some Err.valueIllegal
  | s :: ss, name, v =>
      if s.propKey = name then checkSchemaValue p s v else checkProperty p ss name v

end

end EzIot.Tsl
