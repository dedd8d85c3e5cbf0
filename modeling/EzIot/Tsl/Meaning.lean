import EzIot.Tsl.Check

/-! # What a schema means

`declared` lists the constraints that are written in a schema, and `enforced` those
that the validator looks at once the schema is parsed. A value is valid when it
satisfies the first, with its elements and members.
-/

namespace EzIot.Tsl

open CText CJson

/-! ## Constraints -/

inductive Constraint
  | atLeast (bound : Dbl)
  | atMost (bound : Dbl)
  | above (bound : Dbl)
  | below (bound : Dbl)
  | multipleOf (m : Dbl)
  /-- What `check_double_value` makes of a multiple. -/
  | wholeQuotient (m : Dbl)
  | oneOf (entries : List Value)
  | has (name : Bytes)
  /-- What `cJSON_GetObjectItem` makes of a name. -/
  | hasAnyCase (name : Bytes)
deriving DecidableEq

/-- What bounds are about: a number, the length of a text, the size of an array or
object. -/
def measure : Value → Option Dbl
  | .number d => some d
  | .string s => some (.ofInt s.length)
  | .array items => some (.ofInt items.length)
  | .object members => some (.ofInt members.length)
  | _ => none

def Measures (v : Value) (P : Dbl → Prop) : Prop := ∃ d, measure v = some d ∧ P d

def Constraint.Holds : Constraint → Value → Prop
  | .atLeast b, v => Measures v (b ≤ ·)
  | .atMost b, v => Measures v (· ≤ b)
  | .above b, v => Measures v (b < ·)
  | .below b, v => Measures v (· < b)
  | .multipleOf m, v => ∃ (k : Int) (q : Rat), m = .fin q ∧ v = .number (.fin (k * q))
  | .wholeQuotient m, v => ∃ d, v = .number d ∧ Tsl.wholeQuotient d m = some true
  | .oneOf entries, v => v ∈ entries
  | .has name, v => ∃ m ∈ v.members, m.1 = name
  | .hasAnyCase name, v => ∃ m ∈ v.members, sameName name m.1 = true

/-! ## What is written -/

/-- There is no type when the keyword is missing, and `max` when it names none. -/
def declaredType (js : Value) : Option DataType :=
  match keyword js "type" with
  | some (.string type) => some (itemType type)
  | _ => none

def bounded (c : Dbl → Constraint) (js : Value) (name : String) : List Constraint :=
  ((numberKeyword js name).map c).toList

def enumerated (js : Value) : List Constraint :=
  ((arrayKeyword js "enum").map .oneOf).toList

def requiredName : Value → Option Constraint
  | .string name => some (.has name)
  | _ => none

def declared (js : Value) : List Constraint :=
  match declaredType js with
  | some .int | some .double =>
      bounded .atLeast js "mn" ++ bounded .atMost js "mx" ++ bounded .above js "emn" ++
        bounded .below js "emx" ++ bounded .multipleOf js "multi" ++ enumerated js
  | some .string => bounded .atLeast js "mnl" ++ bounded .atMost js "mxl" ++ enumerated js
  | some .array => bounded .atLeast js "mnitm" ++ bounded .atMost js "mxitm"
  | some .object =>
      bounded .atLeast js "mnp" ++ bounded .atMost js "mxp" ++
        ((arrayKeyword js "req").getD []).filterMap requiredName
  | _ => []

def HasType (js v : Value) : Prop :=
  match declaredType js with
  | none => True
  | some .bool => ∃ b, v = .bool b
  | some .int => ∃ i : Int32, v = .number (.ofInt i.toInt)
  | some .double => ∃ d, v = .number d
  | some .string => ∃ s, v = .string s
  | some .array => ∃ items, v = .array items
  | some .object => ∃ members, v = .object members
  | some .max => False

def itemSchema (js : Value) : Option Value :=
  match keyword js "itm" with
  | some (.object members) => some (.object members)
  | _ => none

def memberSchemas (js : Value) : List Value := (arrayKeyword js "prop").getD []

def memberName (schema : Value) : Option Bytes :=
  match keyword schema "key" with
  | some (.string name) => some name
  | _ => none

/-- The value has the declared type and satisfies every constraint that is written, and
so do its elements and members. -/
inductive Valid : Value → Value → Prop
  | node {js v : Value} (type : HasType js v) (constraints : ∀ c ∈ declared js, c.Holds v)
      (items : ∀ s, itemSchema js = some s → ∀ x ∈ v.items, Valid s x)
      (members : ∀ s ∈ memberSchemas js, ∀ m ∈ v.members, memberName s = some m.1 →
        Valid s m.2) : Valid js v

/-! ## What is enforced -/

/-- The constraints of `inRange`. -/
def rangeConstraints {α : Type} [LE α] [LT α] [DecidableLE α] [DecidableLT α] [DecidableEq α]
    (f : α → Dbl) (zero minimum maximum exminimum exmaximum : α) : List Constraint :=
  if Kept zero minimum maximum then [.atLeast (f minimum), .atMost (f maximum)]
  else if KeptStrict zero exminimum exmaximum then [.above (f exminimum), .below (f exmaximum)]
  else []

def TypeInteger.constraints (t : TypeInteger) : List Constraint :=
  if t.intEnum ≠ [] then [.oneOf (t.intEnum.map fun i => .number (.ofInt i))]
  else (if t.multiple = 0 then [] else [.multipleOf (.ofInt t.multiple)]) ++
    (if t.multiple = -1 then [.above (.ofInt intMin)] else []) ++
    rangeConstraints Dbl.ofInt 0 t.minimum t.maximum t.exminimum t.exmaximum

def TypeNumber.constraints (t : TypeNumber) : List Constraint :=
  if t.numEnum ≠ [] then [.oneOf (t.numEnum.map .number)]
  else (if t.multiple = .fin 0 then [] else [.wholeQuotient t.multiple]) ++
    rangeConstraints id (.fin 0) t.minimum t.maximum t.exminimum t.exmaximum

def TypeString.constraints (t : TypeString) : List Constraint :=
  if t.strEnum ≠ [] then [.oneOf (t.strEnum.map .string)]
  else if Kept 0 t.minLen t.maxLen then [.atLeast (.ofInt t.minLen), .atMost (.ofInt t.maxLen)]
  else []

def checkedItem (p : Platform) (js : Value) : Option Value :=
  if p.malloc schemaDescSize = true then itemSchema js else none

def checkedSchemas (p : Platform) (js : Value) : List Value :=
  match required p js with
  | none => []
  | some _ => (property p js).getD []

/-- The `prop_key` of a schema. -/
def storedKey (schema : Value) : Bytes :=
  match keyword schema "type" with
  | some (.string _) => (keyword schema "key").elim [] textField
  | _ => []

/-- The schema that a member is checked against. -/
def schemaFor (p : Platform) (js : Value) (name : Bytes) : Option Value :=
  (checkedSchemas p js).find? fun s => storedKey s = name

/-- A required name, as it is stored. No member has a name that no schema is for, so the
letter case matters only where two schemas differ in it. -/
def requiredConstraint (p : Platform) (js : Value) (name : Bytes) : Constraint :=
  if (checkedSchemas p js).all fun s => !sameName name (storedKey s) || storedKey s = name then
    .has name
  else .hasAnyCase name

/-- The constraints that the validator looks at. -/
def enforced (p : Platform) (js : Value) : List Constraint :=
  match declaredType js with
  | some .int => (typeInteger p js).elim [] TypeInteger.constraints
  | some .double => (typeNumber p js).constraints
  | some .string => (typeString p js).constraints
  | some .array =>
      let minItem := intField (numberKeyword js "mnitm")
      if Kept 0 minItem (intField (numberKeyword js "mxitm")) then [.atMost (.ofInt minItem)]
      else []
  | some .object =>
      let maxProps := intField (numberKeyword js "mnp")
      let minProps := intField (numberKeyword js "mxp")
      (if Kept 0 minProps maxProps then [.atLeast (.ofInt minProps), .atMost (.ofInt maxProps)]
        else []) ++ ((required p js).getD []).map (requiredConstraint p js)
  | _ => []

/-- The type that an element or a member is taken for. -/
def seenType : Value → DataType
  | .null => .bool
  | .bool _ => .bool
  | .number d => if isInt d then .int else .double
  | .string _ => .string
  | .array _ => .array
  | .object _ => .object

/-- A value of that type. -/
def Sees : DataType → Value → Prop
  | .bool, v => v = .null ∨ ∃ b, v = .bool b
  | .int, v => ∃ i : Int32, v = .number (.ofInt i.toInt)
  | .double, v => ∃ d, v = .number d
  | .string, v => ∃ s, v = .string s
  | .array, v => ∃ items, v = .array items
  | .object, v => ∃ members, v = .object members
  | .max, _ => False

/-- Without a type a schema is one of `bool`. -/
def Matches (js : Value) (type : DataType) : Prop :=
  match declaredType js with
  | none => type = .bool
  | some .double => type = .double ∨ type = .int
  | some t => type = t

/-- There is memory to hand an element or a member down. -/
def Copied (p : Platform) : Value → Prop
  | .string s => p.malloc (s.length + 1) = true
  | .array items => p.printed (.array items) = true
  | .object members => p.printed (.object members) = true
  | _ => True

/-- What the validator looks at, with the type that it takes the value for. -/
inductive Accepts (p : Platform) : Value → DataType → Value → Prop
  | node {js v : Value} {type : DataType} (sees : Sees type v) (matched : Matches js type)
      (constraints : ∀ c ∈ enforced p js, c.Holds v) (copied : ∀ x ∈ v.children, Copied p x)
      (items : ∀ s, checkedItem p js = some s → ∀ x ∈ v.items, Accepts p s (seenType x) x)
      (known : ∀ m ∈ v.members, ∃ s, schemaFor p js m.1 = some s)
      (members : ∀ m ∈ v.members, ∀ s, schemaFor p js m.1 = some s →
        Accepts p s (seenType m.2) m.2) : Accepts p js type v

end EzIot.Tsl
