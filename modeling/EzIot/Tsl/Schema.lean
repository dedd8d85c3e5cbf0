import EzIot.CJson.Tree

/-! # Schemas of the thing model

`profile_parse_schema` folds the keywords of a schema into a record in which zero
stands for a keyword that is absent. Texts are copied into fields of 32 bytes.
-/

namespace EzIot.Tsl

open CText CJson

namespace Err

def succ : Nat := 0
def paramInvalid : Nat := 0x40003
def memory : Nat := 0x40005
def valueType : Nat := 0x4000b
def valueIllegal : Nat := 0x4000c

end Err

/-- What the code gets from below: whether `ezos_malloc` has that many bytes, whether
`cJSON_PrintUnformatted` has the memory for a tree, and how it prints a number. Requests of one
size, or for one tree, are all answered alike. -/
structure Platform where
  malloc : Nat → Bool
  printed : Value → Bool
  printNumber : Rat → Bytes

/-! ## Descriptions -/

structure TypeInteger where
  minimum : Int
  exminimum : Int
  maximum : Int
  exmaximum : Int
  multiple : Int
  intEnum : List Int

structure TypeNumber where
  minimum : Dbl
  exminimum : Dbl
  maximum : Dbl
  exmaximum : Dbl
  multiple : Dbl
  numEnum : List Dbl

structure TypeString where
  minLen : Int
  maxLen : Int
  strEnum : List Bytes

/-- `tsl_schema_desc`: the constructor is the `item_type`, and its arguments are the
`prop_key` and the member of the union that belongs to the type. -/
inductive SchemaDesc
  | bool (propKey : Bytes)
  | int (propKey : Bytes) (type : TypeInteger)
  | double (propKey : Bytes) (type : TypeNumber)
  | string (propKey : Bytes) (type : TypeString)
  | array (propKey : Bytes) (minItem maxItem : Int) (itemProp : List SchemaDesc)
  | object (propKey : Bytes) (maxProps minProps : Int) (required : List Bytes)
      (property : List SchemaDesc)
  /-- `EZ_TSL_DATA_TYPE_MAX`. -/
  | max (propKey : Bytes)

def SchemaDesc.propKey : SchemaDesc → Bytes
  | .bool k => k
  | .int k _ => k
  | .double k _ => k
  | .string k _ => k
  | .array k _ _ _ => k
  | .object k _ _ _ _ => k
  | .max k => k

/-- Memory that is all zero. -/
def SchemaDesc.zero : SchemaDesc := .bool []

/-- `sizeof(tsl_schema_desc)` where pointers have eight bytes. -/
def schemaDescSize : Nat := 96

/-! ## Keywords -/

def keyword (js : Value) (name : String) : Option Value := js.getObjectItem (ascii name)

def numberKeyword (js : Value) (name : String) : Option Dbl :=
  match keyword js name with
  | some (.number d) => some d
  | _ => none

def arrayKeyword (js : Value) (name : String) : Option (List Value) :=
  match keyword js name with
  | some (.array items) => some items
  | _ => none

/-- The `valueint` of a number, or the zero that was there before. -/
def intField (d : Option Dbl) : Int := d.elim 0 Dbl.valueint

def doubleField (d : Option Dbl) : Dbl := d.getD (.fin 0)

/-- `ezos_strncpy` of a text into 32 zero bytes. -/
def textField : Value → Bytes
  | .string s => s.take 31
  | _ => []

/-- The conversion of `double` to `int`. C leaves it open outside of `int`. -/
def Dbl.toInt : Dbl → Option Int
  | .inf _ => none
  | .fin q =>
      let i := q.num.tdiv q.den
      if intMin ≤ i ∧ i ≤ intMax then some i else none

/-- The entries of an enumeration. None are stored when there is no memory for them. -/
def enumField {α : Type} (p : Platform) (size : Nat) (entry : Value → α) (js : Value) : List α :=
  match arrayKeyword js "enum" with
  | none => []
  | some items => if p.malloc (size * items.length) = true then items.map entry else []

def intEntry : Value → Int
  | .number d => d.valueint
  | _ => 0

def doubleEntry : Value → Dbl
  | .number d => d
  | _ => .fin 0

/-! ## Parsing -/

/-- `ez_tsl_data_type_e`, without `EZ_TSL_DATA_TYPE_NULL`, which nothing sets. -/
inductive DataType
  | bool
  | int
  | double
  | string
  | array
  | object
  | max
deriving DecidableEq

/-- The comparison of the type with the names of the types. -/
def itemType (name : Bytes) : DataType :=
  if name = ascii "str" then .string
  else if name = ascii "bool" then .bool
  else if name = ascii "int" then .int
  else if name = ascii "num" then .double
  else if name = ascii "obj" then .object
  else if name = ascii "arr" then .array
  else .max

/-- An exclusive bound is read only where there is no inclusive one. -/
def typeInteger (p : Platform) (js : Value) : Option TypeInteger :=
  let mn := numberKeyword js "mn"
  let mx := numberKeyword js "mx"
  let multiple := match numberKeyword js "multi" with
    | none => some 0
    | some d => Dbl.toInt d
  multiple.map fun multiple =>
    { minimum := intField mn
      exminimum := if mn = none then intField (numberKeyword js "emn") else 0
      maximum := intField mx
      exmaximum := if mx = none then intField (numberKeyword js "emx") else 0
      multiple := multiple
      intEnum := enumField p 4 intEntry js }

def typeNumber (p : Platform) (js : Value) : TypeNumber :=
  let mn := numberKeyword js "mn"
  let mx := numberKeyword js "mx"
  { minimum := doubleField mn
    exminimum := if mn = none then doubleField (numberKeyword js "emn") else .fin 0
    maximum := doubleField mx
    exmaximum := if mx = none then doubleField (numberKeyword js "emx") else .fin 0
    multiple := doubleField (numberKeyword js "multi")
    numEnum := enumField p 8 doubleEntry js }

def typeString (p : Platform) (js : Value) : TypeString :=
  { minLen := intField (numberKeyword js "mnl")
    maxLen := intField (numberKeyword js "mxl")
    strEnum := enumField p 32 textField js }

/-- The names of the required members. There is no result without memory. -/
def required (p : Platform) (js : Value) : Option (List Bytes) :=
  match arrayKeyword js "req" with
  | none => some []
  | some items =>
      if items = [] then some []
      else if p.malloc (32 * items.length) = true then some (items.map textField)
      else none

/-- The schemas of the members. There is no result without memory. -/
def property (p : Platform) (js : Value) : Option (List Value) :=
  match arrayKeyword js "prop" with
  | none => some []
  | some items =>
      if items = [] then some []
      else if p.malloc (schemaDescSize * items.length) = true then some items
      else none

/-- The description of a member: the return code is not looked at, and what is no object
leaves its memory zero. -/
def memberSchema (parse : Value → Option (Nat × SchemaDesc)) : Value → Option SchemaDesc
  | .object members => (parse (.object members)).map Prod.snd
  | _ => some .zero

/-- `profile_parse_schema` into zeroed memory: the return code and the description. The
first argument bounds the nesting of the schema. There is no result where C leaves the
behaviour open. -/
def parseSchema (p : Platform) : Nat → Value → Option (Nat × SchemaDesc)
  | 0, _ => none
  | fuel + 1, js =>
      match keyword js "type" with
      | some (.string type) =>
          let key := (keyword js "key").elim [] textField
          match itemType type with
          | .bool => some (Err.succ, .bool key)
          | .int => (typeInteger p js).map fun t => (Err.succ, .int key t)
          | .double => some (Err.succ, .double key (typeNumber p js))
          | .string => some (Err.succ, .string key (typeString p js))
          | .array =>
              let minItem := intField (numberKeyword js "mnitm")
              let maxItem := intField (numberKeyword js "mxitm")
              match keyword js "itm" with
              | some (.object members) =>
                  if p.malloc schemaDescSize = true then
                    (parseSchema p fuel (.object members)).map fun r =>
                      (Err.succ, .array key minItem maxItem [r.2])
                  else some (Err.memory, .array key minItem maxItem [])
              | _ => some (Err.paramInvalid, .array key minItem maxItem [])
          | .object =>
              -- the names of the two keywords are the wrong way round in the source
              let maxProps := intField (numberKeyword js "mnp")
              let minProps := intField (numberKeyword js "mxp")
              match required p js with
              | none => some (Err.memory, .object key maxProps minProps [] [])
              | some req =>
                  match property p js with
                  | none => some (Err.memory, .object key maxProps minProps req [])
                  | some schemas =>
                      (schemas.mapM (memberSchema (parseSchema p fuel))).map fun props =>
                        (Err.succ, .object key maxProps minProps req props)
          | .max => some (Err.succ, .max key)
      | _ => some (Err.succ, .zero)

mutual

/-- How deep a tree is nested. -/
def depth : Value → Nat
  | .array items => depthItems items + 1
  | .object members => depthMembers members + 1
  | _ => 0

def depthItems : List Value → Nat
  | [] => 0
  | v :: vs => Nat.max (depth v) (depthItems vs)

def depthMembers : List (Bytes × Value) → Nat
  | [] => 0
  | m :: ms => Nat.max (depth m.2) (depthMembers ms)

end

def profileParseSchema (p : Platform) (js : Value) : Option (Nat × SchemaDesc) :=
  parseSchema p (depth js + 1) js

/-! ## Nesting -/

theorem depth_le_depthItems {v : Value} {items : List Value} (h : v ∈ items) :
    depth v ≤ depthItems items := by
  induction items with
  | nil => cases h
  | cons x xs ih =>
      rw [depthItems]
      rcases List.mem_cons.mp h with rfl | h
      · exact Nat.le_max_left _ _
      · exact Nat.le_trans (ih h) (Nat.le_max_right _ _)

theorem depth_le_depthMembers {m : Bytes × Value} {members : List (Bytes × Value)}
    (h : m ∈ members) : depth m.2 ≤ depthMembers members := by
  induction members with
  | nil => cases h
  | cons x xs ih =>
      rw [depthMembers]
      rcases List.mem_cons.mp h with rfl | h
      · exact Nat.le_max_left _ _
      · exact Nat.le_trans (ih h) (Nat.le_max_right _ _)

theorem depth_keyword_lt {js v : Value} {name : String} (h : keyword js name = some v) :
    depth v < depth js := by
  cases js with
  | object members =>
      obtain ⟨m, hm, rfl⟩ := Option.map_eq_some_iff.mp h
      exact Nat.lt_succ_of_le (depth_le_depthMembers (List.mem_of_find?_eq_some hm))
  | null | bool | number | string | array => cases h

theorem depth_arrayKeyword_lt {js s : Value} {name : String} {items : List Value}
    (h : arrayKeyword js name = some items) (hs : s ∈ items) : depth s < depth js := by
  rw [arrayKeyword] at h
  split at h
  · rename_i hkey
    cases h
    have hdepth := depth_keyword_lt hkey
    have hle := depth_le_depthItems hs
    rw [depth] at hdepth
    omega
  · cases h

theorem mem_of_property {p : Platform} {js s : Value} {schemas : List Value}
    (h : property p js = some schemas) (hs : s ∈ schemas) :
    ∃ items, arrayKeyword js "prop" = some items ∧ s ∈ items := by
  rw [property] at h
  split at h
  · cases h
    cases hs
  · rename_i items hitems
    refine ⟨items, hitems, ?_⟩
    split at h
    · cases h
      cases hs
    · split at h
      · cases h
        exact hs
      · cases h

theorem mapM_congr {f g : Value → Option SchemaDesc} {schemas : List Value}
    (h : ∀ s ∈ schemas, f s = g s) : schemas.mapM f = schemas.mapM g := by
  induction schemas with
  | nil => rfl
  | cons s schemas ih =>
      rw [List.mapM_cons, List.mapM_cons, h s List.mem_cons_self,
        ih fun x hx => h x (List.mem_cons_of_mem s hx)]

/-- More fuel than the schema is deep changes nothing. -/
theorem parseSchema_fuel {p : Platform} {fuel fuel' : Nat} {js : Value} (h : depth js < fuel)
    (h' : depth js < fuel') : parseSchema p fuel js = parseSchema p fuel' js := by
  induction fuel generalizing fuel' js with
  | zero => cases h
  | succ fuel ih =>
      cases fuel' with
      | zero => cases h'
      | succ fuel' =>
          have hinner {s : Value} (hs : depth s < depth js) :
              parseSchema p fuel s = parseSchema p fuel' s := ih (by omega) (by omega)
          have hprops (schemas : List Value) (hprop : property p js = some schemas) :
              schemas.mapM (memberSchema (parseSchema p fuel)) =
                schemas.mapM (memberSchema (parseSchema p fuel')) := by
            refine mapM_congr fun s hs => ?_
            obtain ⟨items, hitems, hmem⟩ := mem_of_property hprop hs
            cases s with
            | object members =>
                rw [memberSchema, memberSchema, hinner (depth_arrayKeyword_lt hitems hmem)]
            | null | bool | number | string | array => rfl
          rw [parseSchema, parseSchema]
          split
          · rename_i type htype
            cases itemType type with
            | bool | int | double | string | max => rfl
            | array =>
                simp only
                split
                · rename_i members hitm
                  rw [hinner (depth_keyword_lt hitm)]
                · rfl
            | object =>
                simp only
                cases required p js with
                | none => rfl
                | some req =>
                    cases hprop : property p js with
                    | none => rfl
                    | some schemas => simp only [hprops schemas hprop]
          · rfl

end EzIot.Tsl
