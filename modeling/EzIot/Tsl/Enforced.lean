import EzIot.Tsl.Meaning

/-! # The validator enforces `enforced`

The return code of `check_schema_value` is zero exactly for the values that the parsed
schema accepts, provided that nested values read back the way they were printed.
-/

namespace EzIot.Tsl

open CText CJson

/-! ## Numbers and strings -/

theorem measures_iff {v : Value} {d : Dbl} (h : measure v = some d) (P : Dbl → Prop) :
    Measures v P ↔ P d := by
  constructor
  · rintro ⟨d', hd', hP⟩
    rw [h] at hd'
    cases hd'
    exact hP
  · exact fun hP => ⟨d, h, hP⟩

@[simp] theorem legal_eq_succ_iff (b : Bool) : legal b = Err.succ ↔ b = true := by
  cases b <;> decide

@[simp] theorem valueIllegal_ne_succ : Err.valueIllegal ≠ Err.succ := by decide

@[simp] theorem valueType_ne_succ : Err.valueType ≠ Err.succ := by decide

section Range

variable {α : Type} [LE α] [LT α] [DecidableLE α] [DecidableLT α] [DecidableEq α]

/-- `f` keeps the order. -/
theorem inRange_iff {f : α → Dbl} (hle : ∀ a b, f a ≤ f b ↔ a ≤ b) (hlt : ∀ a b, f a < f b ↔ a < b)
    {v : Value} {x : α} (hv : measure v = some (f x))
    (zero minimum maximum exminimum exmaximum : α) :
    inRange zero minimum maximum exminimum exmaximum x = true ↔
      ∀ c ∈ rangeConstraints f zero minimum maximum exminimum exmaximum, c.Holds v := by
  simp only [inRange, rangeConstraints]
  split
  · simp [Constraint.Holds, measures_iff hv, hle]
  · split
    · simp [Constraint.Holds, measures_iff hv, hlt]
    · simp

end Range

theorem multipleOf_iff {m i : Int} :
    (Constraint.multipleOf (.ofInt m)).Holds (.number (.ofInt i)) ↔ m ∣ i := by
  simp only [Constraint.Holds, Dbl.ofInt, Dbl.fin.injEq, Value.number.injEq]
  constructor
  · rintro ⟨k, q, rfl, h⟩
    refine ⟨k, ?_⟩
    have hcast : ((i : Int) : Rat) = ((m * k : Int) : Rat) := by
      rw [h, Rat.intCast_mul, Rat.mul_comm]
    exact Rat.intCast_inj.mp hcast
  · rintro ⟨k, rfl⟩
    exact ⟨k, m, rfl, by rw [Rat.intCast_mul, Rat.mul_comm]⟩

theorem checkIntValue_iff (t : TypeInteger) (i : Int32) :
    checkIntValue t i.toInt = some Err.succ ↔
      ∀ c ∈ t.constraints, c.Holds (.number (.ofInt i.toInt)) := by
  have hmin : intMin ≤ i.toInt := i.minValue_le_toInt
  have hrange := inRange_iff (v := .number (.ofInt i.toInt)) (fun _ _ => Dbl.ofInt_le_ofInt)
    (fun _ _ => Dbl.ofInt_lt_ofInt) rfl 0 t.minimum t.maximum t.exminimum t.exmaximum
  have habove : (Constraint.above (.ofInt intMin)).Holds (.number (.ofInt i.toInt)) ↔
      i.toInt ≠ intMin := by
    rw [Constraint.Holds, measures_iff rfl, Dbl.ofInt_lt_ofInt]
    omega
  simp only [checkIntValue, TypeInteger.constraints]
  by_cases henum : t.intEnum = []
  · rw [if_neg (not_not.mpr henum), if_neg (not_not.mpr henum), List.forall_mem_append,
      List.forall_mem_append, ← hrange]
    by_cases hzero : t.multiple = 0
    · simp [hzero]
    · rw [if_neg hzero, List.forall_mem_singleton, multipleOf_iff, Int.dvd_iff_tmod_eq_zero]
      by_cases hminus : t.multiple = -1
      · rw [if_pos hminus, List.forall_mem_singleton, habove]
        by_cases hi : i.toInt = intMin
        · simp [hminus, hi]
        · simp [hminus, hi]
      · by_cases hmod : i.toInt.tmod t.multiple = 0
        · simp [hminus, hmod]
        · simp [hzero, hminus, hmod]
  · simp [henum, Constraint.Holds, Dbl.ofInt_inj]

theorem checkDoubleValue_iff (t : TypeNumber) (d : Dbl) :
    checkDoubleValue t d = some Err.succ ↔ ∀ c ∈ t.constraints, c.Holds (.number d) := by
  have hrange := inRange_iff (f := id) (v := .number d) (fun _ _ => Iff.rfl)
    (fun _ _ => Iff.rfl) rfl (.fin 0) t.minimum t.maximum t.exminimum t.exmaximum
  simp only [checkDoubleValue, TypeNumber.constraints]
  by_cases henum : t.numEnum = []
  · rw [if_neg (not_not.mpr henum), if_neg (not_not.mpr henum), List.forall_mem_append, ← hrange]
    by_cases hzero : t.multiple = .fin 0
    · simp [hzero]
    · have hwhole : (Constraint.wholeQuotient t.multiple).Holds (.number d) ↔
          wholeQuotient d t.multiple = some true := by
        simp [Constraint.Holds]
      rw [if_neg hzero, if_neg hzero, List.forall_mem_singleton, hwhole]
      cases wholeQuotient d t.multiple with
      | none => simp
      | some whole => cases whole <;> simp
  · simp [henum, Constraint.Holds]

theorem checkStringValue_iff (t : TypeString) (s : Bytes) :
    checkStringValue t s = Err.succ ↔ ∀ c ∈ t.constraints, c.Holds (.string s) := by
  have hmeasure : measure (.string s) = some (.ofInt s.length) := rfl
  simp only [checkStringValue, TypeString.constraints]
  by_cases henum : t.strEnum = []
  · rw [if_neg (not_not.mpr henum), if_neg (not_not.mpr henum)]
    by_cases hkept : Kept 0 t.minLen t.maxLen
    · simp [hkept, Constraint.Holds, measures_iff hmeasure, Dbl.ofInt_le_ofInt]
    · simp [hkept]
  · simp [henum, Constraint.Holds]

/-! ## Values handed down -/

/-- The members that `check_object_value` sees: the root need not be an object. -/
def objectOf : Value → Option (List (Bytes × Value))
  | .object members => some members
  | .array (_ :: _) => none
  | _ => some []

/-- The tree that a value stands for, with its type. -/
inductive Shows : TslValue → DataType → Value → Prop
  | null : Shows (.bool false) .bool .null
  | bool (b : Bool) : Shows (.bool b) .bool (.bool b)
  | int (i : Int32) : Shows (.int i) .int (.number (.ofInt i.toInt))
  | double (d : Dbl) : Shows (.double d) .double (.number d)
  | string (s : CString) : Shows (.string s) .string (.string s.val)
  | array {text : CString} {items : List Value} (h : cJSONParse text.val = some (.array items)) :
      Shows (.array text) .array (.array items)
  | object {text : CString} {root : Value} {members : List (Bytes × Value)}
      (h : cJSONParse text.val = some root) (hroot : objectOf root = some members) :
      Shows (.object text) .object (.object members)

theorem Shows.sees {tv : TslValue} {type : DataType} {v : Value} (h : Shows tv type v) :
    Sees type v := by
  cases h with
  | null => exact .inl rfl
  | bool b => exact .inr ⟨b, rfl⟩
  | int i => exact ⟨i, rfl⟩
  | double d => exact ⟨d, rfl⟩
  | string s => exact ⟨_, rfl⟩
  | array => exact ⟨_, rfl⟩
  | object => exact ⟨_, rfl⟩

/-- A node that is the same after it has been handed down. -/
def Survives (p : Platform) (v : Value) : Prop :=
  IsText v ∧ (v.isContainer = true → cJSONParse (printValue p.printNumber v) = some v)

theorem cJSONParse_ofMem (mem : Bytes) : cJSONParse (CString.ofMem mem).val = cJSONParse mem := by
  have hcut : cstr (cstr mem) = cstr mem := cstr_of_no_zero (zero_not_mem_cstr mem)
  unfold cJSONParse
  rw [show (CString.ofMem mem).val = cstr mem from rfl, hcut]

theorem isInt_toInt {d : Dbl} (h : isInt d = true) :
    d = .ofInt (Int32.ofInt d.valueint).toInt := by
  simp only [isInt, decide_eq_true_eq] at h
  have hclamp := Dbl.valueint_ofInt d.valueint
  rw [← h.1] at hclamp
  have hrange : intMin ≤ d.valueint ∧ d.valueint ≤ intMax := by
    unfold intMax intMin at *
    omega
  rw [Int32.toInt_ofInt_of_le hrange.1 (Int.lt_add_one_of_le hrange.2)]
  exact h.1

theorem tranform_iff {p : Platform} {x : Value} (h : Survives p x) :
    (∃ tv, tranformValueFromJson p x = some tv) ↔ Copied p x := by
  cases x with
  | null => exact iff_of_true ⟨_, rfl⟩ trivial
  | bool b => exact iff_of_true ⟨_, rfl⟩ trivial
  | number d => exact iff_of_true ⟨_, rfl⟩ trivial
  | string s => simp [tranformValueFromJson, Copied]
  | array items => simp [tranformValueFromJson, Copied]
  | object members => simp [tranformValueFromJson, Copied]

theorem tranform_shows {p : Platform} {x : Value} {tv : TslValue} (h : Survives p x)
    (htv : tranformValueFromJson p x = some tv) : Shows tv (seenType x) x := by
  cases x with
  | null =>
      cases htv
      exact .null
  | bool b =>
      cases htv
      exact .bool b
  | number d =>
      cases htv
      by_cases hd : isInt d = true
      · rw [seenType, if_pos hd, if_pos hd]
        have hshows := Shows.int (Int32.ofInt d.valueint)
        rwa [← isInt_toInt hd] at hshows
      · rw [seenType, if_neg hd, if_neg hd]
        exact .double d
  | string s =>
      simp only [tranformValueFromJson, Option.ite_none_right_eq_some, Option.some.injEq] at htv
      rw [← htv.2]
      have hval : (CString.ofMem s).val = s := cstr_of_no_zero h.1
      have hshows := Shows.string (.ofMem s)
      rwa [hval] at hshows
  | array items =>
      simp only [tranformValueFromJson, Option.ite_none_right_eq_some, Option.some.injEq] at htv
      rw [← htv.2]
      exact .array ((cJSONParse_ofMem _).trans (h.2 rfl))
  | object members =>
      simp only [tranformValueFromJson, Option.ite_none_right_eq_some, Option.some.injEq] at htv
      rw [← htv.2]
      exact .object ((cJSONParse_ofMem _).trans (h.2 rfl)) rfl

/-! ## Loops -/

theorem checkEach_iff {α : Type} (p : Platform) (child : α → Value)
    (check : α → TslValue → Option Nat) (xs : List α) :
    checkEach p child check xs = some Err.succ ↔
      ∀ x ∈ xs, ∃ tv, tranformValueFromJson p (child x) = some tv ∧
        check x tv = some Err.succ := by
  induction xs with
  | nil => simp [checkEach]
  | cons x xs ih =>
      rw [List.forall_mem_cons, checkEach]
      cases htv : tranformValueFromJson p (child x) with
      | none => simp
      | some tv =>
          cases hret : check x tv with
          | none => simp [hret]
          | some ret =>
              by_cases hzero : ret = Err.succ
              · simp [hret, hzero, ih]
              · simp [hret, hzero]

theorem handed_iff {p : Platform} {x : Value} (h : Survives p x) {check : TslValue → Option Nat}
    {ok : Prop} (hcheck : ∀ tv, Shows tv (seenType x) x → (check tv = some Err.succ ↔ ok)) :
    (∃ tv, tranformValueFromJson p x = some tv ∧ check tv = some Err.succ) ↔ Copied p x ∧ ok := by
  rw [← tranform_iff h]
  constructor
  · rintro ⟨tv, htv, hok⟩
    exact ⟨⟨tv, htv⟩, (hcheck tv (tranform_shows h htv)).mp hok⟩
  · rintro ⟨⟨tv, htv⟩, hok⟩
    exact ⟨tv, htv, (hcheck tv (tranform_shows h htv)).mpr hok⟩

/-! ## Parsed schemas -/

/-- What a schema is parsed to, by its declared type. -/
inductive Parsed (p : Platform) (fuel : Nat) (js : Value) : SchemaDesc → Prop
  | zero (type : declaredType js = none) : Parsed p fuel js .zero
  | bool (type : declaredType js = some .bool) : Parsed p fuel js (.bool (storedKey js))
  | int {t : TypeInteger} (type : declaredType js = some .int) (ht : typeInteger p js = some t) :
      Parsed p fuel js (.int (storedKey js) t)
  | double (type : declaredType js = some .double) :
      Parsed p fuel js (.double (storedKey js) (typeNumber p js))
  | string (type : declaredType js = some .string) :
      Parsed p fuel js (.string (storedKey js) (typeString p js))
  | array {itemProp : List SchemaDesc} (type : declaredType js = some .array)
      (hitems : (checkedItem p js = none ∧ itemProp = []) ∨
        ∃ s r, checkedItem p js = some s ∧ parseSchema p fuel s = some r ∧ itemProp = [r.2]) :
      Parsed p fuel js (.array (storedKey js) (intField (numberKeyword js "mnitm"))
        (intField (numberKeyword js "mxitm")) itemProp)
  | object {props : List SchemaDesc} (type : declaredType js = some .object)
      (hprops : (checkedSchemas p js).mapM (memberSchema (parseSchema p fuel)) = some props) :
      Parsed p fuel js (.object (storedKey js) (intField (numberKeyword js "mnp"))
        (intField (numberKeyword js "mxp")) ((required p js).getD []) props)
  | max (type : declaredType js = some .max) : Parsed p fuel js (.max (storedKey js))

theorem parsed {p : Platform} {fuel : Nat} {js : Value} {rv : Nat} {desc : SchemaDesc}
    (h : parseSchema p (fuel + 1) js = some (rv, desc)) : Parsed p fuel js desc := by
  rw [parseSchema] at h
  split at h
  · rename_i type htype
    have hdecl : declaredType js = some (itemType type) := by rw [declaredType, htype]
    have hkey : (keyword js "key").elim [] textField = storedKey js := by rw [storedKey, htype]
    simp only [hkey] at h
    cases hitem : itemType type with
    | bool =>
        rw [hitem] at h hdecl
        cases h
        exact .bool hdecl
    | int =>
        rw [hitem] at h hdecl
        obtain ⟨t, ht, heq⟩ := Option.map_eq_some_iff.mp h
        cases heq
        exact .int hdecl ht
    | double =>
        rw [hitem] at h hdecl
        cases h
        exact .double hdecl
    | string =>
        rw [hitem] at h hdecl
        cases h
        exact .string hdecl
    | array =>
        rw [hitem] at h hdecl
        simp only at h
        split at h
        · rename_i members hitm
          have hschema : itemSchema js = some (.object members) := by rw [itemSchema, hitm]
          split at h
          · rename_i hmalloc
            obtain ⟨r, hr, heq⟩ := Option.map_eq_some_iff.mp h
            cases heq
            exact .array hdecl (.inr ⟨_, r, by rw [checkedItem, if_pos hmalloc, hschema], hr, rfl⟩)
          · rename_i hmalloc
            cases h
            exact .array hdecl (.inl ⟨by rw [checkedItem, if_neg hmalloc], rfl⟩)
        · rename_i hnone
          have hschema : itemSchema js = none := by
            rw [itemSchema]
            split
            · rename_i members hitm
              exact absurd hitm (hnone members)
            · rfl
          cases h
          exact .array hdecl (.inl ⟨by rw [checkedItem, hschema, ite_self], rfl⟩)
    | object =>
        rw [hitem] at h hdecl
        have hnil : ([] : List Value).mapM (memberSchema (parseSchema p fuel)) = some [] := rfl
        cases hreq : required p js with
        | none =>
            simp only [hreq] at h
            cases h
            have hobject : Parsed p fuel js (.object _ _ _ _ []) :=
              .object hdecl (by rw [checkedSchemas, hreq]; exact hnil)
            rwa [hreq] at hobject
        | some req =>
            cases hprop : property p js with
            | none =>
                simp only [hreq, hprop] at h
                cases h
                have hobject : Parsed p fuel js (.object _ _ _ _ []) :=
                  .object hdecl (by rw [checkedSchemas, hreq, hprop]; exact hnil)
                rwa [hreq] at hobject
            | some schemas =>
                simp only [hreq, hprop] at h
                obtain ⟨props, hprops, heq⟩ := Option.map_eq_some_iff.mp h
                cases heq
                have hobject := Parsed.object hdecl (by rw [checkedSchemas, hreq, hprop]; exact hprops)
                rwa [hreq] at hobject
    | max =>
        rw [hitem] at h hdecl
        cases h
        exact .max hdecl
  · rename_i hnone
    cases h
    refine .zero ?_
    rw [declaredType]
    split
    · rename_i type htype
      exact absurd htype (hnone type)
    · rfl

theorem parseSchema_propKey {p : Platform} {fuel : Nat} {js : Value} {rv : Nat} {desc : SchemaDesc}
    (h : parseSchema p fuel js = some (rv, desc)) : desc.propKey = storedKey js := by
  cases fuel with
  | zero => cases h
  | succ fuel =>
      cases parsed h with
      | zero type =>
          rw [declaredType] at type
          rw [storedKey]
          split at type
          · cases type
          · rfl
      | bool | int | double | string | array | object | max => rfl

theorem memberSchema_cases {p : Platform} {fuel : Nat} {s : Value} {desc : SchemaDesc}
    (h : memberSchema (parseSchema p fuel) s = some desc) :
    (∃ rv, parseSchema p fuel s = some (rv, desc)) ∨
      (declaredType s = none ∧ storedKey s = [] ∧ desc = .zero) := by
  cases s with
  | object members =>
      obtain ⟨r, hr, rfl⟩ := Option.map_eq_some_iff.mp h
      exact .inl ⟨r.1, hr⟩
  | null | bool | number | string | array =>
      cases h
      exact .inr ⟨rfl, rfl, rfl⟩

theorem memberSchema_propKey {p : Platform} {fuel : Nat} {s : Value} {desc : SchemaDesc}
    (h : memberSchema (parseSchema p fuel) s = some desc) : desc.propKey = storedKey s := by
  rcases memberSchema_cases h with ⟨rv, hparse⟩ | ⟨-, hkey, rfl⟩
  · exact parseSchema_propKey hparse
  · exact hkey.symm

theorem checkProperty_iff {p : Platform} {fuel : Nat} {schemas : List Value}
    {descs : List SchemaDesc} (h : schemas.mapM (memberSchema (parseSchema p fuel)) = some descs)
    {tv : TslValue} {ok : Value → Prop}
    (hok : ∀ s desc, memberSchema (parseSchema p fuel) s = some desc →
      (checkSchemaValue p desc tv = some Err.succ ↔ ok s)) (name : Bytes) :
    checkProperty p descs name tv = some Err.succ ↔
      ∃ s, schemas.find? (fun s => storedKey s = name) = some s ∧ ok s := by
  induction schemas generalizing descs with
  | nil =>
      cases h
      simp [checkProperty]
  | cons s schemas ih =>
      rw [List.mapM_cons] at h
      obtain ⟨desc, hdesc, h⟩ := Option.bind_eq_some_iff.mp h
      obtain ⟨rest, hrest, h⟩ := Option.bind_eq_some_iff.mp h
      cases h
      rw [checkProperty, memberSchema_propKey hdesc]
      by_cases hname : storedKey s = name
      · simp [hname, hok s desc hdesc]
      · rw [if_neg hname, List.find?_cons_of_neg (by simpa using hname)]
        exact ih hrest

/-! ## The validator -/

/-- A description checks what its schema enforces. -/
def Enforces (p : Platform) (js : Value) (desc : SchemaDesc) : Prop :=
  ∀ tv type v, Shows tv type v → (∀ x ∈ v.children, Each (Survives p) x) →
    (checkSchemaValue p desc tv = some Err.succ ↔ Accepts p js type v)

theorem Accepts.matches {p : Platform} {js v : Value} {type : DataType}
    (h : Accepts p js type v) : Matches js type := by
  cases h with
  | node _ matched => exact matched

theorem accepts_leaf {p : Platform} {js v : Value} {type : DataType} (hsees : Sees type v)
    (hmatch : Matches js type) (hv : v.children = []) :
    Accepts p js type v ↔ ∀ c ∈ enforced p js, c.Holds v := by
  obtain ⟨hitems, hmembers⟩ := List.append_eq_nil_iff.mp hv
  rw [List.map_eq_nil_iff] at hmembers
  constructor
  · intro h
    cases h with
    | node _ _ constraints => exact constraints
  · intro h
    refine .node hsees hmatch h ?_ ?_ ?_ ?_
    · rw [hv]
      nofun
    · rw [hitems]
      nofun
    · rw [hmembers]
      nofun
    · rw [hmembers]
      nofun

theorem accepts_array {p : Platform} {js : Value} {items : List Value}
    (hmatch : Matches js .array) :
    Accepts p js .array (.array items) ↔ (∀ c ∈ enforced p js, c.Holds (.array items)) ∧
      ∀ x ∈ items, Copied p x ∧
        ∀ s, checkedItem p js = some s → Accepts p s (seenType x) x := by
  constructor
  · intro h
    cases h with
    | node _ _ constraints copied hitems =>
        rw [children_array] at copied
        exact ⟨constraints, fun x hx => ⟨copied x hx, fun s hs => hitems s hs x hx⟩⟩
  · rintro ⟨hconstraints, hitems⟩
    refine .node ⟨_, rfl⟩ hmatch hconstraints ?_ (fun s hs x hx => (hitems x hx).2 s hs) ?_ ?_
    · rw [children_array]
      exact fun x hx => (hitems x hx).1
    · exact fun m hm => absurd hm List.not_mem_nil
    · exact fun m hm => absurd hm List.not_mem_nil

theorem accepts_object {p : Platform} {js : Value} {members : List (Bytes × Value)}
    (hmatch : Matches js .object) :
    Accepts p js .object (.object members) ↔ (∀ c ∈ enforced p js, c.Holds (.object members)) ∧
      ∀ m ∈ members, Copied p m.2 ∧
        ∃ s, schemaFor p js m.1 = some s ∧ Accepts p s (seenType m.2) m.2 := by
  constructor
  · intro h
    cases h with
    | node _ _ constraints copied _ known hmembers =>
        refine ⟨constraints, fun m hm => ⟨copied m.2 (List.mem_map_of_mem hm), ?_⟩⟩
        obtain ⟨s, hs⟩ := known m hm
        exact ⟨s, hs, hmembers m hm s hs⟩
  · rintro ⟨hconstraints, hmembers⟩
    refine .node ⟨_, rfl⟩ hmatch hconstraints (fun x hx => ?_) nofun (fun m hm => ?_)
      (fun m hm s hs => ?_)
    · obtain ⟨m, hm, rfl⟩ := List.mem_map.mp hx
      exact (hmembers m hm).1
    · obtain ⟨-, s, hs, -⟩ := hmembers m hm
      exact ⟨s, hs⟩
    · obtain ⟨-, s', hs', haccepts⟩ := hmembers m hm
      rw [hs] at hs'
      cases hs'
      exact haccepts

theorem enforced_of_none {p : Platform} {js : Value} (h : declaredType js = none) :
    enforced p js = [] := by
  rw [enforced, h]

theorem checkSchemaValue_mismatch {p : Platform} {fuel : Nat} {js : Value} {desc : SchemaDesc}
    (h : Parsed p fuel js desc) {tv : TslValue} (hmatch : ¬ Matches js tv.type) :
    checkSchemaValue p desc tv = some Err.valueType := by
  rw [Matches] at hmatch
  cases h with
  | zero type | bool type | int type | double type | string type | array type | object type
  | max type =>
      rw [type] at hmatch
      cases tv <;> simp [TslValue.type] at hmatch <;> simp [checkSchemaValue, SchemaDesc.zero]

theorem Shows.type {tv : TslValue} {type : DataType} {v : Value} (h : Shows tv type v) :
    tv.type = type := by
  cases h <;> rfl

/-- The root of an object value, seen as its members. -/
theorem objectOf_spec {root : Value} {members : List (Bytes × Value)}
    (h : objectOf root = some members) (p : Platform) (property : List SchemaDesc)
    (check : Bytes → TslValue → Option Nat) :
    arraySize root = members.length ∧
      (∀ name, root.getObjectItem name = (Value.object members).getObjectItem name) ∧
      checkRoot p property check root = checkMembers p check members := by
  cases root with
  | object ms =>
      cases h
      exact ⟨by simp [arraySize, Value.children, Value.items, Value.members], fun _ => rfl, rfl⟩
  | array items =>
      cases items with
      | nil =>
          cases h
          exact ⟨rfl, fun _ => rfl, rfl⟩
      | cons x xs => cases h
  | null | bool | number | string =>
      cases h
      exact ⟨rfl, fun _ => rfl, rfl⟩

theorem getObjectItem_isNone_iff (members : List (Bytes × Value)) (name : Bytes) :
    ((Value.object members).getObjectItem name).isNone = false ↔
      ∃ m ∈ members, sameName name m.1 = true := by
  simp [Value.getObjectItem]

theorem sameName_refl (name : Bytes) : sameName name name = true := by simp [sameName]

/-- Every member has a schema, so a required name in another letter case is one that
some schema is for. -/
theorem requiredConstraint_holds {p : Platform} {js : Value} {members : List (Bytes × Value)}
    (hknown : ∀ m ∈ members, ∃ s, schemaFor p js m.1 = some s) (name : Bytes) :
    (requiredConstraint p js name).Holds (.object members) ↔
      ∃ m ∈ members, sameName name m.1 = true := by
  rw [requiredConstraint]
  split
  · rename_i hall
    rw [List.all_eq_true] at hall
    constructor
    · rintro ⟨m, hm, rfl⟩
      exact ⟨m, hm, sameName_refl m.1⟩
    · rintro ⟨m, hm, hsame⟩
      obtain ⟨s, hs⟩ := hknown m hm
      have hkey : storedKey s = m.1 := by simpa using List.find?_some hs
      have hone := hall s (List.mem_of_find?_eq_some hs)
      rw [hkey, hsame] at hone
      exact ⟨m, hm, by simpa using hone⟩
  · exact Iff.rfl

theorem enforced_array_iff {p : Platform} {js : Value} (type : declaredType js = some .array)
    (items : List Value) :
    (∀ c ∈ enforced p js, c.Holds (.array items)) ↔
      ¬ (Kept 0 (intField (numberKeyword js "mnitm")) (intField (numberKeyword js "mxitm")) ∧
        intField (numberKeyword js "mnitm") < (items.length : Int)) := by
  have hmeasure : measure (.array items) = some (.ofInt items.length) := rfl
  rw [enforced, type]
  by_cases hkept : Kept 0 (intField (numberKeyword js "mnitm")) (intField (numberKeyword js "mxitm"))
  · simp [hkept, Constraint.Holds, measures_iff hmeasure, Dbl.ofInt_le_ofInt]
  · simp [hkept]

/-- The names are looked up in any letter case. -/
theorem enforced_object_iff {p : Platform} {js : Value} {members : List (Bytes × Value)}
    (type : declaredType js = some .object)
    (hknown : ∀ m ∈ members, ∃ s, schemaFor p js m.1 = some s) :
    (∀ c ∈ enforced p js, c.Holds (.object members)) ↔
      ¬ (Kept 0 (intField (numberKeyword js "mxp")) (intField (numberKeyword js "mnp")) ∧
        (intField (numberKeyword js "mxp") > (members.length : Int) ∨
          intField (numberKeyword js "mnp") < (members.length : Int))) ∧
      ((required p js).getD []).any
        (fun name => ((Value.object members).getObjectItem name).isNone) = false := by
  have hmeasure : measure (.object members) = some (.ofInt members.length) := rfl
  have hrequired : (∀ c ∈ ((required p js).getD []).map (requiredConstraint p js),
      c.Holds (.object members)) ↔ ((required p js).getD []).any
        (fun name => ((Value.object members).getObjectItem name).isNone) = false := by
    rw [List.forall_mem_map, List.any_eq_false]
    refine forall₂_congr fun name _ => ?_
    rw [requiredConstraint_holds hknown, ← getObjectItem_isNone_iff, Bool.not_eq_true]
  rw [enforced, type]
  simp only [List.forall_mem_append, hrequired]
  refine and_congr_left fun _ => ?_
  by_cases hkept : Kept 0 (intField (numberKeyword js "mxp")) (intField (numberKeyword js "mnp"))
  · simp [hkept, Constraint.Holds, measures_iff hmeasure, Dbl.ofInt_le_ofInt]
  · simp [hkept]

theorem enforces_array {p : Platform} {js : Value} {itemProp : List SchemaDesc}
    (type : declaredType js = some .array)
    (hitem : ∀ tv v, Shows tv (seenType v) v → (∀ x ∈ v.children, Each (Survives p) x) →
      (checkItem p itemProp Err.succ tv = some Err.succ ↔
        ∀ s, checkedItem p js = some s → Accepts p s (seenType v) v))
    (text : CString) (items : List Value) (hparse : cJSONParse text.val = some (.array items))
    (hsurvives : ∀ x ∈ (Value.array items).children, Each (Survives p) x) :
    checkSchemaValue p (.array (storedKey js) (intField (numberKeyword js "mnitm"))
        (intField (numberKeyword js "mxitm")) itemProp) (.array text) = some Err.succ ↔
      Accepts p js .array (.array items) := by
  have hmatch : Matches js .array := by rw [Matches, type]
  have heach : checkElements p (checkItem p itemProp Err.succ) items = some Err.succ ↔
      ∀ x ∈ items, Copied p x ∧
        ∀ s, checkedItem p js = some s → Accepts p s (seenType x) x := by
    refine (checkEach_iff p id _ items).trans (forall₂_congr fun x hx => ?_)
    have hx' := hsurvives x (List.mem_append_left _ hx)
    exact handed_iff hx'.here fun tv hshows => hitem tv x hshows hx'.child
  rw [accepts_array hmatch, enforced_array_iff type, ← heach, checkSchemaValue, hparse]
  simp only [or_self]
  split
  · simp_all
  · simp_all

theorem enforces_object {p : Platform} {js : Value} {props : List SchemaDesc}
    (type : declaredType js = some .object)
    (hmember : ∀ name tv v, Shows tv (seenType v) v → (∀ x ∈ v.children, Each (Survives p) x) →
      (checkProperty p props name tv = some Err.succ ↔
        ∃ s, schemaFor p js name = some s ∧ Accepts p s (seenType v) v))
    (text : CString) (root : Value) (members : List (Bytes × Value))
    (hparse : cJSONParse text.val = some root) (hroot : objectOf root = some members)
    (hsurvives : ∀ x ∈ (Value.object members).children, Each (Survives p) x) :
    checkSchemaValue p (.object (storedKey js) (intField (numberKeyword js "mnp"))
        (intField (numberKeyword js "mxp")) ((required p js).getD []) props) (.object text) =
        some Err.succ ↔
      Accepts p js .object (.object members) := by
  have hmatch : Matches js .object := by rw [Matches, type]
  obtain ⟨hsize, hget, hcheck⟩ := objectOf_spec hroot p props (checkProperty p props)
  have heach : checkMembers p (checkProperty p props) members = some Err.succ ↔
      ∀ m ∈ members, Copied p m.2 ∧
        ∃ s, schemaFor p js m.1 = some s ∧ Accepts p s (seenType m.2) m.2 := by
    refine (checkEach_iff p Prod.snd _ members).trans (forall₂_congr fun m hm => ?_)
    have hm' := hsurvives m.2 (List.mem_map_of_mem hm)
    exact handed_iff hm'.here fun tv hshows => hmember m.1 tv m.2 hshows hm'.child
  rw [accepts_object hmatch, checkSchemaValue, hparse]
  simp only [hcheck, hsize, hget]
  by_cases hmembers : ∀ m ∈ members, Copied p m.2 ∧
      ∃ s, schemaFor p js m.1 = some s ∧ Accepts p s (seenType m.2) m.2
  · have hknown : ∀ m ∈ members, ∃ s, schemaFor p js m.1 = some s := fun m hm =>
      (hmembers m hm).2.imp fun _ hs => hs.1
    rw [enforced_object_iff type hknown]
    split
    · rename_i hkept
      simp [hkept]
    · rename_i hkept
      split
      · rename_i hany
        simp [hany]
      · rename_i hany
        rw [heach]
        exact iff_of_true hmembers ⟨⟨hkept, by simpa using hany⟩, hmembers⟩
  · refine iff_of_false (fun h => hmembers ?_) fun h => hmembers h.2
    split at h
    · simp at h
    · split at h
      · simp at h
      · exact heach.mp h

theorem enforces_zero {p : Platform} {js : Value} (type : declaredType js = none) :
    Enforces p js .zero := by
  intro tv ty v hshows _
  by_cases hmatch : Matches js ty
  · have hleaf := accepts_leaf (p := p) hshows.sees hmatch
    rw [enforced_of_none type] at hleaf
    rw [Matches, type] at hmatch
    cases hshows with
    | null | bool => simp [hleaf rfl, checkSchemaValue, SchemaDesc.zero]
    | int | double | string | array | object => cases hmatch
  · refine iff_of_false ?_ fun haccepts => hmatch haccepts.matches
    rw [← hshows.type] at hmatch
    have hparsed : Parsed p 0 js .zero := .zero type
    rw [checkSchemaValue_mismatch hparsed hmatch]
    simp

theorem enforces_member {p : Platform} {fuel : Nat} {s : Value} {desc : SchemaDesc}
    (ih : ∀ js rv d, parseSchema p fuel js = some (rv, d) → Enforces p js d)
    (h : memberSchema (parseSchema p fuel) s = some desc) : Enforces p s desc := by
  rcases memberSchema_cases h with ⟨rv, hparse⟩ | ⟨type, -, rfl⟩
  · exact ih s rv desc hparse
  · exact enforces_zero type

theorem enforces_of_parsed {p : Platform} {fuel : Nat} {js : Value} {desc : SchemaDesc}
    (h : Parsed p fuel js desc)
    (ih : ∀ s rv d, parseSchema p fuel s = some (rv, d) → Enforces p s d) :
    Enforces p js desc := by
  intro tv ty v hshows hsurvives
  by_cases hmatch : Matches js ty
  · have hsees := hshows.sees
    have hleaf := accepts_leaf (p := p) hsees hmatch
    cases h with
    | zero type => exact enforces_zero type tv ty v hshows hsurvives
    | bool type =>
        rw [enforced, type] at hleaf
        rw [Matches, type] at hmatch
        cases hshows with
        | null | bool => simp [hleaf rfl, checkSchemaValue]
        | int | double | string | array | object => cases hmatch
    | int type ht =>
        rw [enforced, type, ht] at hleaf
        rw [Matches, type] at hmatch
        cases hshows with
        | int i => rw [hleaf rfl, checkSchemaValue, checkIntValue_iff]; rfl
        | null | bool | double | string | array | object => cases hmatch
    | double type =>
        rw [enforced, type] at hleaf
        rw [Matches, type] at hmatch
        cases hshows with
        | int i => rw [hleaf rfl, checkSchemaValue, checkDoubleValue_iff]
        | double d => rw [hleaf rfl, checkSchemaValue, checkDoubleValue_iff]
        | null | bool | string | array | object => rcases hmatch with hm | hm <;> cases hm
    | string type =>
        rw [enforced, type] at hleaf
        rw [Matches, type] at hmatch
        cases hshows with
        | string s =>
            rw [hleaf rfl, checkSchemaValue, Option.some.injEq, checkStringValue_iff]
        | null | bool | int | double | array | object => cases hmatch
    | array type hitems =>
        rw [Matches, type] at hmatch
        cases hshows with
        | array hparse =>
            refine enforces_array type (fun tv x hx hbelow => ?_) _ _ hparse hsurvives
            rcases hitems with ⟨hnone, rfl⟩ | ⟨s, r, hs, hr, rfl⟩
            · simp [checkItem, hnone]
            · have hcheck := ih s r.1 r.2 hr tv (seenType x) x hx hbelow
              rw [hs]
              simp only [Option.some.injEq, forall_eq']
              rw [← hcheck, checkItem]
              cases checkSchemaValue p r.2 tv with
              | none => simp
              | some ret => simp [checkItem]
        | null | bool | int | double | string | object => cases hmatch
    | object type hprops =>
        rw [Matches, type] at hmatch
        cases hshows with
        | object hparse hroot =>
            refine enforces_object type (fun name tv x hx hbelow => ?_) _ _ _ hparse hroot hsurvives
            exact checkProperty_iff hprops
              (fun s d hd => enforces_member ih hd tv _ x hx hbelow) name
        | null | bool | int | double | string | array => cases hmatch
    | max type =>
        rw [Matches, type] at hmatch
        cases hshows <;> cases hmatch
  · refine iff_of_false ?_ fun haccepts => hmatch haccepts.matches
    rw [← hshows.type] at hmatch
    rw [checkSchemaValue_mismatch h hmatch]
    simp

theorem enforces {p : Platform} {fuel : Nat} {js : Value} {rv : Nat} {desc : SchemaDesc}
    (h : parseSchema p fuel js = some (rv, desc)) : Enforces p js desc := by
  induction fuel generalizing js rv desc with
  | zero => cases h
  | succ fuel ih => exact enforces_of_parsed (parsed h) fun s rv d hparse => ih hparse

end EzIot.Tsl
