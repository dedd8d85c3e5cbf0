import EzIot.Tsl.Enforced

/-! # What the validator leaves out and what it adds

A value that passes satisfies the constraints that are enforced, so it is valid when it
also satisfies those that are written and not enforced. The other way round, a valid
value passes when it satisfies what is enforced and not written. Both are lists that
are read off the schema.
-/

namespace EzIot.Tsl

open CText CJson

/-! ## What is left out -/

/-- The constraints that the validator leaves out hold: those that are written and not
enforced, a type for `null`, and the schemas of elements and members that they are not
checked against. -/
inductive OmittedHold (p : Platform) : Value → Value → Prop
  | node {js v : Value} (type : declaredType js = some .bool → v ≠ .null)
      (constraints : ∀ c ∈ declared js, c ∉ enforced p js → c.Holds v)
      (items : ∀ s, checkedItem p js = some s → ∀ x ∈ v.items, OmittedHold p s x)
      (otherItems : ∀ s, itemSchema js = some s → checkedItem p js ≠ some s →
        ∀ x ∈ v.items, Valid s x)
      (members : ∀ s ∈ memberSchemas js, ∀ m ∈ v.members, memberName s = some m.1 →
        schemaFor p js m.1 = some s → OmittedHold p s m.2)
      (otherMembers : ∀ s ∈ memberSchemas js, ∀ m ∈ v.members, memberName s = some m.1 →
        schemaFor p js m.1 ≠ some s → Valid s m.2) : OmittedHold p js v

/-- What the validator adds holds: the type it takes an element or a member for, what is
enforced and not written, memory for the copies, and a schema for every member. A
schema with another name than the member is enforced as it is. -/
inductive ExcessMet (p : Platform) : Value → DataType → Value → Prop
  | node {js v : Value} {type : DataType} (int : declaredType js = some .int → type = .int)
      (untyped : declaredType js = none → type = .bool)
      (constraints : ∀ c ∈ enforced p js, c ∉ declared js → c.Holds v)
      (copied : ∀ x ∈ v.children, Copied p x)
      (items : ∀ s, checkedItem p js = some s → ∀ x ∈ v.items, ExcessMet p s (seenType x) x)
      (known : ∀ m ∈ v.members, ∃ s, schemaFor p js m.1 = some s)
      (members : ∀ m ∈ v.members, ∀ s, schemaFor p js m.1 = some s → memberName s = some m.1 →
        ExcessMet p s (seenType m.2) m.2)
      (misnamed : ∀ m ∈ v.members, ∀ s, schemaFor p js m.1 = some s → memberName s ≠ some m.1 →
        Accepts p s (seenType m.2) m.2) : ExcessMet p js type v

section Trees

variable {p : Platform} {js v : Value} {type : DataType}

theorem itemSchema_of_checkedItem {s : Value} (h : checkedItem p js = some s) :
    itemSchema js = some s := by
  rw [checkedItem] at h
  split at h
  · exact h
  · cases h

theorem mem_memberSchemas {s : Value} {name : Bytes} (h : schemaFor p js name = some s) :
    s ∈ memberSchemas js := by
  have hmem := List.mem_of_find?_eq_some h
  rw [checkedSchemas] at hmem
  split at hmem
  · cases hmem
  · cases hprop : property p js with
    | none =>
        rw [hprop] at hmem
        cases hmem
    | some schemas =>
        rw [hprop] at hmem
        obtain ⟨items, hitems, hs⟩ := mem_of_property hprop hmem
        rw [memberSchemas, hitems]
        exact hs

theorem sees_seenType (x : Value) : Sees (seenType x) x := by
  cases x with
  | null => exact .inl rfl
  | bool b => exact .inr ⟨b, rfl⟩
  | number d =>
      rw [seenType]
      split
      · rename_i hint
        exact ⟨_, congrArg Value.number (isInt_toInt hint)⟩
      · exact ⟨d, rfl⟩
  | string s => exact ⟨s, rfl⟩
  | array items => exact ⟨items, rfl⟩
  | object members => exact ⟨members, rfl⟩

theorem hasType_of_matches (hsees : Sees type v) (hmatch : Matches js type)
    (hnull : declaredType js = some .bool → v ≠ .null) : HasType js v := by
  rw [Matches] at hmatch
  rw [HasType]
  cases hdecl : declaredType js with
  | none => trivial
  | some t =>
      rw [hdecl] at hmatch
      cases t with
      | bool =>
          subst hmatch
          exact hsees.resolve_left (hnull hdecl)
      | double =>
          rcases hmatch with rfl | rfl
          · exact hsees
          · obtain ⟨i, rfl⟩ := hsees
            exact ⟨_, rfl⟩
      | int | string | array | object | max =>
          subst hmatch
          exact hsees

theorem matches_of_hasType (hsees : Sees type v) (htype : HasType js v)
    (hint : declaredType js = some .int → type = .int)
    (huntyped : declaredType js = none → type = .bool) : Matches js type := by
  rw [HasType] at htype
  rw [Matches]
  cases hdecl : declaredType js with
  | none => exact huntyped hdecl
  | some t =>
      rw [hdecl] at htype
      cases t with
      | int => exact hint hdecl
      | max => cases htype
      | bool | double | string | array | object =>
          obtain ⟨_, rfl⟩ := htype
          cases type <;> simp [Sees] at hsees ⊢

/-- A tree that is accepted is valid when the omitted constraints hold. -/
theorem Accepts.valid_iff (h : Accepts p js type v) : Valid js v ↔ OmittedHold p js v := by
  induction h with
  | @node js v type sees matched constraints copied items known members ihItems ihMembers =>
      constructor
      · intro hvalid
        cases hvalid with
        | node htype hconstraints hitems hmembers =>
            refine .node (fun hbool hnull => ?_) (fun c hc _ => hconstraints c hc)
              (fun s hs x hx => ?_) (fun s hs _ => hitems s hs)
              (fun s hmem m hm hname hs => ?_) (fun s hmem m hm hname _ => hmembers s hmem m hm hname)
            · rw [HasType, hbool] at htype
              obtain ⟨b, rfl⟩ := htype
              cases hnull
            · exact (ihItems s hs x hx).mp (hitems s (itemSchema_of_checkedItem hs) x hx)
            · exact (ihMembers m hm s hs).mp (hmembers s hmem m hm hname)
      · intro homitted
        cases homitted with
        | node htype hconstraints hitems hotherItems hmembers hotherMembers =>
            refine .node (hasType_of_matches sees matched htype) (fun c hc => ?_)
              (fun s hs x hx => ?_) (fun s hmem m hm hname => ?_)
            · by_cases henforced : c ∈ enforced p js
              · exact constraints c henforced
              · exact hconstraints c hc henforced
            · by_cases hchecked : checkedItem p js = some s
              · exact (ihItems s hchecked x hx).mpr (hitems s hchecked x hx)
              · exact hotherItems s hs hchecked x hx
            · by_cases hfor : schemaFor p js m.1 = some s
              · exact (ihMembers m hm s hfor).mpr (hmembers s hmem m hm hname hfor)
              · exact hotherMembers s hmem m hm hname hfor

theorem Accepts.excessMet (h : Accepts p js type v) (hvalid : Valid js v) :
    ExcessMet p js type v := by
  induction h with
  | @node js v type sees matched constraints copied items known members ihItems ihMembers =>
      cases hvalid with
      | node htype hconstraints hitems hmembers =>
          refine .node (fun hint => ?_) (fun huntyped => ?_) (fun c hc _ => constraints c hc) copied
            (fun s hs x hx => ?_) known (fun m hm s hs hname => ?_)
            (fun m hm s hs _ => members m hm s hs)
          · rwa [Matches, hint] at matched
          · rwa [Matches, huntyped] at matched
          · exact ihItems s hs x hx (hitems s (itemSchema_of_checkedItem hs) x hx)
          · exact ihMembers m hm s hs (hmembers s (mem_memberSchemas hs) m hm hname)

theorem ExcessMet.accepts (h : ExcessMet p js type v) (hsees : Sees type v)
    (hvalid : Valid js v) : Accepts p js type v := by
  induction h with
  | @node js v type int untyped constraints copied items known members misnamed ihItems ihMembers =>
      cases hvalid with
      | node htype hconstraints hitems hmembers =>
          refine .node hsees (matches_of_hasType hsees htype int untyped) (fun c hc => ?_) copied
            (fun s hs x hx => ?_) known (fun m hm s hs => ?_)
          · by_cases hdeclared : c ∈ declared js
            · exact hconstraints c hdeclared
            · exact constraints c hc hdeclared
          · exact ihItems s hs x hx (sees_seenType x)
              (hitems s (itemSchema_of_checkedItem hs) x hx)
          · by_cases hname : memberName s = some m.1
            · exact ihMembers m hm s hs hname (sees_seenType m.2)
                (hmembers s (mem_memberSchemas hs) m hm hname)
            · exact misnamed m hm s hs hname

end Trees

/-! ## Values -/

def TslValue.tree : TslValue → Option Value
  | .bool b => some (.bool b)
  | .int i => some (.number (.ofInt i.toInt))
  | .double d => some (.number d)
  | .string s => some (.string s.val)
  | .array text =>
      match cJSONParse text.val with
      | some (.array items) => some (.array items)
      | _ => none
  | .object text =>
      match cJSONParse text.val with
      | some (.object members) => some (.object members)
      | _ => none

def TslValue.Valid (js : Value) (tv : TslValue) : Prop := ∃ v, tv.tree = some v ∧ Tsl.Valid js v

def TslValue.OmittedHold (p : Platform) (js : Value) (tv : TslValue) : Prop :=
  ∃ v, tv.tree = some v ∧ Tsl.OmittedHold p js v

def TslValue.ExcessMet (p : Platform) (js : Value) (tv : TslValue) : Prop :=
  ∃ v, tv.tree = some v ∧ Tsl.ExcessMet p js tv.type v

/-- An array or object inside the value is the same after it has been printed. -/
def Reprints (p : Platform) (v : Value) : Prop :=
  v.isContainer = true → cJSONParse (printValue p.printNumber v) = some v

def TslValue.Reprints (p : Platform) (tv : TslValue) : Prop :=
  ∀ v, tv.tree = some v → ∀ x ∈ v.children, Each (Tsl.Reprints p) x

theorem tree_shows {tv : TslValue} {v : Value} (h : tv.tree = some v) : Shows tv tv.type v := by
  cases tv with
  | bool b =>
      cases h
      exact .bool b
  | int i =>
      cases h
      exact .int i
  | double d =>
      cases h
      exact .double d
  | string s =>
      cases h
      exact .string s
  | array text =>
      rw [TslValue.tree] at h
      split at h
      · rename_i items hparse
        cases h
        exact .array hparse
      · cases h
  | object text =>
      rw [TslValue.tree] at h
      split at h
      · rename_i members hparse
        cases h
        exact .object hparse rfl
      · cases h

/-- The texts inside a value are C texts. -/
theorem tree_isText {tv : TslValue} {v : Value} (h : tv.tree = some v) :
    (∀ x ∈ v.children, Each IsText x) ∧ ∀ x ∈ v.children, Fits 0 x := by
  cases tv with
  | bool | int | double | string =>
      cases h
      exact ⟨nofun, nofun⟩
  | array text | object text =>
      rw [TslValue.tree] at h
      split at h
      · rename_i hparse
        cases h
        obtain ⟨hfits, htext⟩ := formed_of_cJSONParse hparse
        refine ⟨htext.child, fun x hx => ?_⟩
        cases hfits with
        | node _ hbelow => exact (hbelow x hx).mono (Nat.zero_le _)
      · cases h

theorem tree_survives {p : Platform} {tv : TslValue} {v : Value} (h : tv.tree = some v)
    (hreprints : tv.Reprints p) : ∀ x ∈ v.children, Each (Survives p) x := fun x hx =>
  ((tree_isText h).1 x hx).and (hreprints v h x hx)

/-- The number of a node is a 32-bit integer. -/
def Integral : Value → Prop
  | .number d => ∃ i : Int32, d = .ofInt i.toInt
  | _ => True

theorem reprints_of_printable {p : Platform} {d : Nat} {x : Value} (hfits : Fits d x)
    (hprint : Each (Printable p.printNumber) x) : Each (Reprints p) x := by
  induction hfits with
  | node depth hbelow ih =>
      have hfits := Fits.mono (.node depth hbelow) (Nat.zero_le _)
      exact .node (fun hv => cJSONParse_printValue hv hfits hprint) fun y hy =>
        ih y hy (hprint.child y hy)

/-- Integers are printed so that they read back, however the library is built. -/
theorem reprints_of_integral {p : Platform} {tv : TslValue}
    (hprint : ∀ i : Int32, p.printNumber i.toInt = decimalInt i.toInt)
    (hint : ∀ v, tv.tree = some v → Each Integral v) : tv.Reprints p := by
  intro v htree x hx
  obtain ⟨htext, hfits⟩ := tree_isText htree
  refine reprints_of_printable (hfits x hx) ?_
  refine Each.imp (fun w hw => ?_) ((htext x hx).and ((hint v htree).child x hx))
  obtain ⟨htext, hintegral⟩ := hw
  cases w with
  | number d =>
      obtain ⟨i, rfl⟩ := hintegral
      have hlow := i.minValue_le_toInt
      have hhigh := i.toInt_le
      refine prints_decimalInt ?_ (hprint i)
      rw [Int32.toInt_minValue] at hlow
      rw [Int32.toInt_maxValue] at hhigh
      omega
  | null | bool | array => trivial
  | string | object => exact htext

theorem checkSchemaValue_iff {p : Platform} {fuel : Nat} {js v : Value} {rv : Nat}
    {desc : SchemaDesc} {tv : TslValue} (hparse : parseSchema p fuel js = some (rv, desc))
    (hreprints : tv.Reprints p) (htree : tv.tree = some v) :
    checkSchemaValue p desc tv = some Err.succ ↔ Accepts p js tv.type v :=
  enforces hparse tv tv.type v (tree_shows htree) (tree_survives htree hreprints)

/-- A value that the validator accepts is valid iff the constraints that the validator
leaves out hold. -/
theorem accepted_valid_iff (p : Platform) (js : Value) (desc : SchemaDesc) (tv : TslValue)
    (hparse : profileParseSchema p js = some (Err.succ, desc)) (hreprints : tv.Reprints p)
    (haccepted : checkSchemaValue p desc tv = some Err.succ) :
    tv.Valid js ↔ tv.OmittedHold p js := by
  refine exists_congr fun v => and_congr_right fun htree => ?_
  exact ((checkSchemaValue_iff hparse hreprints htree).mp haccepted).valid_iff

/-- Memory for everything, and numbers printed as integers. -/
def samplePlatform : Platform := ⟨fun _ => true, fun _ => true, fun q => decimalInt q.num⟩

theorem samplePlatform_printNumber (i : Int32) :
    samplePlatform.printNumber i.toInt = decimalInt i.toInt :=
  congrArg decimalInt (Rat.num_intCast i.toInt)

theorem exists_desc_of_run {js : Value} {tv : TslValue} {ret : Nat}
    (h : (profileParseSchema samplePlatform js).map (fun r =>
      (r.1, checkSchemaValue samplePlatform r.2 tv)) = some (Err.succ, some ret)) :
    ∃ desc, profileParseSchema samplePlatform js = some (Err.succ, desc) ∧
      checkSchemaValue samplePlatform desc tv = some ret := by
  obtain ⟨⟨rv, desc⟩, hparse, heq⟩ := Option.map_eq_some_iff.mp h
  cases congrArg Prod.fst heq
  exact ⟨desc, hparse, congrArg Prod.snd heq⟩

/-- An array of objects with one bounded member. -/
def listSchema : Value :=
  .object [(ascii "type", .string (ascii "arr")),
    (ascii "itm", .object [(ascii "type", .string (ascii "obj")),
      (ascii "req", .array [.string (ascii "p")]),
      (ascii "prop", .array [.object [(ascii "type", .string (ascii "int")),
        (ascii "key", .string (ascii "p")), (ascii "mn", .number (.ofInt 10)),
        (ascii "mx", .number (.ofInt 50))]])])]

def listValue : TslValue := .array (.lit "[\x7b\"p\":20\x7d]")

theorem listValue_tree :
    listValue.tree = some (.array [.object [(ascii "p", .number (.ofInt 20))]]) := by
  decide +kernel

theorem listValue_integral : ∀ v, listValue.tree = some v → Each Integral v := by
  intro v hv
  rw [listValue_tree] at hv
  cases hv
  have hnumber : Each Integral (.number (.ofInt 20)) := .node ⟨20, rfl⟩ nofun
  have hobject : Each Integral (.object [(ascii "p", .number (.ofInt 20))]) := by
    refine .node trivial fun x hx => ?_
    rw [show x = .number (.ofInt 20) by simpa [Value.children, Value.items, Value.members] using hx]
    exact hnumber
  refine .node trivial fun x hx => ?_
  rw [show x = .object [(ascii "p", .number (.ofInt 20))] by
    simpa [Value.children, Value.items, Value.members] using hx]
  exact hobject

theorem accepted_valid_iff_list :
    ∃ desc, profileParseSchema samplePlatform listSchema = some (Err.succ, desc) ∧
      checkSchemaValue samplePlatform desc listValue = some Err.succ ∧
      (listValue.Valid listSchema ↔ listValue.OmittedHold samplePlatform listSchema) := by
  have hrun : (profileParseSchema samplePlatform listSchema).map (fun r =>
      (r.1, checkSchemaValue samplePlatform r.2 listValue)) = some (Err.succ, some Err.succ) := by
    decide +kernel
  obtain ⟨desc, hparse, haccepted⟩ := exists_desc_of_run hrun
  exact ⟨desc, hparse, haccepted, accepted_valid_iff samplePlatform listSchema desc listValue hparse
    (reprints_of_integral samplePlatform_printNumber listValue_integral) haccepted⟩

/-- A lower bound alone. -/
def lowerBound : Value :=
  .object [(ascii "type", .string (ascii "int")), (ascii "mn", .number (.ofInt 5))]

/-- One to three integers. -/
def shortList : Value :=
  .object [(ascii "type", .string (ascii "arr")), (ascii "mnitm", .number (.ofInt 1)),
    (ascii "mxitm", .number (.ofInt 3)),
    (ascii "itm", .object [(ascii "type", .string (ascii "int"))])]

/-- An element too few, and a number below the only bound. -/
theorem bounds_omitted :
    (∃ desc, profileParseSchema samplePlatform shortList = some (Err.succ, desc) ∧
      checkSchemaValue samplePlatform desc (.array (.lit "[]")) = some Err.succ ∧
      ¬ (TslValue.array (.lit "[]")).Valid shortList) ∧
    ∃ desc, profileParseSchema samplePlatform lowerBound = some (Err.succ, desc) ∧
      checkSchemaValue samplePlatform desc (.int 4) = some Err.succ ∧
      ¬ (TslValue.int 4).Valid lowerBound := by
  constructor
  · have hrun : (profileParseSchema samplePlatform shortList).map (fun r =>
        (r.1, checkSchemaValue samplePlatform r.2 (.array (.lit "[]")))) =
        some (Err.succ, some Err.succ) := by decide +kernel
    obtain ⟨desc, hparse, haccepted⟩ := exists_desc_of_run hrun
    refine ⟨desc, hparse, haccepted, ?_⟩
    rintro ⟨v, htree, hvalid⟩
    have hempty : (TslValue.array (.lit "[]")).tree = some (.array []) := by decide +kernel
    rw [hempty] at htree
    cases htree
    cases hvalid with
    | node _ constraints =>
        obtain ⟨d, hd, hle⟩ := constraints (.atLeast (.ofInt 1)) (by decide +kernel)
        cases hd
        exact absurd hle (by decide +kernel)
  · have hrun : (profileParseSchema samplePlatform lowerBound).map (fun r =>
        (r.1, checkSchemaValue samplePlatform r.2 (.int 4))) = some (Err.succ, some Err.succ) := by
      decide +kernel
    obtain ⟨desc, hparse, haccepted⟩ := exists_desc_of_run hrun
    refine ⟨desc, hparse, haccepted, ?_⟩
    rintro ⟨v, htree, hvalid⟩
    cases htree
    cases hvalid with
    | node _ constraints =>
        obtain ⟨d, hd, hle⟩ := constraints (.atLeast (.ofInt 5)) (by decide +kernel)
        cases hd
        exact absurd hle (by decide +kernel)

/-- A valid value is accepted iff what the validator adds holds. -/
theorem valid_accepted_iff (p : Platform) (js : Value) (desc : SchemaDesc) (tv : TslValue)
    (hparse : profileParseSchema p js = some (Err.succ, desc)) (hreprints : tv.Reprints p)
    (hvalid : tv.Valid js) :
    checkSchemaValue p desc tv = some Err.succ ↔ tv.ExcessMet p js := by
  obtain ⟨v, htree, hvalid⟩ := hvalid
  rw [checkSchemaValue_iff hparse hreprints htree]
  constructor
  · exact fun haccepts => ⟨v, htree, haccepts.excessMet hvalid⟩
  · rintro ⟨v', htree', hexcess⟩
    rw [htree] at htree'
    cases htree'
    exact hexcess.accepts (tree_shows htree).sees hvalid

/-- Both bounds. -/
def boundedSchema : Value :=
  .object [(ascii "type", .string (ascii "int")), (ascii "mn", .number (.ofInt 10)),
    (ascii "mx", .number (.ofInt 50))]

theorem boundedSchema_valid : (TslValue.int 20).Valid boundedSchema := by
  refine ⟨_, rfl, .node ?_ (fun c hc => ?_) nofun nofun⟩
  · exact ⟨20, rfl⟩
  · have hdeclared : declared boundedSchema = [.atLeast (.ofInt 10), .atMost (.ofInt 50)] := by
      decide +kernel
    rw [hdeclared, List.mem_cons, List.mem_singleton] at hc
    rcases hc with rfl | rfl
    · exact ⟨_, rfl, by decide +kernel⟩
    · exact ⟨_, rfl, by decide +kernel⟩

theorem valid_accepted_iff_bounded :
    ∃ desc, profileParseSchema samplePlatform boundedSchema = some (Err.succ, desc) ∧
      (TslValue.int 20).Valid boundedSchema ∧
      checkSchemaValue samplePlatform desc (.int 20) = some Err.succ ∧
      (TslValue.int 20).ExcessMet samplePlatform boundedSchema := by
  have hrun : (profileParseSchema samplePlatform boundedSchema).map (fun r =>
      (r.1, checkSchemaValue samplePlatform r.2 (.int 20))) = some (Err.succ, some Err.succ) := by
    decide +kernel
  obtain ⟨⟨rv, desc⟩, hparse, heq⟩ := Option.map_eq_some_iff.mp hrun
  obtain ⟨hsucc, haccepts⟩ := Prod.mk.inj heq
  cases hsucc
  have hreprints : (TslValue.int 20).Reprints samplePlatform := by
    intro v htree
    cases htree
    nofun
  exact ⟨desc, hparse, boundedSchema_valid, haccepts, (valid_accepted_iff samplePlatform boundedSchema
    desc _ hparse hreprints boundedSchema_valid).mp haccepts⟩

def twoItems : TslValue := .array (.lit "[7,8]")

theorem twoItems_valid : twoItems.Valid shortList := by
  have htree : twoItems.tree = some (.array [.number (.ofInt 7), .number (.ofInt 8)]) := by
    decide +kernel
  have hitem (i : Int32) : Valid (.object [(ascii "type", .string (ascii "int"))])
      (.number (.ofInt i.toInt)) := by
    refine .node ⟨i, rfl⟩ (fun c hc => ?_) nofun nofun
    have hdeclared : declared (.object [(ascii "type", .string (ascii "int"))]) = [] := by
      decide +kernel
    rw [hdeclared] at hc
    cases hc
  refine ⟨_, htree, .node ⟨_, rfl⟩ (fun c hc => ?_) (fun s hs x hx => ?_) nofun⟩
  · have hdeclared : declared shortList = [.atLeast (.ofInt 1), .atMost (.ofInt 3)] := by
      decide +kernel
    rw [hdeclared, List.mem_cons, List.mem_singleton] at hc
    rcases hc with rfl | rfl
    · exact ⟨_, rfl, by decide +kernel⟩
    · exact ⟨_, rfl, by decide +kernel⟩
  · have hschema : itemSchema shortList = some (.object [(ascii "type", .string (ascii "int"))]) := by
      decide +kernel
    rw [hschema] at hs
    cases hs
    rcases List.mem_cons.mp hx with rfl | hx
    · exact hitem 7
    · rw [List.mem_singleton.mp hx]
      exact hitem 8

/-- The number of elements is compared with the lower bound as if it were the upper
one. -/
theorem two_items_rejected :
    ∃ desc, profileParseSchema samplePlatform shortList = some (Err.succ, desc) ∧
      twoItems.Valid shortList ∧
      checkSchemaValue samplePlatform desc twoItems = some Err.valueIllegal := by
  have hrun : (profileParseSchema samplePlatform shortList).map (fun r =>
      (r.1, checkSchemaValue samplePlatform r.2 twoItems)) =
        some (Err.succ, some Err.valueIllegal) := by
    decide +kernel
  obtain ⟨desc, hparse, hrejected⟩ := exists_desc_of_run hrun
  exact ⟨desc, hparse, twoItems_valid, hrejected⟩

end EzIot.Tsl
