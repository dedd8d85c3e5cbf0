import EzIot.CJson.Print

/-! # Printing trees

`cJSON_PrintUnformatted` of any tree. The text of a finite number depends on how the
library is built, so it is a parameter; an infinite one is printed as `null`. What is
printed is parsed back when each of its numbers is.
-/

namespace EzIot.CJson

open CText

/-! ## Nodes -/

def Value.items : Value → List Value
  | .array items => items
  | _ => []

def Value.members : Value → List (Bytes × Value)
  | .object members => members
  | _ => []

def Value.children (v : Value) : List Value := v.items ++ v.members.map Prod.snd

theorem children_array (items : List Value) : (Value.array items).children = items :=
  List.append_nil items

def Value.isContainer : Value → Bool
  | .array _ => true
  | .object _ => true
  | _ => false

/-- `P` holds of the tree and of every tree inside it. -/
inductive Each (P : Value → Prop) : Value → Prop
  | node {v : Value} (here : P v) (below : ∀ x ∈ v.children, Each P x) : Each P v

theorem Each.here {P : Value → Prop} {v : Value} (h : Each P v) : P v := by
  cases h with
  | node here _ => exact here

theorem Each.child {P : Value → Prop} {v : Value} (h : Each P v) : ∀ x ∈ v.children, Each P x := by
  cases h with
  | node _ below => exact below

theorem Each.and {P Q : Value → Prop} {v : Value} (h : Each P v) (h' : Each Q v) :
    Each (fun w => P w ∧ Q w) v := by
  induction h with
  | node here _ ih => exact .node ⟨here, h'.here⟩ fun x hx => ih x hx (h'.child x hx)

theorem Each.imp {P Q : Value → Prop} {v : Value} (hPQ : ∀ w, P w → Q w) (h : Each P v) :
    Each Q v := by
  induction h with
  | node here _ ih => exact .node (hPQ _ here) ih

/-- A tree that may stand at nesting depth `d`. -/
inductive Fits : Nat → Value → Prop
  | node {d : Nat} {v : Value} (depth : v.isContainer = true → d < nestingLimit)
      (below : ∀ x ∈ v.children, Fits (d + 1) x) : Fits d v

theorem Fits.mono {d d' : Nat} {v : Value} (h : Fits d v) (hle : d' ≤ d) : Fits d' v := by
  induction h generalizing d' with
  | node depth _ ih =>
      exact .node (fun hv => Nat.lt_of_le_of_lt hle (depth hv)) fun x hx =>
        ih x hx (Nat.succ_le_succ hle)

/-- The names and texts of a node are C texts. -/
def IsText : Value → Prop
  | .string s => (0 : UInt8) ∉ s
  | .object members => ∀ m ∈ members, (0 : UInt8) ∉ m.1
  | _ => True

/-! ## Printing -/

section Print

variable (printNumber : Rat → Bytes)

mutual

def printValue : Value → Bytes
  | .null => ascii "null"
  | .bool false => ascii "false"
  | .bool true => ascii "true"
  | .number (.inf _) => ascii "null"
  | .number (.fin q) => printNumber q
  | .string s => printString s
  | .array items => ch '[' :: (printElements items ++ [ch ']'])
  | .object members => ch '\x7b' :: (printPairs members ++ [ch '\x7d'])

def printElements : List Value → Bytes
  | [] => []
  | v :: vs => printValue v ++ (if vs = [] then [] else ch ',' :: printElements vs)

def printPairs : List (Bytes × Value) → Bytes
  | [] => []
  | m :: ms =>
      printString m.1 ++ ch ':' :: (printValue m.2 ++
        (if ms = [] then [] else ch ',' :: printPairs ms))

end

/-- The text of a number reads as that number. -/
structure Prints (q : Rat) : Prop where
  head : ∃ b t, printNumber q = b :: t ∧ (b = ch '-' ∨ isDigit b)
  token : ∀ b ∈ printNumber q, isNumberByte b = true
  length : (printNumber q).length ≤ 63
  value : strtod (printNumber q) = some (.fin q, [])

/-- A node that is printed exactly. -/
def Printable : Value → Prop
  | .number (.inf _) => False
  | .number (.fin q) => Prints printNumber q
  | .string s => (0 : UInt8) ∉ s
  | .object members => ∀ m ∈ members, (0 : UInt8) ∉ m.1
  | _ => True

variable {printNumber}

theorem parseNumber_prints {q : Rat} (h : Prints printNumber q) {r : Bytes} (hr : Delimited r) :
    parseNumber (printNumber q ++ r) = some (.number (.fin q), r) := by
  obtain ⟨c, r', rfl, hc⟩ := hr
  obtain ⟨b, t, heq, -⟩ := h.head
  have htoken : (printNumber q ++ c :: r').takeWhile isNumberByte = printNumber q := by
    rw [List.takeWhile_append_of_pos h.token, List.takeWhile_cons_of_neg (by simp [hc]),
      List.append_nil]
  have hpos : 0 ≠ (printNumber q).length := by
    rw [heq]
    simp
  unfold parseNumber
  simp only [htoken, List.take_of_length_le h.length, h.value, List.length_nil, Nat.sub_zero,
    List.drop_left]
  exact if_neg hpos

theorem printValue_head {v : Value} (h : Printable printNumber v) :
    ∃ b t, printValue printNumber v = b :: t ∧ 32 < b ∧ b ≠ ch ']' := by
  cases v with
  | null => exact ⟨_, _, rfl, by decide, by decide⟩
  | bool b => cases b <;> exact ⟨_, _, rfl, by decide, by decide⟩
  | number x =>
      cases x with
      | inf => cases h
      | fin q =>
          obtain ⟨b, t, heq, hb⟩ := Prints.head h
          refine ⟨b, t, heq, ?_⟩
          rcases hb with rfl | hb
          · decide
          · simp only [isDigit, Bool.and_eq_true, decide_eq_true_eq, UInt8.le_iff_toNat_le] at hb
            have hlow : 48 ≤ b.toNat := hb.1
            have hhigh : b.toNat ≤ 57 := hb.2
            refine ⟨UInt8.lt_iff_toNat_lt.mpr (by simpa using by omega), fun heq => ?_⟩
            rw [heq] at hhigh
            exact absurd hhigh (by decide)
  | string s => exact ⟨_, _, rfl, by decide, by decide⟩
  | array items => exact ⟨_, _, rfl, by decide, by decide⟩
  | object members => exact ⟨_, _, rfl, by decide, by decide⟩

theorem skipWhitespace_printValue {v : Value} (h : Printable printNumber v) (r : Bytes) :
    skipWhitespace (printValue printNumber v ++ r) = printValue printNumber v ++ r := by
  obtain ⟨b, t, heq, hb, -⟩ := printValue_head h
  rw [heq]
  exact skipWhitespace_cons hb _

/-- What a printed tree is parsed to in front of `r`. -/
def ReadsBack (printNumber : Rat → Bytes) (d : Nat) (v : Value) : Prop :=
  ∀ r, (v.isContainer = true ∨ Delimited r) →
    Derives d (printValue printNumber v ++ r) (.value v) r

theorem delimited_cons {c : UInt8} (hc : isNumberByte c = false) (r : Bytes) : Delimited (c :: r) :=
  ⟨c, r, rfl, hc⟩

theorem derives_elements {d : Nat} {v : Value} {vs : List Value}
    (hprint : ∀ x ∈ v :: vs, Printable printNumber x)
    (h : ∀ x ∈ v :: vs, ReadsBack printNumber d x) (r : Bytes) :
    Derives d (printElements printNumber (v :: vs) ++ ch ']' :: r) (.elements (v :: vs)) r := by
  induction vs generalizing v with
  | nil =>
      have hv := h v List.mem_cons_self (ch ']' :: r) (.inr (delimited_cons (by decide) r))
      rw [← skipWhitespace_printValue (hprint v List.mem_cons_self)] at hv
      have heq : printElements printNumber [v] = printValue printNumber v := by
        simp [printElements]
      rw [heq]
      exact .lastElement hv (skipWhitespace_cons (by decide) r)
  | cons w ws ih =>
      have hrest := ih (fun x hx => hprint x (List.mem_cons_of_mem v hx)) fun x hx =>
        h x (List.mem_cons_of_mem v hx)
      have hv := h v List.mem_cons_self
        (ch ',' :: (printElements printNumber (w :: ws) ++ ch ']' :: r))
        (.inr (delimited_cons (by decide) _))
      rw [← skipWhitespace_printValue (hprint v List.mem_cons_self)] at hv
      have heq : printElements printNumber (v :: w :: ws) ++ ch ']' :: r =
          printValue printNumber v ++
            ch ',' :: (printElements printNumber (w :: ws) ++ ch ']' :: r) := by
        rw [printElements, if_neg (List.cons_ne_nil w ws), List.append_assoc]
        rfl
      rw [heq]
      exact .nextElement hv (skipWhitespace_cons (by decide) _) hrest

theorem parseString_printName {name : Bytes} (h : (0 : UInt8) ∉ name) (u : Bytes) :
    parseString (skipWhitespace (printString name ++ u)) = some (name, u) := by
  have hwhite : skipWhitespace (printString name ++ u) = printString name ++ u :=
    skipWhitespace_cons (by decide) _
  rw [hwhite, parseString_printString h]

theorem derives_pairs {d : Nat} {m : Bytes × Value} {ms : List (Bytes × Value)}
    (hname : ∀ x ∈ m :: ms, (0 : UInt8) ∉ x.1)
    (hprint : ∀ x ∈ m :: ms, Printable printNumber x.2)
    (h : ∀ x ∈ m :: ms, ReadsBack printNumber d x.2) (r : Bytes) :
    Derives d (printPairs printNumber (m :: ms) ++ ch '\x7d' :: r) (.members (m :: ms)) r := by
  induction ms generalizing m with
  | nil =>
      have hv := h m List.mem_cons_self (ch '\x7d' :: r) (.inr (delimited_cons (by decide) r))
      rw [← skipWhitespace_printValue (hprint m List.mem_cons_self)] at hv
      have heq : printPairs printNumber [m] ++ ch '\x7d' :: r =
          printString m.1 ++ ch ':' :: (printValue printNumber m.2 ++ ch '\x7d' :: r) := by
        simp [printPairs]
      rw [heq]
      exact .lastMember (parseString_printName (hname m List.mem_cons_self) _)
        (skipWhitespace_cons (by decide) _) hv (skipWhitespace_cons (by decide) r)
  | cons n ns ih =>
      have hrest := ih (fun x hx => hname x (List.mem_cons_of_mem m hx))
        (fun x hx => hprint x (List.mem_cons_of_mem m hx))
        (fun x hx => h x (List.mem_cons_of_mem m hx))
      have hv := h m List.mem_cons_self
        (ch ',' :: (printPairs printNumber (n :: ns) ++ ch '\x7d' :: r))
        (.inr (delimited_cons (by decide) _))
      rw [← skipWhitespace_printValue (hprint m List.mem_cons_self)] at hv
      have heq : printPairs printNumber (m :: n :: ns) ++ ch '\x7d' :: r =
          printString m.1 ++ ch ':' :: (printValue printNumber m.2 ++
            ch ',' :: (printPairs printNumber (n :: ns) ++ ch '\x7d' :: r)) := by
        rw [printPairs, if_neg (List.cons_ne_nil n ns)]
        simp
      rw [heq]
      exact .nextMember (parseString_printName (hname m List.mem_cons_self) _)
        (skipWhitespace_cons (by decide) _) hv (skipWhitespace_cons (by decide) _) hrest

theorem readsBack {d : Nat} {v : Value} (hfits : Fits d v)
    (hprint : Each (Printable printNumber) v) : ReadsBack printNumber d v := by
  induction hfits with
  | @node d v depth _ ih =>
      intro r hr
      cases v with
      | null => exact .null d r
      | bool b =>
          cases b with
          | false => exact .false d r
          | true => exact .true d r
      | number x =>
          cases x with
          | inf neg => exact absurd hprint.here id
          | fin q =>
              have hq : Prints printNumber q := hprint.here
              have hnum := parseNumber_prints hq (hr.resolve_left nofun)
              obtain ⟨b, t, heq, hb⟩ := hq.head
              rw [heq] at hnum
              show Derives d (printNumber q ++ r) _ r
              rw [heq]
              exact .number hb hnum
      | string s => exact .string (parseString_printString hprint.here r)
      | array items =>
          have hprinted : printValue printNumber (.array items) ++ r =
              ch '[' :: (printElements printNumber items ++ ch ']' :: r) := by
            simp [printValue]
          rw [hprinted]
          cases items with
          | nil => exact .emptyArray (depth rfl) (skipWhitespace_cons (by decide) r)
          | cons x xs =>
              have hmem : ∀ y ∈ x :: xs, y ∈ (Value.array (x :: xs)).children := fun y hy =>
                List.mem_append_left _ hy
              have helems := derives_elements (fun y hy => (hprint.child y (hmem y hy)).here)
                (fun y hy => ih y (hmem y hy) (hprint.child y (hmem y hy))) r
              obtain ⟨b, t, heq, hb, hclose⟩ :=
                printValue_head (hprint.child x (hmem x List.mem_cons_self)).here
              have htext : printElements printNumber (x :: xs) ++ ch ']' :: r =
                  b :: (t ++ (if xs = [] then [] else ch ',' :: printElements printNumber xs) ++
                    ch ']' :: r) := by
                rw [printElements, heq, List.cons_append, List.cons_append]
              rw [htext] at helems ⊢
              exact .array (depth rfl) (skipWhitespace_cons hb _) hclose helems
      | object members =>
          have hprinted : printValue printNumber (.object members) ++ r =
              ch '\x7b' :: (printPairs printNumber members ++ ch '\x7d' :: r) := by
            simp [printValue]
          rw [hprinted]
          cases members with
          | nil => exact .emptyObject (depth rfl) (skipWhitespace_cons (by decide) r)
          | cons m ms =>
              have hmem : ∀ y ∈ m :: ms, y.2 ∈ (Value.object (m :: ms)).children := fun y hy =>
                List.mem_append_right _ (List.mem_map_of_mem hy)
              have hpairs := derives_pairs hprint.here
                (fun y hy => (hprint.child y.2 (hmem y hy)).here)
                (fun y hy => ih y.2 (hmem y hy) (hprint.child y.2 (hmem y hy))) r
              obtain ⟨t, htext⟩ : ∃ t, printPairs printNumber (m :: ms) ++ ch '\x7d' :: r =
                  ch '"' :: t := ⟨_, rfl⟩
              rw [htext] at hpairs ⊢
              exact .object (depth rfl) (skipWhitespace_cons (by decide) t) (by decide) hpairs

/-! ## The printed text -/

theorem zero_not_mem_printElements {vs : List Value}
    (h : ∀ x ∈ vs, (0 : UInt8) ∉ printValue printNumber x) :
    (0 : UInt8) ∉ printElements printNumber vs := by
  induction vs with
  | nil => exact List.not_mem_nil
  | cons v vs ih =>
      have hv := h v List.mem_cons_self
      have hvs := ih fun x hx => h x (List.mem_cons_of_mem v hx)
      by_cases hnil : vs = []
      · simp [printElements, hnil, hv]
      · simp [printElements, hnil, hv, hvs]

theorem zero_not_mem_printPairs {ms : List (Bytes × Value)}
    (h : ∀ x ∈ ms, (0 : UInt8) ∉ x.1 ∧ (0 : UInt8) ∉ printValue printNumber x.2) :
    (0 : UInt8) ∉ printPairs printNumber ms := by
  induction ms with
  | nil => exact List.not_mem_nil
  | cons m ms ih =>
      obtain ⟨hname, hv⟩ := h m List.mem_cons_self
      have hs := zero_not_mem_printString m.1 hname
      have hms := ih fun x hx => h x (List.mem_cons_of_mem m hx)
      by_cases hnil : ms = []
      · simp [printPairs, hnil, hv, hs]
      · simp [printPairs, hnil, hv, hms, hs]

theorem zero_not_mem_printTexts {v : Value}
    (h : Each (fun w => IsText w ∧ ∀ q, w = .number (.fin q) → (0 : UInt8) ∉ printNumber q) v) :
    (0 : UInt8) ∉ printValue printNumber v := by
  induction h with
  | @node v here _ ih =>
      cases v with
      | null => exact (by decide : (0 : UInt8) ∉ ascii "null")
      | bool b =>
          cases b with
          | false => exact (by decide : (0 : UInt8) ∉ ascii "false")
          | true => exact (by decide : (0 : UInt8) ∉ ascii "true")
      | number x =>
          cases x with
          | inf neg => exact (by decide : (0 : UInt8) ∉ ascii "null")
          | fin q => exact here.2 q rfl
      | string s => exact zero_not_mem_printString s here.1
      | array items =>
          have hitems : (0 : UInt8) ∉ printElements printNumber items :=
            zero_not_mem_printElements fun x hx => ih x (List.mem_append_left _ hx)
          simp [printValue, hitems]
      | object members =>
          have hpairs := zero_not_mem_printPairs fun x hx =>
            ⟨here.1 x hx, ih x.2 (List.mem_append_right _ (List.mem_map_of_mem hx))⟩
          simp [printValue, hpairs]

theorem Printable.isText {v : Value} (h : Printable printNumber v) : IsText v := by
  cases v with
  | string | object => exact h
  | _ => trivial

theorem zero_not_mem_printValue {v : Value} (h : Each (Printable printNumber) v) :
    (0 : UInt8) ∉ printValue printNumber v := by
  refine zero_not_mem_printTexts (h.imp fun w hw => ⟨hw.isText, ?_⟩)
  rintro q rfl hmem
  exact absurd (Prints.token hw 0 hmem) (by decide)

theorem length_printPairs_ge {m : Bytes × Value} {ms : List (Bytes × Value)} (h : m ∈ ms) :
    (printValue printNumber m.2).length ≤ (printPairs printNumber ms).length := by
  induction ms with
  | nil => exact absurd h List.not_mem_nil
  | cons x ms ih =>
      rw [printPairs, List.length_append, List.length_cons, List.length_append]
      rcases List.mem_cons.mp h with rfl | hmem
      · omega
      · have hrest := ih hmem
        rw [if_neg (List.ne_nil_of_mem hmem), List.length_cons]
        omega

theorem length_printValue_member {m : Bytes × Value} {ms : List (Bytes × Value)} (h : m ∈ ms) :
    (printValue printNumber m.2).length < (printValue printNumber (.object ms)).length := by
  have hpairs : (printValue printNumber m.2).length ≤ (printPairs printNumber ms).length :=
    length_printPairs_ge h
  rw [printValue, List.length_cons, List.length_append]
  omega

theorem skipBom_printValue {v : Value} (hv : v.isContainer = true) :
    skipBom (printValue printNumber v) = printValue printNumber v := by
  cases v with
  | null | bool | number | string => cases hv
  | array | object => rw [skipBom, if_neg (by simp [printValue])]

theorem cJSONParse_printValue {v : Value} (hv : v.isContainer = true) (hfits : Fits 0 v)
    (hprint : Each (Printable printNumber) v) :
    cJSONParse (printValue printNumber v) = some v := by
  have hder := readsBack hfits hprint [] (.inl hv)
  rw [List.append_nil] at hder
  have hskip : skipWhitespace (skipBom (printValue printNumber v)) = printValue printNumber v := by
    rw [skipBom_printValue hv, ← List.append_nil (printValue printNumber v)]
    exact skipWhitespace_printValue hprint.here []
  have hfound : parseValue _ 0 _ = some _ := hder.found (Nat.le_refl _)
  unfold cJSONParse
  rw [cstr_of_no_zero (zero_not_mem_printValue hprint)]
  simp only [hskip]
  exact Option.map_eq_some_iff.mpr ⟨_, hfound, rfl⟩

/-- The text of an array or an object is complete only as a whole. -/
theorem cJSONParse_prefix {v : Value} (hv : v.isContainer = true) (hfits : Fits 0 v)
    (hprint : Each (Printable printNumber) v) {t b : Bytes}
    (ht : printValue printNumber v = t ++ b) (hb : b ≠ []) : cJSONParse t = none := by
  have hder := readsBack hfits hprint [] (.inl hv)
  rw [List.append_nil, ht] at hder
  have hz : (0 : UInt8) ∉ t := fun hmem =>
    zero_not_mem_printValue hprint (ht ▸ List.mem_append_left b hmem)
  unfold cJSONParse
  rw [cstr_of_no_zero hz]
  cases t with
  | nil => rfl
  | cons c u =>
      have hc : c = ch '[' ∨ c = ch '\x7b' := by
        cases v with
        | null | bool | number | string => cases hv
        | array items =>
            rw [printValue] at ht
            exact .inl (List.cons.inj ht).1.symm
        | object members =>
            rw [printValue] at ht
            exact .inr (List.cons.inj ht).1.symm
      have hskip : skipWhitespace (skipBom (c :: u)) = c :: u := by
        rcases hc with rfl | rfl
        · rw [skipBom, if_neg (by simp)]
          exact skipWhitespace_cons (by decide) u
        · rw [skipBom, if_neg (by simp)]
          exact skipWhitespace_cons (by decide) u
      simp only [hskip]
      rw [Option.map_eq_none_iff, Option.eq_none_iff_forall_ne_some]
      rintro ⟨w, r⟩ hparse
      have hshort := (sound _).value _ _ _ _ hparse
      -- what is complete in the beginning would leave the rest of the text over
      have hlong := hshort.append b fun hnumber => by
        obtain ⟨x, hx⟩ := hnumber
        cases hx
        cases hshort with
        | number hfirst =>
            rcases hc with rfl | rfl
            · exact absurd hfirst (by decide)
            · exact absurd hfirst (by decide)
      have hwhole : parseValue (2 * (c :: u ++ b).length + 1) 0 (c :: u ++ b) = some (v, []) :=
        hder.found (Nat.le_refl _)
      have hrest : parseValue (2 * (c :: u ++ b).length + 1) 0 (c :: u ++ b) = some (w, r ++ b) :=
        hlong.found (Nat.le_refl _)
      rw [hwhole, Option.some_inj, Prod.mk.injEq] at hrest
      exact hb (List.append_eq_nil_iff.mp hrest.2.symm).2

end Print

/-! ## Integers -/

/-- `%ld`, and `%1.15g` of an integer with at most 15 digits. -/
def decimalInt (i : Int) : Bytes :=
  if i < 0 then ch '-' :: decimal i.natAbs else decimal i.natAbs

theorem strtod_minus_decimal {n : Nat} (h : n < 10 ^ 15) :
    strtod (ch '-' :: decimal n) = some (.ofInt (-n), []) := by
  have hall : ∀ b ∈ decimal n, isDigit b := fun b => isDigit_of_mem_decimal
  have htake : (decimal n).takeWhile isDigit = decimal n := List.takeWhile_eq_self_iff.mpr hall
  have hdrop : (decimal n).dropWhile isDigit = [] := List.dropWhile_eq_nil_iff.mpr hall
  have hround : binary64 ((-n : Int) : Rat) = .ofInt (-n) := by
    apply binary64_intCast
    rw [Int.natAbs_neg, Int.natAbs_natCast]
    omega
  have hsign : takeSign (ch '-' :: decimal n) = (true, decimal n) := rfl
  unfold strtod
  simp only [hsign, htake, hdrop, takeFraction, takeExponent, decimal_ne_nil, false_and, if_false,
    List.append_nil, digitsValue_decimal, decimalValue]
  simpa using hround

theorem prints_decimalInt {printNumber : Rat → Bytes} {i : Int} (hi : i.natAbs < 10 ^ 15)
    (h : printNumber i = decimalInt i) : Prints printNumber i := by
  have hdigit : ∀ b ∈ decimal i.natAbs, isNumberByte b = true := by
    intro b hb
    simp [isNumberByte, isDigit_of_mem_decimal hb]
  have hlen := length_decimal (show 0 < 15 by decide) hi
  by_cases hneg : i < 0
  · have hi' : -(i.natAbs : Int) = i := by omega
    rw [decimalInt, if_pos hneg] at h
    refine ⟨⟨_, _, h, .inl rfl⟩, ?_, ?_, ?_⟩ <;> rw [h]
    · simpa using ⟨by decide, hdigit⟩
    · rw [List.length_cons]
      omega
    · rw [strtod_minus_decimal hi, hi']
      rfl
  · have hi' : (i.natAbs : Int) = i := by omega
    rw [decimalInt, if_neg hneg] at h
    obtain ⟨b, t, heq⟩ := List.exists_cons_of_ne_nil (decimal_ne_nil i.natAbs)
    have hb : isDigit b := isDigit_of_mem_decimal (heq ▸ List.mem_cons_self)
    refine ⟨⟨b, t, h.trans heq, .inr hb⟩, ?_, ?_, ?_⟩ <;> rw [h]
    · exact hdigit
    · omega
    · rw [strtod_decimal hi, hi']
      rfl

/-! ## Parsed trees -/

/-- What a derivation says about the depth and the texts of its trees. -/
def Formed (d : Nat) : Item → Prop
  | .value v => Fits d v ∧ Each IsText v
  | .elements vs => ∀ x ∈ vs, Fits d x ∧ Each IsText x
  | .members ms => ∀ m ∈ ms, (0 : UInt8) ∉ m.1 ∧ Fits d m.2 ∧ Each IsText m.2

theorem zero_not_mem_parseString {t s r : Bytes} (h : parseString t = some (s, r)) :
    (0 : UInt8) ∉ s := by
  obtain ⟨-, -, s', -, -, -, rfl⟩ := parseString_eq_some h
  exact zero_not_mem_cstr s'

theorem formed_leaf {d : Nat} {v : Value} (hleaf : v.isContainer = false) (hchild : v.children = [])
    (htext : IsText v) : Formed d (.value v) := by
  refine ⟨.node (fun hv => ?_) fun x hx => ?_, .node htext fun x hx => ?_⟩
  · rw [hleaf] at hv
    cases hv
  all_goals
    rw [hchild] at hx
    cases hx

theorem Derives.formed {d : Nat} {t r : Bytes} {item : Item} (h : Derives d t item r) :
    Formed d item := by
  induction h with
  | null => exact formed_leaf rfl rfl trivial
  | false => exact formed_leaf rfl rfl trivial
  | true => exact formed_leaf rfl rfl trivial
  | string h => exact formed_leaf rfl rfl (zero_not_mem_parseString h)
  | number => exact formed_leaf rfl rfl trivial
  | emptyArray hd => exact ⟨.node (fun _ => hd) nofun, .node trivial nofun⟩
  | array hd _ _ _ ih =>
      refine ⟨.node (fun _ => hd) fun x hx => (ih x ?_).1, .node trivial fun x hx => (ih x ?_).2⟩
      all_goals simpa [Value.children, Value.items, Value.members] using hx
  | emptyObject hd => exact ⟨.node (fun _ => hd) nofun, .node nofun nofun⟩
  | object hd _ _ _ ih =>
      refine ⟨.node (fun _ => hd) fun x hx => ?_, .node (fun m hm => (ih m hm).1) fun x hx => ?_⟩
      all_goals
        obtain ⟨m, hm, rfl⟩ := List.mem_map.mp hx
      · exact (ih m hm).2.1
      · exact (ih m hm).2.2
  | lastElement _ _ ih =>
      intro x hx
      rw [List.mem_singleton] at hx
      rw [hx]
      exact ih
  | nextElement _ _ _ ih ihrest =>
      intro x hx
      rcases List.mem_cons.mp hx with rfl | hx
      · exact ih
      · exact ihrest x hx
  | lastMember hs _ _ _ ih =>
      intro x hx
      rw [List.mem_singleton] at hx
      rw [hx]
      exact ⟨zero_not_mem_parseString hs, ih⟩
  | nextMember hs _ _ _ _ ih ihrest =>
      intro x hx
      rcases List.mem_cons.mp hx with rfl | hx
      · exact ⟨zero_not_mem_parseString hs, ih⟩
      · exact ihrest x hx

theorem Formed.child {d : Nat} {v x : Value} (h : Formed d (.value v)) (hx : x ∈ v.children) :
    Formed d (.value x) := by
  obtain ⟨hfits, htext⟩ := h
  cases hfits with
  | node _ below => exact ⟨(below x hx).mono (Nat.le_succ d), htext.child x hx⟩

theorem Formed.getObjectItem {d : Nat} {v x : Value} {name : Bytes} (h : Formed d (.value v))
    (hx : v.getObjectItem name = some x) : Formed d (.value x) := by
  cases v with
  | object members =>
      obtain ⟨m, hfind, rfl⟩ := Option.map_eq_some_iff.mp hx
      exact h.child (List.mem_append_right _
        (List.mem_map_of_mem (List.mem_of_find?_eq_some hfind)))
  | _ => cases hx

theorem formed_of_cJSONParse {mem : Bytes} {v : Value} (h : cJSONParse mem = some v) :
    Formed 0 (.value v) := by
  unfold cJSONParse at h
  obtain ⟨r, hparse, rfl⟩ := Option.map_eq_some_iff.mp h
  exact ((sound _).value _ _ _ _ hparse).formed

end EzIot.CJson
