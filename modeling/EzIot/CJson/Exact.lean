import EzIot.CJson.Tree

/-! # Which trees are printed exactly

The text that is printed for a number need not be read as that number. A printed array or
object is read back exactly if each number in it is.
-/

namespace EzIot.CJson

open CText

/-- A byte that stands behind a value inside brackets. -/
def isSeparator (b : UInt8) : Bool := b == ch ',' || b == ch ']' || b == ch '\x7d'

/-- What both builds of `print_number` keep to: a sign or a digit comes first, and no byte
is white or separates values. -/
structure NumberTexts (printNumber : Rat → Bytes) : Prop where
  head : ∀ q, ∃ b t, printNumber q = b :: t ∧ (b = ch '-' ∨ isDigit b)
  body : ∀ q, ∀ b ∈ printNumber q, 32 < b ∧ isSeparator b = false

def Ends (r : Bytes) : Prop := ∃ c u, skipWhitespace r = c :: u ∧ isSeparator c = true

theorem isNumberByte_of_isSeparator {c : UInt8} (h : isSeparator c = true) :
    isNumberByte c = false := by
  simp only [isSeparator, Bool.or_eq_true, beq_iff_eq] at h
  rcases h with (rfl | rfl) | rfl
  all_goals decide

theorem ends_cons {c : UInt8} (h : isSeparator c = true) (hwhite : 32 < c) (r : Bytes) :
    Ends (c :: r) := ⟨c, r, skipWhitespace_cons hwhite r, h⟩

theorem Ends.delimited {r : Bytes} (h : Ends r) : Delimited r := by
  obtain ⟨c, u, hskip, hc⟩ := h
  exact delimited_of_skipWhitespace hskip (isNumberByte_of_isSeparator hc)

theorem Derives.rest_unique {d : Nat} {t r r' : Bytes} {v : Value} (h : Derives d t (.value v) r)
    (h' : Derives d t (.value v) r') : r = r' := by
  have hfound : parseValue (2 * t.length + 1) d t = some (v, r) := h.found (Nat.le_refl _)
  have hfound' : parseValue (2 * t.length + 1) d t = some (v, r') := h'.found (Nat.le_refl _)
  rw [hfound, Option.some_inj, Prod.mk.injEq] at hfound'
  exact hfound'.2

/-! ## What a derivation was made of -/

theorem Derives.elements_cons {d : Nat} {t r : Bytes} {v : Value} {vs : List Value}
    (h : Derives d t (.elements (v :: vs)) r) :
    ∃ u, Derives d (skipWhitespace t) (.value v) u ∧
      (vs = [] ∧ skipWhitespace u = ch ']' :: r ∨
        vs ≠ [] ∧ ∃ u', skipWhitespace u = ch ',' :: u' ∧ Derives d u' (.elements vs) r) := by
  cases h with
  | lastElement hv hclose => exact ⟨_, hv, .inl ⟨rfl, hclose⟩⟩
  | nextElement hv hcomma hrest =>
      refine ⟨_, hv, .inr ⟨?_, _, hcomma, hrest⟩⟩
      rintro rfl
      cases hrest

theorem Derives.members_cons {d : Nat} {t r : Bytes} {m : Bytes × Value}
    {ms : List (Bytes × Value)} (h : Derives d t (.members (m :: ms)) r) :
    ∃ n u w, parseString (skipWhitespace t) = some (m.1, n) ∧
      skipWhitespace n = ch ':' :: u ∧ Derives d (skipWhitespace u) (.value m.2) w ∧
      (ms = [] ∧ skipWhitespace w = ch '\x7d' :: r ∨
        ms ≠ [] ∧ ∃ w', skipWhitespace w = ch ',' :: w' ∧ Derives d w' (.members ms) r) := by
  cases h with
  | lastMember hs hcolon hv hclose => exact ⟨_, _, _, hs, hcolon, hv, .inl ⟨rfl, hclose⟩⟩
  | nextMember hs hcolon hv hcomma hrest =>
      refine ⟨_, _, _, hs, hcolon, hv, .inr ⟨?_, _, hcomma, hrest⟩⟩
      rintro rfl
      cases hrest

theorem Derives.array_cons {d : Nat} {t r : Bytes} {v : Value} {vs : List Value}
    (h : Derives d (ch '[' :: t) (.value (.array (v :: vs))) r) :
    Derives (d + 1) (skipWhitespace t) (.elements (v :: vs)) r := by
  generalize htext : ch '[' :: t = text at h
  cases h with
  | array _ ht _ helems =>
      rw [(List.cons.inj htext).2, ht]
      exact helems

theorem Derives.object_cons {d : Nat} {t r : Bytes} {m : Bytes × Value} {ms : List (Bytes × Value)}
    (h : Derives d (ch '\x7b' :: t) (.value (.object (m :: ms))) r) :
    Derives (d + 1) (skipWhitespace t) (.members (m :: ms)) r := by
  generalize htext : ch '\x7b' :: t = text at h
  cases h with
  | object _ ht _ hpairs =>
      rw [(List.cons.inj htext).2, ht]
      exact hpairs

theorem Derives.numeral {d : Nat} {t r : Bytes} {x : Dbl} (h : Derives d t (.value (.number x)) r) :
    parseNumber t = some (.number x, r) ∧ ∃ b u, t = b :: u ∧ (b = ch '-' ∨ isDigit b) := by
  cases h with
  | number hb hparse => exact ⟨hparse, _, _, rfl, hb⟩

section Exact

variable {printNumber : Rat → Bytes}

/-! ## Numbers -/

theorem takeWhile_prefix_of_delimited (text : Bytes) {r : Bytes} (hr : Delimited r) :
    (text ++ r).takeWhile isNumberByte = text.takeWhile isNumberByte := by
  obtain ⟨c, r', rfl, hc⟩ := hr
  rw [List.takeWhile_append, List.takeWhile_cons_of_neg (by simp [hc])]
  split
  · next hlen =>
      rw [List.append_nil]
      exact ((List.takeWhile_prefix _).eq_of_length hlen).symm
  · rfl

/-- A number that is read from its text in front of a separator is the whole text. -/
theorem prints_of_derives (htexts : NumberTexts printNumber) {d : Nat} {q : Rat} {r r' : Bytes}
    (h : Derives d (printNumber q ++ r) (.value (.number (.fin q))) r') (hr : Delimited r)
    (hend : Ends r') : Prints printNumber q := by
  obtain ⟨hparse, -⟩ := h.numeral
  unfold parseNumber at hparse
  rw [takeWhile_prefix_of_delimited _ hr] at hparse
  have hprefix : ((printNumber q).takeWhile isNumberByte).take 63 <+: printNumber q :=
    (List.take_prefix _ _).trans (List.takeWhile_prefix _)
  generalize htoken : ((printNumber q).takeWhile isNumberByte).take 63 = token at hparse hprefix
  dsimp only at hparse
  split at hparse
  · cases hparse
  · next x unused hstrtod =>
      split at hparse
      · cases hparse
      · cases hparse
        have hle := hprefix.length_le
        -- a byte that is left over would be the next one, and is no separator
        have hwhole : (printNumber q).length ≤ token.length - unused.length := by
          by_contra hless
          rw [Nat.not_le] at hless
          rw [List.drop_append_of_le_length (Nat.le_of_lt hless),
            List.drop_eq_getElem_cons hless, List.cons_append] at hend
          obtain ⟨hwhite, hsep⟩ := htexts.body q _ (List.getElem_mem hless)
          obtain ⟨c, u, hskip, hc⟩ := hend
          rw [skipWhitespace_cons hwhite] at hskip
          rw [(List.cons.inj hskip).1, hc] at hsep
          cases hsep
        have htokenEq : token = printNumber q := hprefix.eq_of_length (by omega)
        have hpos : 0 < (printNumber q).length := by
          obtain ⟨b, t, heq, -⟩ := htexts.head q
          rw [heq]
          exact Nat.succ_pos _
        have hunused : unused = [] := List.length_eq_zero_iff.mp (by omega)
        rw [htokenEq] at htoken hstrtod
        refine ⟨htexts.head q, fun b hb => ?_, ?_, hunused ▸ hstrtod⟩
        · rw [← htoken] at hb
          exact List.mem_takeWhile_imp (List.mem_of_mem_take hb)
        · rw [← htoken]
          exact List.length_take_le _ _

/-! ## Trees -/

theorem printValue_head_of_texts (htexts : NumberTexts printNumber) (v : Value) :
    ∃ b t, printValue printNumber v = b :: t ∧ 32 < b := by
  cases v with
  | null => exact ⟨_, _, rfl, by decide⟩
  | bool b => cases b <;> exact ⟨_, _, rfl, by decide⟩
  | number x =>
      cases x with
      | inf => exact ⟨_, _, rfl, by decide⟩
      | fin q =>
          obtain ⟨b, t, heq, -⟩ := htexts.head q
          exact ⟨b, t, heq, (htexts.body q b (heq ▸ List.mem_cons_self)).1⟩
  | string s => exact ⟨_, _, rfl, by decide⟩
  | array items => exact ⟨_, _, rfl, by decide⟩
  | object members => exact ⟨_, _, rfl, by decide⟩

theorem skipWhitespace_printed (htexts : NumberTexts printNumber) (v : Value) (r : Bytes) :
    skipWhitespace (printValue printNumber v ++ r) = printValue printNumber v ++ r := by
  obtain ⟨b, t, heq, hb⟩ := printValue_head_of_texts htexts v
  rw [heq]
  exact skipWhitespace_cons hb _

/-- Wherever the tree is read from its text in front of a separator, it is printed exactly. -/
def ReadOnlyExact (printNumber : Rat → Bytes) (d : Nat) (v : Value) : Prop :=
  ∀ r r', Derives d (printValue printNumber v ++ r) (.value v) r' →
    (v.isContainer = true ∨ Ends r ∧ Ends r') → Each (Printable printNumber) v

theorem printable_elements (htexts : NumberTexts printNumber) {d : Nat} {v : Value}
    {vs : List Value} (hfits : ∀ x ∈ v :: vs, Fits d x)
    (hexact : ∀ x ∈ v :: vs, ReadOnlyExact printNumber d x) {r r' : Bytes}
    (h : Derives d (printElements printNumber (v :: vs) ++ ch ']' :: r) (.elements (v :: vs)) r') :
    ∀ x ∈ v :: vs, Each (Printable printNumber) x := by
  have hhead := hexact v List.mem_cons_self
  induction vs generalizing v with
  | nil =>
      have heq : printElements printNumber [v] = printValue printNumber v := by
        simp [printElements]
      obtain ⟨u, hv, ⟨-, hclose⟩ | ⟨hne, -⟩⟩ := h.elements_cons
      · rw [heq, skipWhitespace_printed htexts] at hv
        intro x hx
        rw [List.mem_singleton.mp hx]
        exact hhead _ _ hv (.inr ⟨ends_cons (by decide) (by decide) r, _, _, hclose, by decide⟩)
      · exact absurd rfl hne
  | cons w ws ih =>
      have heq : printElements printNumber (v :: w :: ws) ++ ch ']' :: r =
          printValue printNumber v ++
            ch ',' :: (printElements printNumber (w :: ws) ++ ch ']' :: r) := by
        rw [printElements, if_neg (List.cons_ne_nil w ws), List.append_assoc]
        rfl
      obtain ⟨u, hv, ⟨hnil, -⟩ | ⟨-, u', hcomma, hrest⟩⟩ := h.elements_cons
      · exact absurd hnil (List.cons_ne_nil w ws)
      · rw [heq, skipWhitespace_printed htexts] at hv
        have hprint : Each (Printable printNumber) v :=
          hhead _ _ hv (.inr ⟨ends_cons (by decide) (by decide) _, _, _, hcomma, by decide⟩)
        have hback := readsBack (hfits v List.mem_cons_self) hprint
          (ch ',' :: (printElements printNumber (w :: ws) ++ ch ']' :: r))
          (.inr (delimited_cons (by decide) _))
        rw [hv.rest_unique hback, skipWhitespace_cons (by decide)] at hcomma
        rw [← (List.cons.inj hcomma).2] at hrest
        have hall := ih (fun x hx => hfits x (List.mem_cons_of_mem v hx))
          (fun x hx => hexact x (List.mem_cons_of_mem v hx)) hrest
          (hexact w (List.mem_cons_of_mem v List.mem_cons_self))
        exact List.forall_mem_cons.mpr ⟨hprint, hall⟩

theorem printable_pairs (htexts : NumberTexts printNumber) {d : Nat} {m : Bytes × Value}
    {ms : List (Bytes × Value)} (hname : ∀ x ∈ m :: ms, (0 : UInt8) ∉ x.1)
    (hfits : ∀ x ∈ m :: ms, Fits d x.2)
    (hexact : ∀ x ∈ m :: ms, ReadOnlyExact printNumber d x.2) {r r' : Bytes}
    (h : Derives d (printPairs printNumber (m :: ms) ++ ch '\x7d' :: r) (.members (m :: ms)) r') :
    ∀ x ∈ m :: ms, Each (Printable printNumber) x.2 := by
  have hhead := hexact m List.mem_cons_self
  have hnameHead := hname m List.mem_cons_self
  induction ms generalizing m with
  | nil =>
      have heq : printPairs printNumber [m] ++ ch '\x7d' :: r =
          printString m.1 ++ ch ':' :: (printValue printNumber m.2 ++ ch '\x7d' :: r) := by
        simp [printPairs]
      obtain ⟨n, u, w, hs, hcolon, hv, ⟨-, hclose⟩ | ⟨hne, -⟩⟩ := h.members_cons
      · rw [heq, parseString_printName hnameHead] at hs
        rw [← (Prod.mk.inj (Option.some_inj.mp hs)).2, skipWhitespace_cons (by decide)] at hcolon
        rw [← (List.cons.inj hcolon).2, skipWhitespace_printed htexts] at hv
        intro x hx
        rw [List.mem_singleton.mp hx]
        exact hhead _ _ hv (.inr ⟨ends_cons (by decide) (by decide) r, _, _, hclose, by decide⟩)
      · exact absurd rfl hne
  | cons n ns ih =>
      have heq : printPairs printNumber (m :: n :: ns) ++ ch '\x7d' :: r =
          printString m.1 ++ ch ':' :: (printValue printNumber m.2 ++
            ch ',' :: (printPairs printNumber (n :: ns) ++ ch '\x7d' :: r)) := by
        rw [printPairs, if_neg (List.cons_ne_nil n ns)]
        simp
      obtain ⟨a, u, w, hs, hcolon, hv, ⟨hnil, -⟩ | ⟨-, w', hcomma, hrest⟩⟩ := h.members_cons
      · exact absurd hnil (List.cons_ne_nil n ns)
      · rw [heq, parseString_printName hnameHead] at hs
        rw [← (Prod.mk.inj (Option.some_inj.mp hs)).2, skipWhitespace_cons (by decide)] at hcolon
        rw [← (List.cons.inj hcolon).2, skipWhitespace_printed htexts] at hv
        have hprint : Each (Printable printNumber) m.2 :=
          hhead _ _ hv (.inr ⟨ends_cons (by decide) (by decide) _, _, _, hcomma, by decide⟩)
        have hback := readsBack (hfits m List.mem_cons_self) hprint
          (ch ',' :: (printPairs printNumber (n :: ns) ++ ch '\x7d' :: r))
          (.inr (delimited_cons (by decide) _))
        rw [hv.rest_unique hback, skipWhitespace_cons (by decide)] at hcomma
        rw [← (List.cons.inj hcomma).2] at hrest
        have hall := ih (fun x hx => hname x (List.mem_cons_of_mem m hx))
          (fun x hx => hfits x (List.mem_cons_of_mem m hx))
          (fun x hx => hexact x (List.mem_cons_of_mem m hx)) hrest
          (hexact n (List.mem_cons_of_mem m List.mem_cons_self))
          (hname n (List.mem_cons_of_mem m List.mem_cons_self))
        exact List.forall_mem_cons.mpr ⟨hprint, hall⟩

theorem Each.leaf {P : Value → Prop} {v : Value} (hchild : v.children = []) (here : P v) : Each P v :=
  .node here (by simp [hchild])

theorem readOnlyExact (htexts : NumberTexts printNumber) {d : Nat} {v : Value}
    (hfits : Fits d v) (htext : Each IsText v) : ReadOnlyExact printNumber d v := by
  induction hfits with
  | @node d v depth below ih =>
      intro r r' h hend
      cases v with
      | null => exact .leaf rfl trivial
      | bool => exact .leaf rfl trivial
      | string => exact .leaf rfl htext.here
      | number x =>
          obtain ⟨hr, hr'⟩ := hend.resolve_left Bool.false_ne_true
          cases x with
          | inf =>
              obtain ⟨-, b, u, hprinted, hb⟩ := h.numeral
              rw [← (List.cons.inj hprinted).1] at hb
              exact absurd hb (by decide)
          | fin q => exact .leaf rfl (prints_of_derives htexts h hr.delimited hr')
      | array items =>
          cases items with
          | nil => exact .leaf rfl trivial
          | cons x xs =>
              have hmem : ∀ y ∈ x :: xs, y ∈ (Value.array (x :: xs)).children := fun y hy =>
                List.mem_append_left _ hy
              have hprinted : printValue printNumber (.array (x :: xs)) ++ r =
                  ch '[' :: (printElements printNumber (x :: xs) ++ ch ']' :: r) := by
                simp [printValue]
              have hskip : skipWhitespace (printElements printNumber (x :: xs) ++ ch ']' :: r) =
                  printElements printNumber (x :: xs) ++ ch ']' :: r := by
                rw [printElements, List.append_assoc]
                exact skipWhitespace_printed htexts x _
              rw [hprinted] at h
              have helems := h.array_cons
              rw [hskip] at helems
              have hall := printable_elements htexts (fun y hy => below y (hmem y hy))
                (fun y hy => ih y (hmem y hy) (htext.child y (hmem y hy))) helems
              refine .node trivial fun y hy => hall y ?_
              rwa [children_array] at hy
      | object members =>
          cases members with
          | nil => exact .leaf rfl htext.here
          | cons m ms =>
              have hmem : ∀ y ∈ m :: ms, y.2 ∈ (Value.object (m :: ms)).children := fun y hy =>
                List.mem_append_right _ (List.mem_map_of_mem hy)
              have hprinted : printValue printNumber (.object (m :: ms)) ++ r =
                  ch '\x7b' :: (printPairs printNumber (m :: ms) ++ ch '\x7d' :: r) := by
                simp [printValue]
              have hskip : skipWhitespace (printPairs printNumber (m :: ms) ++ ch '\x7d' :: r) =
                  printPairs printNumber (m :: ms) ++ ch '\x7d' :: r :=
                skipWhitespace_cons (by decide) _
              rw [hprinted] at h
              have hpairs := h.object_cons
              rw [hskip] at hpairs
              have hall := printable_pairs htexts htext.here (fun y hy => below y.2 (hmem y hy))
                (fun y hy => ih y.2 (hmem y hy) (htext.child y.2 (hmem y hy))) hpairs
              refine .node htext.here fun y hy => ?_
              obtain ⟨p, hp, rfl⟩ := List.mem_map.mp hy
              exact hall p hp

/-! ## Whole texts -/

/-- A printed array or object is read back exactly if each number in it is. -/
theorem cJSONParse_printValue_iff (htexts : NumberTexts printNumber) {v : Value}
    (hv : v.isContainer = true) (hfits : Fits 0 v) (htext : Each IsText v) :
    cJSONParse (printValue printNumber v) = some v ↔ Each (Printable printNumber) v := by
  refine ⟨fun h => ?_, cJSONParse_printValue hv hfits⟩
  have hzero : (0 : UInt8) ∉ printValue printNumber v :=
    zero_not_mem_printTexts (htext.imp fun w hw => ⟨hw, fun q _ hmem =>
      absurd (htexts.body q 0 hmem).1 (by decide)⟩)
  unfold cJSONParse at h
  rw [cstr_of_no_zero hzero, skipBom_printValue hv] at h
  have hskip := skipWhitespace_printed htexts v []
  rw [List.append_nil] at hskip
  rw [hskip] at h
  obtain ⟨⟨w, r⟩, hparse, hw⟩ := Option.map_eq_some_iff.mp h
  rw [show w = v from hw, ← List.append_nil (printValue printNumber v)] at hparse
  exact readOnlyExact htexts hfits htext _ _ ((sound _).value _ _ _ _ hparse) (.inl hv)

end Exact

/-! ## Integers -/

theorem not_isSeparator_of_isNumberByte {b : UInt8} (h : isNumberByte b = true) :
    32 < b ∧ isSeparator b = false := by
  constructor
  · by_contra hwhite
    rw [isNumberByte_of_white (UInt8.not_lt.mp hwhite)] at h
    cases h
  · by_contra hsep
    rw [isNumberByte_of_isSeparator (Bool.not_eq_false _ ▸ hsep)] at h
    cases h

/-- A printer of numbers that stops in front of the point: `%ld`. -/
def integerTexts (q : Rat) : Bytes := decimalInt (q.num.tdiv q.den)

theorem numberTexts_integerTexts : NumberTexts integerTexts := by
  refine ⟨fun q => ?_, fun q b hb => not_isSeparator_of_isNumberByte ?_⟩
  · obtain ⟨b, t, heq⟩ := List.exists_cons_of_ne_nil (decimal_ne_nil (q.num.tdiv q.den).natAbs)
    have hb : isDigit b = true := isDigit_of_mem_decimal (heq ▸ List.mem_cons_self)
    unfold integerTexts decimalInt
    split
    · exact ⟨_, _, rfl, .inl rfl⟩
    · exact ⟨b, t, heq, .inr hb⟩
  · have hdigit : ∀ b ∈ decimal (q.num.tdiv q.den).natAbs, isNumberByte b = true := fun b hb => by
      simp [isNumberByte, isDigit_of_mem_decimal hb]
    unfold integerTexts decimalInt at hb
    split at hb
    · rcases List.mem_cons.mp hb with rfl | hmem
      · decide
      · exact hdigit b hmem
    · exact hdigit b hb

theorem prints_integerTexts {i : Int} (hi : i.natAbs < 10 ^ 15) : Prints integerTexts i :=
  prints_decimalInt hi (by simp [integerTexts])

theorem printable_integers (is : List Int) (his : ∀ i ∈ is, i.natAbs < 10 ^ 15) :
    Each (Printable integerTexts) (.array (is.map fun i => .number (.ofInt i))) := by
  refine .node trivial fun x hx => ?_
  rw [children_array] at hx
  obtain ⟨i, hi, rfl⟩ := List.mem_map.mp hx
  exact .leaf rfl (prints_integerTexts (his i hi))

end EzIot.CJson
