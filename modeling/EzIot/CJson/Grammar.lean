import EzIot.CJson.Parse

/-! # Derivations of the parser

`Derives depth t item r` says that an item stands at the start of `t` and that
`r` is left. The parser finds exactly the derivations, with fuel linear in the
text, and a derivation does not depend on what follows the text it consumed: a
value that is not a number ends where it ends, and inside brackets so does a
number.
-/

namespace EzIot.CJson

open CText

inductive Item
  | value (v : Value)
  | elements (vs : List Value)
  | members (ms : List (Bytes × Value))

inductive Derives : Nat → Bytes → Item → Bytes → Prop
  | null (d : Nat) (r : Bytes) : Derives d (ascii "null" ++ r) (.value .null) r
  | false (d : Nat) (r : Bytes) : Derives d (ascii "false" ++ r) (.value (.bool false)) r
  | true (d : Nat) (r : Bytes) : Derives d (ascii "true" ++ r) (.value (.bool true)) r
  | string {d : Nat} {t s r : Bytes} (h : parseString t = some (s, r)) :
      Derives d t (.value (.string s)) r
  | number {d : Nat} {b : UInt8} {t r : Bytes} {x : Dbl} (hb : b = ch '-' ∨ isDigit b)
      (h : parseNumber (b :: t) = some (.number x, r)) :
      Derives d (b :: t) (.value (.number x)) r
  | emptyArray {d : Nat} {t r : Bytes} (hd : d < nestingLimit)
      (ht : skipWhitespace t = ch ']' :: r) : Derives d (ch '[' :: t) (.value (.array [])) r
  | array {d : Nat} {t t' r : Bytes} {c : UInt8} {vs : List Value} (hd : d < nestingLimit)
      (ht : skipWhitespace t = c :: t') (hc : c ≠ ch ']')
      (h : Derives (d + 1) (c :: t') (.elements vs) r) :
      Derives d (ch '[' :: t) (.value (.array vs)) r
  | emptyObject {d : Nat} {t r : Bytes} (hd : d < nestingLimit)
      (ht : skipWhitespace t = ch '\x7d' :: r) :
      Derives d (ch '\x7b' :: t) (.value (.object [])) r
  | object {d : Nat} {t t' r : Bytes} {c : UInt8} {ms : List (Bytes × Value)}
      (hd : d < nestingLimit) (ht : skipWhitespace t = c :: t') (hc : c ≠ ch '\x7d')
      (h : Derives (d + 1) (c :: t') (.members ms) r) :
      Derives d (ch '\x7b' :: t) (.value (.object ms)) r
  | lastElement {d : Nat} {t r r' : Bytes} {v : Value}
      (h : Derives d (skipWhitespace t) (.value v) r) (hr : skipWhitespace r = ch ']' :: r') :
      Derives d t (.elements [v]) r'
  | nextElement {d : Nat} {t r r' u : Bytes} {v : Value} {vs : List Value}
      (h : Derives d (skipWhitespace t) (.value v) r) (hr : skipWhitespace r = ch ',' :: r')
      (hrest : Derives d r' (.elements vs) u) : Derives d t (.elements (v :: vs)) u
  | lastMember {d : Nat} {t s r r' u u' : Bytes} {v : Value}
      (hs : parseString (skipWhitespace t) = some (s, r)) (hr : skipWhitespace r = ch ':' :: r')
      (h : Derives d (skipWhitespace r') (.value v) u)
      (hu : skipWhitespace u = ch '\x7d' :: u') : Derives d t (.members [(s, v)]) u'
  | nextMember {d : Nat} {t s r r' u u' w : Bytes} {v : Value} {ms : List (Bytes × Value)}
      (hs : parseString (skipWhitespace t) = some (s, r)) (hr : skipWhitespace r = ch ':' :: r')
      (h : Derives d (skipWhitespace r') (.value v) u) (hu : skipWhitespace u = ch ',' :: u')
      (hrest : Derives d u' (.members ms) w) : Derives d t (.members ((s, v) :: ms)) w

/-! ## The parser finds only derivations -/

theorem parseNumber_eq_some {t r : Bytes} {v : Value} (h : parseNumber t = some (v, r)) :
    (∃ x, v = .number x) ∧ ∃ n, r = t.drop n := by
  unfold parseNumber at h
  dsimp only at h
  split at h
  · cases h
  · split at h
    · cases h
    · cases h
      exact ⟨⟨_, rfl⟩, _, rfl⟩

theorem eq_append_of_isPrefixOf {pat t : Bytes} (h : pat.isPrefixOf t = true) :
    t = pat ++ t.drop pat.length :=
  (List.prefix_iff_eq_append.mp (List.isPrefixOf_iff_prefix.mp h)).symm

/-- What the three parse functions return with some fuel is derived. -/
structure Sound (fuel : Nat) : Prop where
  value : ∀ d t v r, parseValue fuel d t = some (v, r) → Derives d t (.value v) r
  elements : ∀ d t vs r, parseElements fuel d t = some (vs, r) → Derives d t (.elements vs) r
  members : ∀ d t ms r, parseMembers fuel d t = some (ms, r) → Derives d t (.members ms) r

theorem Sound.value_succ {fuel : Nat} (ih : Sound fuel) (d : Nat) (t : Bytes) (v : Value)
    (r : Bytes) (h : parseValue (fuel + 1) d t = some (v, r)) : Derives d t (.value v) r := by
  unfold parseValue at h
  by_cases hnull : (ascii "null").isPrefixOf t
  · rw [if_pos hnull] at h
    cases h
    rw [eq_append_of_isPrefixOf hnull]
    exact .null d _
  rw [if_neg hnull] at h
  by_cases hfalse : (ascii "false").isPrefixOf t
  · rw [if_pos hfalse] at h
    cases h
    rw [eq_append_of_isPrefixOf hfalse]
    exact .false d _
  rw [if_neg hfalse] at h
  by_cases htrue : (ascii "true").isPrefixOf t
  · rw [if_pos htrue] at h
    cases h
    rw [eq_append_of_isPrefixOf htrue]
    exact .true d _
  rw [if_neg htrue] at h
  cases t with
  | nil => cases h
  | cons b t =>
      simp only [] at h
      by_cases hquote : b = ch '"'
      · rw [if_pos hquote] at h
        obtain ⟨⟨s, u⟩, hs, heq⟩ := Option.map_eq_some_iff.mp h
        cases heq
        exact .string hs
      rw [if_neg hquote] at h
      by_cases hnumber : b = ch '-' ∨ isDigit b
      · rw [if_pos hnumber] at h
        rcases parseNumber_eq_some h with ⟨⟨x, rfl⟩, -⟩
        exact .number hnumber h
      rw [if_neg hnumber] at h
      by_cases hbracket : b = ch '['
      · rw [if_pos hbracket] at h
        by_cases hd : nestingLimit ≤ d
        · rw [if_pos hd] at h
          cases h
        rw [if_neg hd] at h
        cases ht : skipWhitespace t with
        | nil =>
            rw [ht] at h
            cases h
        | cons c t' =>
            rw [ht] at h
            simp only [] at h
            rw [hbracket]
            by_cases hc : c = ch ']'
            · rw [if_pos hc] at h
              cases h
              exact .emptyArray (Nat.lt_of_not_le hd) (hc ▸ ht)
            · rw [if_neg hc] at h
              rcases Option.map_eq_some_iff.mp h with ⟨⟨vs, u⟩, hvs, heq⟩
              cases heq
              exact .array (Nat.lt_of_not_le hd) ht hc (ih.elements _ _ _ _ hvs)
      rw [if_neg hbracket] at h
      by_cases hbrace : b = ch '\x7b'
      · rw [if_pos hbrace] at h
        by_cases hd : nestingLimit ≤ d
        · rw [if_pos hd] at h
          cases h
        rw [if_neg hd] at h
        cases ht : skipWhitespace t with
        | nil =>
            rw [ht] at h
            cases h
        | cons c t' =>
            rw [ht] at h
            simp only [] at h
            rw [hbrace]
            by_cases hc : c = ch '\x7d'
            · rw [if_pos hc] at h
              cases h
              exact .emptyObject (Nat.lt_of_not_le hd) (hc ▸ ht)
            · rw [if_neg hc] at h
              obtain ⟨⟨ms, u⟩, hms, heq⟩ := Option.map_eq_some_iff.mp h
              cases heq
              exact .object (Nat.lt_of_not_le hd) ht hc (ih.members _ _ _ _ hms)
      rw [if_neg hbrace] at h
      cases h

theorem Sound.elements_succ {fuel : Nat} (ih : Sound fuel) (d : Nat) (t : Bytes)
    (vs : List Value) (r : Bytes) (h : parseElements (fuel + 1) d t = some (vs, r)) :
    Derives d t (.elements vs) r := by
  rw [parseElements] at h
  split at h
  · cases h
  · next v r1 hv =>
      split at h
      · cases h
      · next c r2 hr =>
          split at h
          · next hc =>
              rcases Option.map_eq_some_iff.mp h with ⟨⟨ws, u⟩, hrest, heq⟩
              cases heq
              exact .nextElement (ih.value _ _ _ _ hv) (hc ▸ hr) (ih.elements _ _ _ _ hrest)
          · split at h
            · next hc =>
                cases h
                exact .lastElement (ih.value _ _ _ _ hv) (hc ▸ hr)
            · cases h

theorem Sound.members_succ {fuel : Nat} (ih : Sound fuel) (d : Nat) (t : Bytes)
    (ms : List (Bytes × Value)) (r : Bytes) (h : parseMembers (fuel + 1) d t = some (ms, r)) :
    Derives d t (.members ms) r := by
  rw [parseMembers] at h
  split at h
  · cases h
  · next s r1 hs =>
      split at h
      · cases h
      · next c r2 hr =>
          split at h
          · next hc =>
              split at h
              · cases h
              · next v u hv =>
                  split at h
                  · cases h
                  · next e u2 hu =>
                      split at h
                      · next he =>
                          rcases Option.map_eq_some_iff.mp h with ⟨⟨ns, w⟩, hrest, heq⟩
                          cases heq
                          exact .nextMember hs (hc ▸ hr) (ih.value _ _ _ _ hv) (he ▸ hu)
                            (ih.members _ _ _ _ hrest)
                      · split at h
                        · next he =>
                            cases h
                            exact .lastMember hs (hc ▸ hr) (ih.value _ _ _ _ hv) (he ▸ hu)
                        · cases h
          · cases h

theorem sound (fuel : Nat) : Sound fuel := by
  induction fuel with
  | zero => exact ⟨nofun, nofun, nofun⟩
  | succ fuel ih => exact ⟨ih.value_succ, ih.elements_succ, ih.members_succ⟩

/-! ## A derivation consumes a front of the text -/

theorem length_scanString {t : Bytes} {raw r : Bytes} (h : scanString t = some (raw, r)) :
    r.length ≤ t.length := by
  fun_induction scanString t generalizing raw with
  | case1 => cases h
  | case2 => cases h; exact Nat.zero_le _
  | case3 => cases h
  | case4 => cases h; exact Nat.le_succ _
  | case5 c t hq ih =>
      obtain ⟨⟨raw', r'⟩, hscan, heq⟩ := Option.map_eq_some_iff.mp h
      cases heq
      exact Nat.le_trans (ih hscan) (Nat.le_add_right _ 2)
  | case6 b c t hq hb ih =>
      rcases Option.map_eq_some_iff.mp h with ⟨⟨raw', r'⟩, hscan, heq⟩
      cases heq
      exact Nat.le_add_right_of_le (ih hscan)

theorem parseString_eq_some {t s r : Bytes} (h : parseString t = some (s, r)) :
    ∃ t' raw s', t = ch '"' :: t' ∧ scanString t' = some (raw, r) ∧
      unescape (raw.length + 1) raw = some s' ∧ s = cstr s' := by
  cases t with
  | nil => cases h
  | cons b t' =>
      rw [parseString] at h
      split at h
      · next hb =>
          split at h
          · cases h
          · next raw r' hscan =>
              split at h
              · cases h
              · next s' hs =>
                  cases h
                  exact ⟨t', raw, s', by rw [hb], hscan, hs, rfl⟩
      · cases h

theorem length_parseString {t s r : Bytes} (h : parseString t = some (s, r)) :
    r.length < t.length := by
  rcases parseString_eq_some h with ⟨t', raw, s', rfl, hscan, -⟩
  exact Nat.lt_succ_of_le (length_scanString hscan)

theorem length_of_skipWhitespace {t r : Bytes} {c : UInt8} (h : skipWhitespace t = c :: r) :
    r.length < t.length := by
  have hlen := length_skipWhitespace t
  rw [h] at hlen
  exact hlen

theorem Derives.length_le {d : Nat} {t r : Bytes} {item : Item} (h : Derives d t item r) :
    r.length ≤ t.length := by
  induction h with
  | null | false | true => simp
  | string h => exact Nat.le_of_lt (length_parseString h)
  | number hb h =>
      obtain ⟨-, n, rfl⟩ := parseNumber_eq_some h
      rw [List.length_drop]
      omega
  | emptyArray hd ht | emptyObject hd ht =>
      have h1 := length_of_skipWhitespace ht
      rw [List.length_cons]
      omega
  | array hd ht hc h ih | object hd ht hc h ih =>
      have h1 := length_of_skipWhitespace ht
      rw [List.length_cons] at ih ⊢
      omega
  | @lastElement d t r r' v h hr ih =>
      have h1 := length_of_skipWhitespace hr
      have h2 := length_skipWhitespace t
      omega
  | @nextElement d t r r' u v vs h hr hrest ih ihrest =>
      have h1 := length_of_skipWhitespace hr
      have h2 := length_skipWhitespace t
      omega
  | @lastMember d t s r r' u u' v hs hr h hu ih =>
      have h1 := length_parseString hs
      have h2 := length_of_skipWhitespace hr
      have h3 := length_of_skipWhitespace hu
      have h4 := length_skipWhitespace t
      have h5 := length_skipWhitespace r'
      omega
  | @nextMember d t s r r' u u' w v ms hs hr h hu hrest ih ihrest =>
      have h1 := length_parseString hs
      have h2 := length_of_skipWhitespace hr
      have h3 := length_of_skipWhitespace hu
      have h4 := length_skipWhitespace t
      have h5 := length_skipWhitespace r'
      omega

/-! ## The parser finds every derivation -/

def Found (fuel d : Nat) (t : Bytes) : Item → Bytes → Prop
  | .value v, r => parseValue fuel d t = some (v, r)
  | .elements vs, r => parseElements fuel d t = some (vs, r)
  | .members ms, r => parseMembers fuel d t = some (ms, r)

/-- Enough fuel for the parse function of an item. -/
def Item.fuel : Item → Bytes → Nat
  | .value _, t => 2 * t.length + 1
  | _, t => 2 * t.length + 2

theorem Item.exists_succ {item : Item} {t : Bytes} {fuel : Nat} (h : item.fuel t ≤ fuel) :
    ∃ f, fuel = f + 1 := by
  have hpos : 0 < item.fuel t := by cases item <;> exact Nat.succ_pos _
  exact ⟨fuel - 1, by omega⟩

theorem parseValue_quote (fuel d : Nat) (t : Bytes) :
    parseValue (fuel + 1) d (ch '"' :: t) =
      (parseString (ch '"' :: t)).map fun x => (.string x.1, x.2) := rfl

/-- A byte that no literal starts with. -/
theorem no_literal {b : UInt8} (hn : b ≠ 110) (hf : b ≠ 102) (ht : b ≠ 116) (t : Bytes) :
    ¬ (ascii "null").isPrefixOf (b :: t) ∧ ¬ (ascii "false").isPrefixOf (b :: t) ∧
      ¬ (ascii "true").isPrefixOf (b :: t) :=
  ⟨by simp [ascii, Ne.symm hn], by simp [ascii, Ne.symm hf], by simp [ascii, Ne.symm ht]⟩

theorem parseValue_numeral {b : UInt8} (hb : b = ch '-' ∨ isDigit b) (fuel d : Nat) (t : Bytes) :
    parseValue (fuel + 1) d (b :: t) = parseNumber (b :: t) := by
  have hlit : b ≠ 110 ∧ b ≠ 102 ∧ b ≠ 116 ∧ b ≠ ch '"' := by
    rcases hb with rfl | hb
    · decide
    · simp only [isDigit, Bool.and_eq_true, decide_eq_true_eq, UInt8.le_iff_toNat_le] at hb
      refine ⟨?_, ?_, ?_, ?_⟩
      all_goals
        rintro rfl
        revert hb
        decide
  rcases hlit with ⟨hn, hf, ht, hq⟩
  obtain ⟨hnull, hfalse, htrue⟩ := no_literal hn hf ht t
  unfold parseValue
  rw [if_neg hnull, if_neg hfalse, if_neg htrue]
  exact (if_neg hq).trans (if_pos hb)

theorem parseValue_bracket {fuel d : Nat} {t t' : Bytes} {c : UInt8} (hd : d < nestingLimit)
    (ht : skipWhitespace t = c :: t') :
    parseValue (fuel + 1) d (ch '[' :: t) =
      if c = ch ']' then some (.array [], t')
      else (parseElements fuel (d + 1) (c :: t')).map fun x => (.array x.1, x.2) := by
  have hlimit : ¬ nestingLimit ≤ d := Nat.not_le.mpr hd
  obtain ⟨hnull, hfalse, htrue⟩ := no_literal (b := ch '[') (by decide) (by decide) (by decide) t
  unfold parseValue
  rw [if_neg hnull, if_neg hfalse, if_neg htrue]
  simp only []
  rw [if_neg (by decide), if_neg (by decide), if_pos trivial, if_neg hlimit, ht]

theorem parseValue_brace {fuel d : Nat} {t t' : Bytes} {c : UInt8} (hd : d < nestingLimit)
    (ht : skipWhitespace t = c :: t') :
    parseValue (fuel + 1) d (ch '\x7b' :: t) =
      if c = ch '\x7d' then some (.object [], t')
      else (parseMembers fuel (d + 1) (c :: t')).map fun x => (.object x.1, x.2) := by
  have hlimit : ¬ nestingLimit ≤ d := Nat.not_le.mpr hd
  obtain ⟨hnull, hfalse, htrue⟩ := no_literal (b := ch '\x7b') (by decide) (by decide) (by decide) t
  unfold parseValue
  rw [if_neg hnull, if_neg hfalse, if_neg htrue]
  simp only []
  rw [if_neg (by decide), if_neg (by decide), if_neg (by decide), if_pos trivial, if_neg hlimit, ht]

theorem Derives.found {d : Nat} {t r : Bytes} {item : Item} (h : Derives d t item r)
    {fuel : Nat} (hfuel : item.fuel t ≤ fuel) : Found fuel d t item r := by
  induction h generalizing fuel with
  | null d r | false d r | true d r =>
      rcases Item.exists_succ hfuel with ⟨f, rfl⟩
      unfold Found parseValue
      simp [ascii]
  | @string d t s r h =>
      obtain ⟨f, rfl⟩ := Item.exists_succ hfuel
      rcases parseString_eq_some h with ⟨t', raw, s', rfl, -⟩
      unfold Found
      rw [parseValue_quote, h]
      rfl
  | number hb h =>
      rcases Item.exists_succ hfuel with ⟨f, rfl⟩
      unfold Found
      rw [parseValue_numeral hb, h]
  | emptyArray hd ht =>
      obtain ⟨f, rfl⟩ := Item.exists_succ hfuel
      unfold Found
      rw [parseValue_bracket hd ht, if_pos rfl]
  | @array d t t' r c vs hd ht hc h ih =>
      rcases Item.exists_succ hfuel with ⟨f, rfl⟩
      have hlen := length_of_skipWhitespace ht
      have hvs : parseElements f (d + 1) (c :: t') = some (vs, r) := by
        apply ih
        simp only [Item.fuel, List.length_cons] at hfuel ⊢
        omega
      unfold Found
      rw [parseValue_bracket hd ht, if_neg hc, hvs]
      rfl
  | emptyObject hd ht =>
      rcases Item.exists_succ hfuel with ⟨f, rfl⟩
      unfold Found
      rw [parseValue_brace hd ht, if_pos rfl]
  | @object d t t' r c ms hd ht hc h ih =>
      obtain ⟨f, rfl⟩ := Item.exists_succ hfuel
      have hlen := length_of_skipWhitespace ht
      have hms : parseMembers f (d + 1) (c :: t') = some (ms, r) := by
        apply ih
        simp only [Item.fuel, List.length_cons] at hfuel ⊢
        omega
      unfold Found
      rw [parseValue_brace hd ht, if_neg hc, hms]
      rfl
  | @lastElement d t r r' v h hr ih =>
      rcases Item.exists_succ hfuel with ⟨f, rfl⟩
      have hlen := length_skipWhitespace t
      have hv : parseValue f d (skipWhitespace t) = some (v, r) := by
        apply ih
        simp only [Item.fuel] at hfuel ⊢
        omega
      unfold Found
      rw [parseElements, hv]
      simp [hr]
  | @nextElement d t r r' u v vs h hr hrest ih ihrest =>
      rcases Item.exists_succ hfuel with ⟨f, rfl⟩
      have hlen := length_skipWhitespace t
      have hlenr := length_of_skipWhitespace hr
      have hle := h.length_le
      simp only [Item.fuel] at hfuel
      have hv : parseValue f d (skipWhitespace t) = some (v, r) :=
        ih (by simp only [Item.fuel]; omega)
      have hvs : parseElements f d r' = some (vs, u) := ihrest (by simp only [Item.fuel]; omega)
      unfold Found
      rw [parseElements, hv]
      simp [hr, hvs]
  | @lastMember d t s r r' u u' v hs hr h hu ih =>
      obtain ⟨f, rfl⟩ := Item.exists_succ hfuel
      have hlen := length_skipWhitespace t
      have hlens := length_parseString hs
      have hlenr := length_of_skipWhitespace hr
      have hlenr' := length_skipWhitespace r'
      simp only [Item.fuel] at hfuel
      have hv : parseValue f d (skipWhitespace r') = some (v, u) :=
        ih (by simp only [Item.fuel]; omega)
      unfold Found
      rw [parseMembers, hs]
      simp [hr, hv, hu]
  | @nextMember d t s r r' u u' w v ms hs hr h hu hrest ih ihrest =>
      rcases Item.exists_succ hfuel with ⟨f, rfl⟩
      have hlen := length_skipWhitespace t
      have hlens := length_parseString hs
      have hlenr := length_of_skipWhitespace hr
      have hlenr' := length_skipWhitespace r'
      have hlenu := length_of_skipWhitespace hu
      have hle := h.length_le
      simp only [Item.fuel] at hfuel
      have hv : parseValue f d (skipWhitespace r') = some (v, u) :=
        ih (by simp only [Item.fuel]; omega)
      have hms : parseMembers f d u' = some (ms, w) := ihrest (by simp only [Item.fuel]; omega)
      unfold Found
      rw [parseMembers, hs]
      simp [hr, hv, hu, hms]

/-- The fuel that `cJSONParse` supplies is enough: more changes nothing. -/
theorem parseValue_fuel {fuel d : Nat} {t : Bytes} (h : 2 * t.length + 1 ≤ fuel) :
    parseValue fuel d t = parseValue (2 * t.length + 1) d t := by
  cases hmore : parseValue fuel d t with
  | some x => exact (((sound fuel).value _ _ _ _ hmore).found (Nat.le_refl _)).symm
  | none =>
      cases hless : parseValue (2 * t.length + 1) d t with
      | none => rfl
      | some x =>
          have hfound := ((sound _).value _ _ _ _ hless).found h
          exact absurd (hmore.symm.trans hfound) nofun

/-! ## What follows the consumed text does not matter -/

/-- The rest of a parse starts with a byte that cannot belong to a number. -/
def Delimited (r : Bytes) : Prop := ∃ c r', r = c :: r' ∧ isNumberByte c = false

theorem skipWhitespace_append {t : Bytes} (h : skipWhitespace t ≠ []) (b : Bytes) :
    skipWhitespace (t ++ b) = skipWhitespace t ++ b := by
  unfold skipWhitespace at h ⊢
  rw [List.dropWhile_append, if_neg (by simpa using h)]

theorem skipWhitespace_append_cons {t r : Bytes} {c : UInt8} (h : skipWhitespace t = c :: r)
    (b : Bytes) : skipWhitespace (t ++ b) = c :: (r ++ b) := by
  rw [skipWhitespace_append (by rw [h]; exact List.cons_ne_nil c r), h, List.cons_append]

theorem isNumberByte_of_white {a : UInt8} (ha : a ≤ 32) : isNumberByte a = false := by
  have hnat : a.toNat ≤ 32 := UInt8.le_iff_toNat_le.mp ha
  have hne : ∀ c : UInt8, 32 < c.toNat → a ≠ c := by
    rintro c hc rfl
    omega
  have hdigit : ¬ (48 : UInt8) ≤ a := by
    rw [UInt8.le_iff_toNat_le]
    have h48 : (48 : UInt8).toNat = 48 := rfl
    omega
  simp [isNumberByte, isDigit, hdigit, hne]

theorem delimited_of_skipWhitespace {t r : Bytes} {c : UInt8} (h : skipWhitespace t = c :: r)
    (hc : isNumberByte c = false) : Delimited t := by
  cases t with
  | nil => cases h
  | cons a t =>
      refine ⟨a, t, rfl, ?_⟩
      by_cases ha : a ≤ 32
      · exact isNumberByte_of_white ha
      · rw [skipWhitespace, List.dropWhile_cons_of_neg (by simpa using ha)] at h
        rw [(List.cons.inj h).1, hc]

theorem scanString_append {t raw r : Bytes} (h : scanString t = some (raw, r)) (b : Bytes) :
    scanString (t ++ b) = some (raw, r ++ b) := by
  fun_induction scanString t generalizing raw with
  | case1 => cases h
  | case2 =>
      cases h
      cases b <;> rfl
  | case3 => cases h
  | case4 c t =>
      cases h
      rfl
  | case5 c t hq ih =>
      rcases Option.map_eq_some_iff.mp h with ⟨⟨raw', r'⟩, hscan, heq⟩
      cases heq
      rw [List.cons_append, List.cons_append, scanString, if_neg hq, if_pos rfl, ih hscan]
      rfl
  | case6 a c t hq hb ih =>
      obtain ⟨⟨raw', r'⟩, hscan, heq⟩ := Option.map_eq_some_iff.mp h
      cases heq
      rw [List.cons_append, List.cons_append, scanString, if_neg hq, if_neg hb,
        ← List.cons_append, ih hscan]
      rfl

theorem parseString_append {t s r : Bytes} (h : parseString t = some (s, r)) (b : Bytes) :
    parseString (t ++ b) = some (s, r ++ b) := by
  rcases parseString_eq_some h with ⟨t', raw, s', rfl, hscan, hraw, rfl⟩
  rw [List.cons_append, parseString, if_pos rfl, scanString_append hscan]
  simp only [hraw]

theorem takeWhile_append_of_stop {p : UInt8 → Bool} {t : Bytes} {c : UInt8} (hmem : c ∈ t)
    (hc : p c = false) (b : Bytes) : (t ++ b).takeWhile p = t.takeWhile p := by
  induction t with
  | nil => cases hmem
  | cons a t ih =>
      by_cases ha : p a = true
      · have hmem' : c ∈ t := by
          rcases List.mem_cons.mp hmem with rfl | hin
          · rw [hc] at ha
            cases ha
          · exact hin
        rw [List.cons_append, List.takeWhile_cons_of_pos ha, List.takeWhile_cons_of_pos ha,
          ih hmem']
      · rw [List.cons_append, List.takeWhile_cons_of_neg ha, List.takeWhile_cons_of_neg ha]

theorem parseNumber_append {t r : Bytes} {v : Value} (h : parseNumber t = some (v, r))
    (hr : Delimited r) (b : Bytes) : parseNumber (t ++ b) = some (v, r ++ b) := by
  rcases hr with ⟨c, r', hcr, hc⟩
  obtain ⟨-, n, hn⟩ := parseNumber_eq_some h
  have hmem : c ∈ t := List.mem_of_mem_drop (by rw [← hn, hcr]; exact List.mem_cons_self)
  unfold parseNumber at h ⊢
  rw [takeWhile_append_of_stop hmem hc]
  dsimp only at h ⊢
  split at h
  · cases h
  · next d unused hstrtod =>
      split at h
      · cases h
      · next hlen =>
          cases h
          rw [if_neg hlen, List.drop_append_of_le_length]
          by_contra hgt
          rw [List.drop_eq_nil_of_le (by omega)] at hcr
          cases hcr

theorem Derives.ne_nil {d : Nat} {t r : Bytes} {v : Value} (h : Derives d t (.value v) r) :
    t ≠ [] := by
  cases h with
  | null | false | true => simp [ascii]
  | string h =>
      rcases parseString_eq_some h with ⟨t', -, -, rfl, -⟩
      exact List.cons_ne_nil _ t'
  | number | emptyArray | array | emptyObject | object => exact List.cons_ne_nil _ _

/-- A derivation can be continued, a number only behind a byte that ends it. -/
theorem Derives.append {d : Nat} {t r : Bytes} {item : Item} (h : Derives d t item r) (b : Bytes)
    (hr : (∃ x, item = .value (.number x)) → Delimited r) : Derives d (t ++ b) item (r ++ b) := by
  have hname {t s r : Bytes} (hs : parseString (skipWhitespace t) = some (s, r)) :
      parseString (skipWhitespace (t ++ b)) = some (s, r ++ b) := by
    rcases parseString_eq_some hs with ⟨t', -, -, ht, -⟩
    rw [skipWhitespace_append_cons ht, ← List.cons_append, ← ht]
    exact parseString_append hs b
  induction h with
  | null d r =>
      rw [List.append_assoc]
      exact .null d _
  | false d r =>
      rw [List.append_assoc]
      exact .false d _
  | true d r =>
      rw [List.append_assoc]
      exact .true d _
  | string h => exact .string (parseString_append h b)
  | number hb h => exact .number hb (parseNumber_append h (hr ⟨_, rfl⟩) b)
  | emptyArray hd ht => exact .emptyArray hd (skipWhitespace_append_cons ht b)
  | array hd ht hc h ih => exact .array hd (skipWhitespace_append_cons ht b) hc (ih nofun)
  | emptyObject hd ht => exact .emptyObject hd (skipWhitespace_append_cons ht b)
  | object hd ht hc h ih => exact .object hd (skipWhitespace_append_cons ht b) hc (ih nofun)
  | lastElement h hend ih =>
      have hv := ih fun _ => delimited_of_skipWhitespace hend rfl
      rw [← skipWhitespace_append h.ne_nil] at hv
      exact .lastElement hv (skipWhitespace_append_cons hend b)
  | nextElement h hsep hrest ih ihrest =>
      have hv := ih fun _ => delimited_of_skipWhitespace hsep rfl
      rw [← skipWhitespace_append h.ne_nil] at hv
      exact .nextElement hv (skipWhitespace_append_cons hsep b) (ihrest nofun)
  | lastMember hs hcolon h hend ih =>
      have hv := ih fun _ => delimited_of_skipWhitespace hend rfl
      rw [← skipWhitespace_append h.ne_nil] at hv
      exact .lastMember (hname hs) (skipWhitespace_append_cons hcolon b) hv
        (skipWhitespace_append_cons hend b)
  | nextMember hs hcolon h hsep hrest ih ihrest =>
      have hv := ih fun _ => delimited_of_skipWhitespace hsep rfl
      rw [← skipWhitespace_append h.ne_nil] at hv
      exact .nextMember (hname hs) (skipWhitespace_append_cons hcolon b) hv
        (skipWhitespace_append_cons hsep b) (ihrest nofun)

/-! ## Whole texts -/

/-- The start of the value in a text whose first byte is no byte order mark. -/
theorem skipBom_append {t r : Bytes} {c : UInt8} (h : skipWhitespace (skipBom t) = c :: r)
    (hc : c ≠ 0xEF) (b : Bytes) : skipWhitespace (skipBom (t ++ b)) = c :: (r ++ b) := by
  unfold skipBom at h ⊢
  by_cases hbom : 4 ≤ t.length ∧ [0xEF, 0xBB, 0xBF].isPrefixOf t
  · have hpre : [0xEF, 0xBB, 0xBF].isPrefixOf (t ++ b) := by
      rw [List.isPrefixOf_iff_prefix] at hbom ⊢
      exact hbom.2.trans (List.prefix_append t b)
    rw [if_pos hbom] at h
    rw [if_pos ⟨by rw [List.length_append]; omega, hpre⟩,
      List.drop_append_of_le_length (by omega)]
    exact skipWhitespace_append_cons h b
  · rw [if_neg hbom] at h
    -- a mark that the longer text alone has would begin in the shorter one
    have hnot : ¬ (4 ≤ (t ++ b).length ∧ [0xEF, 0xBB, 0xBF].isPrefixOf (t ++ b)) := by
      intro hbom
      rcases hbom with ⟨-, hpre⟩
      cases t with
      | nil => cases h
      | cons a t =>
          have ha : a = 0xEF := by
            rw [List.cons_append, List.isPrefixOf_cons_cons, Bool.and_eq_true, beq_iff_eq] at hpre
            exact hpre.1.symm
          rw [ha] at h
          exact hc (List.cons.inj h).1.symm
    rw [if_neg hnot]
    exact skipWhitespace_append_cons h b

/-- An object that is complete in a text is all that is read of any longer one. -/
theorem cJSONParse_append {mem : Bytes} {ms : List (Bytes × Value)}
    (h : cJSONParse mem = some (.object ms)) (b : Bytes) :
    cJSONParse (mem ++ b) = some (.object ms) := by
  by_cases hz : (0 : UInt8) ∈ mem
  · unfold cJSONParse at h ⊢
    rw [cstr_append_of_zero hz]
    exact h
  · unfold cJSONParse at h ⊢
    rw [cstr_append_of_no_zero hz]
    rw [cstr_of_no_zero hz] at h
    obtain ⟨⟨v, r⟩, hparse, hv⟩ := Option.map_eq_some_iff.mp h
    have hobj : v = .object ms := hv
    rw [hobj] at hparse
    have hder := (sound _).value _ _ _ _ hparse
    obtain ⟨t, ht⟩ : ∃ t, skipWhitespace (skipBom mem) = ch '\x7b' :: t := by
      generalize skipWhitespace (skipBom mem) = u at hder
      cases hder with
      | emptyObject | object => exact ⟨_, rfl⟩
    have htext := skipBom_append ht (by decide) (cstr b)
    rw [ht] at hder
    have hlong := hder.append (cstr b) (by rintro ⟨x, hx⟩; cases hx)
    rw [List.cons_append, ← htext] at hlong
    have hfound : parseValue _ 0 _ = some _ := hlong.found (Nat.le_refl _)
    exact Option.map_eq_some_iff.mpr ⟨_, hfound, rfl⟩

end EzIot.CJson
