import EzIot.CJson.Grammar

/-! # Printing objects

`cJSON_PrintUnformatted` of the objects that the headers are made of: members
that are texts or natural numbers. What is printed is parsed back.
-/

namespace EzIot.CJson

open CText

/-! ## Printing -/

/-- `%1.15g` of a natural number that has at most 15 digits. -/
def decimal (n : Nat) : Bytes := (Nat.toDigits 10 n).map fun c => ch c

def hexDigit (n : Nat) : UInt8 := (if n < 10 then 48 + n else 87 + n).toUInt8

/-- The inner loop of `print_string_ptr`. -/
def escapeByte (b : UInt8) : Bytes :=
  if 31 < b ∧ b ≠ ch '"' ∧ b ≠ ch '\\' then [b]
  else
    ch '\\' ::
      if b = ch '\\' ∨ b = ch '"' then [b]
      else if b = 8 then [ch 'b']
      else if b = 12 then [ch 'f']
      else if b = 10 then [ch 'n']
      else if b = 13 then [ch 'r']
      else if b = 9 then [ch 't']
      else [ch 'u', ch '0', ch '0', hexDigit (b.toNat / 16), hexDigit (b.toNat % 16)]

def printString (s : Bytes) : Bytes := ch '"' :: (s.flatMap escapeByte ++ [ch '"'])

/-- A member of a header object, as it was added. -/
inductive Field
  | number (n : Nat)
  | string (s : Bytes)
deriving DecidableEq

def Field.value : Field → Value
  | .number n => .number (.ofInt n)
  | .string s => .string s

def Field.print : Field → Bytes
  | .number n => decimal n
  | .string s => printString s

def printMember (m : Bytes × Field) : Bytes := printString m.1 ++ ch ':' :: m.2.print

def printMembers : List (Bytes × Field) → Bytes
  | [] => []
  | [m] => printMember m
  | m :: ms => printMember m ++ ch ',' :: printMembers ms

def printUnformatted (ms : List (Bytes × Field)) : Bytes :=
  ch '\x7b' :: (printMembers ms ++ [ch '\x7d'])

/-- Members that are printed exactly: numbers that a `double` holds and texts
without a terminator. -/
def Exact (m : Bytes × Field) : Prop :=
  (0 : UInt8) ∉ m.1 ∧
    match m.2 with
    | .number n => n < 10 ^ 15
    | .string s => (0 : UInt8) ∉ s

/-! ## Strings -/

theorem scanString_plain {b : UInt8} (hq : b ≠ ch '"') (hb : b ≠ ch '\\') (t : Bytes) :
    scanString (b :: t) = (scanString t).map fun r => (b :: r.1, r.2) := by
  cases t with
  | nil => exact if_neg hq
  | cons c t => rw [scanString, if_neg hq, if_neg hb]

theorem scanString_escape (c : UInt8) (t : Bytes) :
    scanString (ch '\\' :: c :: t) =
      (scanString t).map fun r => (ch '\\' :: c :: r.1, r.2) := by
  rw [scanString, if_neg (by decide), if_pos rfl]

theorem escapeByte_cases (b : UInt8) :
    (escapeByte b = [b] ∧ b ≠ ch '"' ∧ b ≠ ch '\\') ∨
    (∃ c, escapeByte b = [ch '\\', c] ∧ c ≠ ch 'u' ∧ simpleEscape c = some b) ∨
    (b ≤ 31 ∧ escapeByte b = [ch '\\', ch 'u', ch '0', ch '0', hexDigit (b.toNat / 16),
      hexDigit (b.toNat % 16)]) := by
  by_cases hplain : 31 < b ∧ b ≠ ch '"' ∧ b ≠ ch '\\'
  · exact .inl ⟨if_pos hplain, hplain.2⟩
  · right
    unfold escapeByte
    rw [if_neg hplain]
    split
    · next hb =>
        left
        rcases hb with rfl | rfl
        · exact ⟨_, rfl, by decide, rfl⟩
        · exact ⟨_, rfl, by decide, rfl⟩
    · next hb =>
        have hlow : b ≤ 31 := by
          by_contra hgt
          exact hplain ⟨UInt8.not_le.mp hgt, fun h => hb (.inr h), fun h => hb (.inl h)⟩
        split
        · next h => exact .inl ⟨_, rfl, by decide, by rw [h]; rfl⟩
        · split
          · next h => exact .inl ⟨_, rfl, by decide, by rw [h]; rfl⟩
          · split
            · next h => exact .inl ⟨_, rfl, by decide, by rw [h]; rfl⟩
            · split
              · next h => exact .inl ⟨_, rfl, by decide, by rw [h]; rfl⟩
              · split
                · next h => exact .inl ⟨_, rfl, by decide, by rw [h]; rfl⟩
                · exact .inr ⟨hlow, rfl⟩

theorem hexDigit_plain {n : Nat} (h : n < 16) : hexDigit n ≠ ch '"' ∧ hexDigit n ≠ ch '\\' ∧
    hexDigit n ≠ 0 := by
  have hall : ∀ n : Fin 16, hexDigit n ≠ ch '"' ∧ hexDigit n ≠ ch '\\' ∧ hexDigit n ≠ 0 := by
    decide
  exact hall ⟨n, h⟩

/-- The bytes below the space and their four-digit escapes. -/
theorem utf16Literal_hexDigit {b : UInt8} (hb : b ≤ 31) (t : Bytes) :
    utf16Literal (ch '0' :: ch '0' :: hexDigit (b.toNat / 16) :: hexDigit (b.toNat % 16) :: t) =
      some ([b], 4) := by
  have hfin : ∀ n : Fin 32,
      parseHex4 (ch '0') (ch '0') (hexDigit (n / 16)) (hexDigit (n % 16)) = n := by decide
  have hlt : b.toNat < 32 := Nat.lt_succ_of_le (UInt8.le_iff_toNat_le.mp hb)
  have hhex := hfin ⟨b.toNat, hlt⟩
  simp only at hhex
  simp only [utf16Literal, hhex]
  rw [if_neg (by omega), if_neg (by omega), utf8Encode, if_pos (by omega)]
  simp

theorem scanString_escapeByte (b : UInt8) (t : Bytes) :
    scanString (escapeByte b ++ t) =
      (scanString t).map fun r => (escapeByte b ++ r.1, r.2) := by
  rcases escapeByte_cases b with ⟨hesc, hq, hb⟩ | ⟨c, hesc, -, -⟩ | ⟨hlow, hesc⟩
  · rw [hesc]
    exact scanString_plain hq hb t
  · rw [hesc]
    exact scanString_escape c t
  · have hnat : b.toNat ≤ 31 := UInt8.le_iff_toNat_le.mp hlow
    rcases hexDigit_plain (n := b.toNat / 16) (by omega) with ⟨hq1, hb1, -⟩
    rcases hexDigit_plain (n := b.toNat % 16) (by omega) with ⟨hq2, hb2, -⟩
    rw [hesc]
    simp only [List.cons_append, List.nil_append]
    rw [scanString_escape, scanString_plain (by decide) (by decide),
      scanString_plain (by decide) (by decide), scanString_plain hq1 hb1,
      scanString_plain hq2 hb2]
    simp only [Option.map_map]
    rfl

theorem scanString_escaped (s r : Bytes) :
    scanString (s.flatMap escapeByte ++ ch '"' :: r) = some (s.flatMap escapeByte, r) := by
  induction s with
  | nil => cases r <;> rfl
  | cons b s ih =>
      rw [List.flatMap_cons, List.append_assoc, scanString_escapeByte, ih]
      rfl

theorem unescape_escapeByte (b : UInt8) (fuel : Nat) (t : Bytes) :
    unescape (fuel + 1) (escapeByte b ++ t) = (unescape fuel t).map (b :: ·) := by
  rcases escapeByte_cases b with ⟨hesc, -, hb⟩ | ⟨c, hesc, hu, hc⟩ | ⟨hlow, hesc⟩
  · rw [hesc, List.singleton_append, unescape.eq_def]
    exact if_neg hb
  · rw [hesc]
    simp only [List.cons_append, List.nil_append]
    rw [unescape, if_pos rfl]
    simp only [if_neg hu, hc]
  · rw [hesc]
    simp only [List.cons_append, List.nil_append]
    rw [unescape, if_pos rfl]
    simp only [if_pos, utf16Literal_hexDigit hlow, List.drop_succ_cons, List.drop_zero,
      List.singleton_append]

theorem unescape_escaped {s : Bytes} {fuel : Nat} (h : s.length < fuel) :
    unescape fuel (s.flatMap escapeByte) = some s := by
  induction s generalizing fuel with
  | nil =>
      cases fuel with
      | zero => cases h
      | succ fuel => rfl
  | cons b s ih =>
      cases fuel with
      | zero => cases h
      | succ fuel =>
          rw [List.flatMap_cons, unescape_escapeByte, ih (Nat.lt_of_succ_lt_succ h)]
          rfl

theorem length_le_escaped (s : Bytes) : s.length ≤ (s.flatMap escapeByte).length := by
  induction s with
  | nil => exact Nat.le_refl 0
  | cons b s ih =>
      have hpos : 1 ≤ (escapeByte b).length := by
        rcases escapeByte_cases b with ⟨hesc, -⟩ | ⟨c, hesc, -⟩ | ⟨-, hesc⟩ <;> simp [hesc]
      rw [List.flatMap_cons, List.length_append, List.length_cons]
      omega

theorem length_printString_le (s : Bytes) : (printString s).length ≤ 6 * s.length + 2 := by
  have hesc : (s.flatMap escapeByte).length ≤ 6 * s.length := by
    induction s with
    | nil => exact Nat.le_refl 0
    | cons b s ih =>
        have hb : (escapeByte b).length ≤ 6 := by
          rcases escapeByte_cases b with ⟨hesc, -⟩ | ⟨c, hesc, -⟩ | ⟨-, hesc⟩ <;> simp [hesc]
        rw [List.flatMap_cons, List.length_append, List.length_cons]
        omega
  rw [printString, List.length_cons, List.length_append, List.length_singleton]
  omega

theorem parseString_printString {s : Bytes} (hs : (0 : UInt8) ∉ s) (r : Bytes) :
    parseString (printString s ++ r) = some (s, r) := by
  have hlen := length_le_escaped s
  rw [printString, List.cons_append, List.append_assoc, parseString, if_pos rfl,
    List.singleton_append, scanString_escaped]
  simp only [unescape_escaped (Nat.lt_succ_of_le hlen), cstr_of_no_zero hs]

/-! ## Numbers -/

theorem toNat_bounds_of_isDigit {c : Char} (h : c.isDigit) : 48 ≤ c.toNat ∧ c.toNat ≤ 57 := by
  simp only [Char.isDigit, Bool.and_eq_true, decide_eq_true_eq, ge_iff_le,
    UInt32.le_iff_toNat_le] at h
  exact h

theorem toNat_ch_of_isDigit {c : Char} (h : c.isDigit) : (ch c).toNat = c.toNat := by
  have hc := toNat_bounds_of_isDigit h
  show (UInt8.ofNat c.toNat).toNat = c.toNat
  rw [UInt8.toNat_ofNat']
  omega

theorem isDigit_of_mem_decimal {n : Nat} {b : UInt8} (h : b ∈ decimal n) : isDigit b := by
  obtain ⟨c, hc, rfl⟩ := List.mem_map.mp h
  have hdigit := Nat.isDigit_of_mem_toDigits (by decide) (by decide) hc
  have hbounds := toNat_bounds_of_isDigit hdigit
  rw [← toNat_ch_of_isDigit hdigit] at hbounds
  simp only [isDigit, Bool.and_eq_true, decide_eq_true_eq, UInt8.le_iff_toNat_le]
  exact hbounds

theorem digitsValue_decimal (n : Nat) : digitsValue (decimal n) = n := by
  have hfold : ∀ (cs : List Char) (m : Nat), (∀ c ∈ cs, c.isDigit) →
      (cs.map fun c => ch c).foldl (fun k b => 10 * k + (b.toNat - 48)) m =
        Nat.ofDigitChars 10 cs m := by
    intro cs
    induction cs with
    | nil => exact fun m _ => Nat.ofDigitChars_nil.symm
    | cons c cs ih =>
        intro m hcs
        rw [List.map_cons, List.foldl_cons, Nat.ofDigitChars_cons,
          toNat_ch_of_isDigit (hcs c List.mem_cons_self)]
        exact ih _ fun a ha => hcs a (List.mem_cons_of_mem c ha)
  have hdigits : ∀ c ∈ Nat.toDigits 10 n, c.isDigit := fun c hc =>
    Nat.isDigit_of_mem_toDigits (by decide) (by decide) hc
  unfold digitsValue decimal
  rw [hfold _ 0 hdigits, Nat.ofDigitChars_ten_toDigits]

theorem decimal_ne_nil (n : Nat) : decimal n ≠ [] := by
  simp [decimal]

theorem length_decimal {n k : Nat} (hk : 0 < k) (h : n < 10 ^ k) : (decimal n).length ≤ k := by
  rw [decimal, List.length_map, Nat.length_toDigits_le_iff (by decide) hk]
  exact h

theorem takeSign_of_isDigit {b : UInt8} (hb : isDigit b) (t : Bytes) :
    takeSign (b :: t) = (false, b :: t) := by
  have hminus : b ≠ 45 := by
    rintro rfl
    revert hb
    decide
  have hplus : b ≠ 43 := by
    rintro rfl
    revert hb
    decide
  rw [takeSign, if_neg hminus, if_neg hplus]

theorem strtod_decimal {n : Nat} (h : n < 10 ^ 15) :
    strtod (decimal n) = some (.ofInt n, []) := by
  have hall : ∀ b ∈ decimal n, isDigit b := fun b => isDigit_of_mem_decimal
  have hsign : takeSign (decimal n) = (false, decimal n) := by
    cases hd : decimal n with
    | nil => exact absurd hd (decimal_ne_nil n)
    | cons b t => exact takeSign_of_isDigit (hall b (hd ▸ List.mem_cons_self)) t
  have htake : (decimal n).takeWhile isDigit = decimal n := List.takeWhile_eq_self_iff.mpr hall
  have hdrop : (decimal n).dropWhile isDigit = [] := List.dropWhile_eq_nil_iff.mpr hall
  have hround : binary64 ((n : Int) : Rat) = .ofInt n := by
    apply binary64_intCast
    rw [Int.natAbs_natCast]
    omega
  unfold strtod
  simp only [hsign, htake, hdrop, takeFraction, takeExponent, decimal_ne_nil, false_and, if_false,
    List.append_nil, digitsValue_decimal, decimalValue]
  simpa using hround

/-- A printed number is parsed back in front of a byte that ends it. -/
theorem parseNumber_decimal {n : Nat} (h : n < 10 ^ 15) {c : UInt8} (hc : isNumberByte c = false)
    (r : Bytes) : parseNumber (decimal n ++ c :: r) = some (.number (.ofInt n), c :: r) := by
  have hall : ∀ b ∈ decimal n, isNumberByte b = true := by
    intro b hb
    simp [isNumberByte, isDigit_of_mem_decimal hb]
  have htoken : (decimal n ++ c :: r).takeWhile isNumberByte = decimal n := by
    rw [List.takeWhile_append_of_pos hall, List.takeWhile_cons_of_neg (by simp [hc]),
      List.append_nil]
  have hlen : (decimal n).length ≤ 63 := Nat.le_trans (length_decimal (by decide) h) (by decide)
  have hpos : 0 ≠ (decimal n).length := fun heq =>
    decimal_ne_nil n (List.eq_nil_of_length_eq_zero heq.symm)
  unfold parseNumber
  simp only [htoken, List.take_of_length_le hlen, strtod_decimal h, List.length_nil,
    Nat.sub_zero, List.drop_left]
  exact if_neg hpos

/-! ## Objects -/

theorem skipWhitespace_cons {b : UInt8} (hb : 32 < b) (t : Bytes) :
    skipWhitespace (b :: t) = b :: t :=
  List.dropWhile_cons_of_neg (by simpa using hb)

theorem derives_field {m : Bytes × Field} (hm : Exact m) (d : Nat) {c : UInt8}
    (hc : isNumberByte c = false) (r : Bytes) :
    Derives d (skipWhitespace (m.2.print ++ c :: r)) (.value m.2.value) (c :: r) := by
  rcases m with ⟨name, field⟩
  cases field with
  | string s =>
      have hwhite : skipWhitespace (printString s ++ c :: r) = printString s ++ c :: r :=
        skipWhitespace_cons (by decide) _
      rw [Field.print, hwhite]
      exact .string (parseString_printString hm.2 _)
  | number n =>
      have hnum := parseNumber_decimal hm.2 hc r
      rw [Field.print]
      cases hd : decimal n with
      | nil => exact absurd hd (decimal_ne_nil n)
      | cons b t =>
          have hb : isDigit b := isDigit_of_mem_decimal (hd ▸ List.mem_cons_self)
          have hwhite : 32 < b := by
            simp only [isDigit, Bool.and_eq_true, decide_eq_true_eq, UInt8.le_iff_toNat_le] at hb
            exact UInt8.lt_iff_toNat_lt.mpr (Nat.lt_of_lt_of_le (by decide) hb.1)
          rw [hd, List.cons_append] at hnum
          rw [List.cons_append, skipWhitespace_cons hwhite]
          exact .number (.inr hb) hnum

theorem derives_members {ms : List (Bytes × Field)} (hne : ms ≠ []) (hms : ∀ m ∈ ms, Exact m)
    (d : Nat) (r : Bytes) :
    Derives d (printMembers ms ++ ch '\x7d' :: r)
      (.members (ms.map fun m => (m.1, m.2.value))) r := by
  -- the name of the first member, whatever follows its value
  have hname {m : Bytes × Field} (hm : Exact m) (u : Bytes) :
      parseString (skipWhitespace (printMember m ++ u)) =
        some (m.1, ch ':' :: (m.2.print ++ u)) := by
    have hsplit : printMember m ++ u = printString m.1 ++ ch ':' :: (m.2.print ++ u) := by
      rw [printMember, List.append_assoc, List.cons_append]
    have hwhite : skipWhitespace (printMember m ++ u) = printMember m ++ u :=
      skipWhitespace_cons (by decide) _
    rw [hwhite, hsplit, parseString_printString hm.1]
  induction ms with
  | nil => exact absurd rfl hne
  | cons m ms ih =>
      have hm := hms m List.mem_cons_self
      cases ms with
      | nil =>
          exact .lastMember (hname hm _) (skipWhitespace_cons (by decide) _)
            (derives_field hm d (by decide) r) (skipWhitespace_cons (by decide) _)
      | cons m' ms =>
          have hrest := ih (List.cons_ne_nil m' ms) fun x hx => hms x (List.mem_cons_of_mem m hx)
          have hprint : printMembers (m :: m' :: ms) ++ ch '\x7d' :: r =
              printMember m ++ ch ',' :: (printMembers (m' :: ms) ++ ch '\x7d' :: r) :=
            List.append_assoc _ _ _
          rw [hprint]
          exact .nextMember (hname hm _) (skipWhitespace_cons (by decide) _)
            (derives_field hm d (by decide) _) (skipWhitespace_cons (by decide) _) hrest

theorem derives_printUnformatted {ms : List (Bytes × Field)} (hms : ∀ m ∈ ms, Exact m)
    (r : Bytes) :
    Derives 0 (printUnformatted ms ++ r)
      (.value (.object (ms.map fun m => (m.1, m.2.value)))) r := by
  have hsplit : printUnformatted ms ++ r = ch '\x7b' :: (printMembers ms ++ ch '\x7d' :: r) := by
    simp [printUnformatted]
  rw [hsplit]
  cases ms with
  | nil => exact .emptyObject (by decide) (skipWhitespace_cons (by decide) _)
  | cons m ms =>
      obtain ⟨t, ht⟩ : ∃ t, printMembers (m :: ms) ++ ch '\x7d' :: r = ch '"' :: t := by
        cases ms <;> exact ⟨_, rfl⟩
      have hmembers := derives_members (List.cons_ne_nil m ms) hms 1 r
      rw [ht] at hmembers ⊢
      exact .object (by decide) (skipWhitespace_cons (by decide) t) (by decide) hmembers

theorem zero_not_mem_printString (s : Bytes) (hs : (0 : UInt8) ∉ s) :
    (0 : UInt8) ∉ printString s := by
  have hesc : (0 : UInt8) ∉ s.flatMap escapeByte := by
    rw [List.mem_flatMap]
    intro hmem
    rcases hmem with ⟨b, hb, hzero⟩
    rcases escapeByte_cases b with ⟨heq, -⟩ | ⟨c, heq, -, hc⟩ | ⟨hlow, heq⟩
    · rw [heq, List.mem_singleton] at hzero
      exact hs (hzero ▸ hb)
    · rw [heq, List.mem_cons, List.mem_singleton] at hzero
      rcases hzero with hzero | rfl
      · exact absurd hzero (by decide)
      · cases hc
    · have hnat : b.toNat ≤ 31 := UInt8.le_iff_toNat_le.mp hlow
      have h1 := (hexDigit_plain (n := b.toNat / 16) (by omega)).2.2
      have h2 := (hexDigit_plain (n := b.toNat % 16) (by omega)).2.2
      simp [heq, h1.symm, h2.symm] at hzero
  simp [printString, hesc]

theorem zero_not_mem_printMember {m : Bytes × Field} (hm : Exact m) :
    (0 : UInt8) ∉ printMember m := by
  have hfield : (0 : UInt8) ∉ m.2.print := by
    rcases m with ⟨name, field⟩
    cases field with
    | string s => exact zero_not_mem_printString s hm.2
    | number n => exact fun h => absurd (isDigit_of_mem_decimal h) (by decide)
  simp [printMember, zero_not_mem_printString m.1 hm.1, hfield]

theorem zero_not_mem_printUnformatted {ms : List (Bytes × Field)} (hms : ∀ m ∈ ms, Exact m) :
    (0 : UInt8) ∉ printUnformatted ms := by
  have hmembers : (0 : UInt8) ∉ printMembers ms := by
    fun_induction printMembers ms with
    | case1 => exact List.not_mem_nil
    | case2 m => exact zero_not_mem_printMember (hms m List.mem_cons_self)
    | case3 m ms hne ih =>
        have hm := zero_not_mem_printMember (hms m List.mem_cons_self)
        have hrest := ih fun x hx => hms x (List.mem_cons_of_mem m hx)
        simp [hm, hrest]
  simp [printUnformatted, hmembers]

/-- A printed object is what is parsed from any memory that starts with it. -/
theorem cJSONParse_printUnformatted {ms : List (Bytes × Field)} (hms : ∀ m ∈ ms, Exact m)
    (mem : Bytes) :
    cJSONParse (printUnformatted ms ++ mem) =
      some (.object (ms.map fun m => (m.1, m.2.value))) := by
  have hder := derives_printUnformatted hms (cstr mem)
  have htext : skipWhitespace (skipBom (printUnformatted ms ++ cstr mem)) =
      printUnformatted ms ++ cstr mem := by
    rw [skipBom, if_neg (by simp [printUnformatted]), printUnformatted, List.cons_append]
    exact skipWhitespace_cons (by decide) _
  have hfound : parseValue _ 0 _ = some _ := hder.found (Nat.le_refl _)
  unfold cJSONParse
  rw [cstr_append_of_no_zero (zero_not_mem_printUnformatted hms)]
  simp only [htext]
  exact Option.map_eq_some_iff.mpr ⟨_, hfound, rfl⟩

end EzIot.CJson
