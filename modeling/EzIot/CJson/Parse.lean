import EzIot.CJson.Value

/-! # The cJSON parser

The parser of `cJSON_ParseWithOpts` on the text before the terminator: the rest
of a parse is the list of bytes not yet consumed, and the end of that list is the
zero byte. Nothing asks for the whole text to be consumed, so bytes after the
first value are ignored. The recursion carries fuel; `cJSONParse` supplies enough
for every text (`parseValue_fuel`).
-/

namespace EzIot.CJson

open CText

abbrev ch (c : Char) : UInt8 := c.toNat.toUInt8

/-- `buffer_skip_whitespace`: every byte up to the space counts as white. -/
def skipWhitespace (t : Bytes) : Bytes := t.dropWhile (· ≤ 32)

theorem length_skipWhitespace (t : Bytes) : (skipWhitespace t).length ≤ t.length :=
  List.length_dropWhile_le _ t

/-! ## Numbers -/

/-- The bytes `parse_number` copies into its buffer. -/
def isNumberByte (b : UInt8) : Bool :=
  isDigit b || b == ch '+' || b == ch '-' || b == ch 'e' || b == ch 'E' || b == ch '.'

def takeFraction : Bytes → Bytes × Bytes
  | [] => ([], [])
  | b :: t =>
      if b = ch '.' then (t.takeWhile isDigit, t.dropWhile isDigit) else ([], b :: t)

/-- The exponent part; it counts only when it has a digit. -/
def takeExponent : Bytes → Int × Bytes
  | [] => (0, [])
  | b :: t =>
      if b = ch 'e' ∨ b = ch 'E' then
        let (neg, u) := takeSign t
        if u.takeWhile isDigit = [] then (0, b :: t)
        else
          let e : Int := digitsValue (u.takeWhile isDigit)
          (if neg then -e else e, u.dropWhile isDigit)
      else (0, b :: t)

/-- The rational `m * 10 ^ e`. -/
def decimalValue (m : Int) (e : Int) : Rat :=
  if 0 ≤ e then (m * 10 ^ e.toNat : Int) else mkRat m (10 ^ (-e).toNat)

/-- `strtod` on the bytes of a number token: the value and what it did not use. -/
def strtod (t : Bytes) : Option (Dbl × Bytes) :=
  let (neg, t1) := takeSign t
  let whole := t1.takeWhile isDigit
  let (frac, t3) := takeFraction (t1.dropWhile isDigit)
  if whole = [] ∧ frac = [] then none
  else
    let (e, t4) := takeExponent t3
    let m : Int := digitsValue (whole ++ frac)
    some (binary64 (decimalValue (if neg then -m else m) (e - frac.length)), t4)

/-- `parse_number`: at most 63 bytes are looked at. -/
def parseNumber (t : Bytes) : Option (Value × Bytes) :=
  let token := (t.takeWhile isNumberByte).take 63
  match strtod token with
  | none => none
  | some (d, unused) =>
      if unused.length = token.length then none
      else some (.number d, t.drop (token.length - unused.length))

/-! ## Strings -/

/-- Find the closing quote: the raw literal and what follows the quote. A
backslash hides the byte after it. -/
def scanString : Bytes → Option (Bytes × Bytes)
  | [] => none
  | [b] => if b = ch '"' then some ([], []) else none
  | b :: c :: t =>
      if b = ch '"' then some ([], c :: t)
      else if b = ch '\\' then (scanString t).map fun r => (b :: c :: r.1, r.2)
      else (scanString (c :: t)).map fun r => (b :: r.1, r.2)

def hexValue (b : UInt8) : Option Nat :=
  if 48 ≤ b ∧ b ≤ 57 then some (b.toNat - 48)
  else if 65 ≤ b ∧ b ≤ 70 then some (b.toNat - 55)
  else if 97 ≤ b ∧ b ≤ 102 then some (b.toNat - 87)
  else none

/-- `parse_hex4`: a byte that is no digit makes the whole number zero. -/
def parseHex4 (a b c d : UInt8) : Nat :=
  match hexValue a, hexValue b, hexValue c, hexValue d with
  | some w, some x, some y, some z => ((w * 16 + x) * 16 + y) * 16 + z
  | _, _, _, _ => 0

def utf8Encode (cp : Nat) : Bytes :=
  if cp < 0x80 then [cp.toUInt8]
  else if cp < 0x800 then [(0xC0 + cp / 64).toUInt8, (0x80 + cp % 64).toUInt8]
  else if cp < 0x10000 then
    [(0xE0 + cp / 4096).toUInt8, (0x80 + cp / 64 % 64).toUInt8, (0x80 + cp % 64).toUInt8]
  else
    [(0xF0 + cp / 262144).toUInt8, (0x80 + cp / 4096 % 64).toUInt8,
      (0x80 + cp / 64 % 64).toUInt8, (0x80 + cp % 64).toUInt8]

def simpleEscape (c : UInt8) : Option UInt8 :=
  if c = ch 'b' then some 8
  else if c = ch 'f' then some 12
  else if c = ch 'n' then some 10
  else if c = ch 'r' then some 13
  else if c = ch 't' then some 9
  else if c = ch '"' ∨ c = ch '\\' ∨ c = ch '/' then some c
  else none

/-- `utf16_literal_to_utf8` on the bytes after `\u`: the encoded code point and
how many bytes of the raw literal the escape took besides the `\u`. -/
def utf16Literal : Bytes → Option (Bytes × Nat)
  | a :: b :: c :: d :: t =>
      let first := parseHex4 a b c d
      if 0xDC00 ≤ first ∧ first ≤ 0xDFFF then none
      else if 0xD800 ≤ first ∧ first ≤ 0xDBFF then
        match t with
        | x :: y :: e :: f :: g :: h :: _ =>
            let second := parseHex4 e f g h
            if x = ch '\\' ∧ y = ch 'u' ∧ 0xDC00 ≤ second ∧ second ≤ 0xDFFF then
              some (utf8Encode (0x10000 + first % 1024 * 1024 + second % 1024), 10)
            else none
        | _ => none
      else some (utf8Encode first, 4)
  | _ => none

/-- The second loop of `parse_string`: resolve the escapes of a raw literal. -/
def unescape : Nat → Bytes → Option Bytes
  | 0, _ => none
  | _ + 1, [] => some []
  | fuel + 1, b :: t =>
      if b = ch '\\' then
        match t with
        | [] => none
        | c :: t' =>
            if c = ch 'u' then
              match utf16Literal t' with
              | none => none
              | some (bytes, n) => (unescape fuel (t'.drop n)).map (bytes ++ ·)
            else
              match simpleEscape c with
              | none => none
              | some e => (unescape fuel t').map (e :: ·)
      else (unescape fuel t).map (b :: ·)

/-- `parse_string`: the text up to its first zero byte and the rest. -/
def parseString : Bytes → Option (Bytes × Bytes)
  | [] => none
  | b :: t =>
      if b = ch '"' then
        match scanString t with
        | none => none
        | some (raw, rest) =>
            match unescape (raw.length + 1) raw with
            | none => none
            | some s => some (cstr s, rest)
      else none

/-! ## Values -/

def nestingLimit : Nat := 1000

mutual

/-- `parse_value`, `parse_array` and `parse_object` up to their first element. -/
def parseValue : Nat → Nat → Bytes → Option (Value × Bytes)
  | 0, _, _ => none
  | fuel + 1, depth, t =>
      if (ascii "null").isPrefixOf t then some (.null, t.drop 4)
      else if (ascii "false").isPrefixOf t then some (.bool false, t.drop 5)
      else if (ascii "true").isPrefixOf t then some (.bool true, t.drop 4)
      else
        match t with
        | [] => none
        | b :: r =>
            if b = ch '"' then (parseString t).map fun x => (.string x.1, x.2)
            else if b = ch '-' ∨ isDigit b then parseNumber t
            else if b = ch '[' then
              if nestingLimit ≤ depth then none
              else
                match skipWhitespace r with
                | [] => none
                | c :: r' =>
                    if c = ch ']' then some (.array [], r')
                    else (parseElements fuel (depth + 1) (c :: r')).map
                      fun x => (.array x.1, x.2)
            else if b = ch '\x7b' then
              if nestingLimit ≤ depth then none
              else
                match skipWhitespace r with
                | [] => none
                | c :: r' =>
                    if c = ch '\x7d' then some (.object [], r')
                    else (parseMembers fuel (depth + 1) (c :: r')).map
                      fun x => (.object x.1, x.2)
            else none

/-- The comma separated elements of an array, up to the closing bracket. -/
def parseElements : Nat → Nat → Bytes → Option (List Value × Bytes)
  | 0, _, _ => none
  | fuel + 1, depth, t =>
      match parseValue fuel depth (skipWhitespace t) with
      | none => none
      | some (v, r) =>
          match skipWhitespace r with
          | [] => none
          | c :: r' =>
              if c = ch ',' then (parseElements fuel depth r').map fun x => (v :: x.1, x.2)
              else if c = ch ']' then some ([v], r')
              else none

/-- The comma separated members of an object, up to the closing brace. -/
def parseMembers : Nat → Nat → Bytes → Option (List (Bytes × Value) × Bytes)
  | 0, _, _ => none
  | fuel + 1, depth, t =>
      match parseString (skipWhitespace t) with
      | none => none
      | some (name, r) =>
          match skipWhitespace r with
          | [] => none
          | c :: r' =>
              if c = ch ':' then
                match parseValue fuel depth (skipWhitespace r') with
                | none => none
                | some (v, r'') =>
                    match skipWhitespace r'' with
                    | [] => none
                    | d :: r''' =>
                        if d = ch ',' then
                          (parseMembers fuel depth r''').map fun x => ((name, v) :: x.1, x.2)
                        else if d = ch '\x7d' then some ([(name, v)], r''')
                        else none
              else none

end

/-- `skip_utf8_bom`: a mark counts only when a fourth byte follows. -/
def skipBom (t : Bytes) : Bytes :=
  if 4 ≤ t.length ∧ [0xEF, 0xBB, 0xBF].isPrefixOf t then t.drop 3 else t

/-- `cJSON_Parse` on the memory at an address. -/
def cJSONParse (mem : Bytes) : Option Value :=
  let t := skipWhitespace (skipBom (cstr mem))
  (parseValue (2 * t.length + 1) 0 t).map (·.1)

end EzIot.CJson
