import EzIot.Lib.Base128
import EzIot.Lib.Writer

/-! # The pieces of an MQTT packet

`MQTTPacket.c`: the header byte, the remaining length, integers of two bytes and texts
with their length in front. A pointer that is written through is a writer; one that is
read through is the memory from there on, with the distance to the end of the packet.
-/

namespace EzIot.Mqtt

open CText

/-! ## The header byte -/

/-- `msgTypes`. -/
inductive MsgType
  | connect | connack | publish | puback | pubrec | pubrel | pubcomp
  | subscribe | suback | unsubscribe | unsuback | pingreq | pingresp | disconnect
deriving DecidableEq

namespace MsgType

def code : MsgType → Nat
  | connect => 1
  | connack => 2
  | publish => 3
  | puback => 4
  | pubrec => 5
  | pubrel => 6
  | pubcomp => 7
  | subscribe => 8
  | suback => 9
  | unsubscribe => 10
  | unsuback => 11
  | pingreq => 12
  | pingresp => 13
  | disconnect => 14

theorem code_lt (t : MsgType) : t.code < 16 := by
  cases t <;> decide

end MsgType

/-- The members of `MQTTHeader.bits`. -/
structure MqttHeader where
  type : Nat
  dup : Nat
  qos : Nat
  retain : Nat
deriving DecidableEq

/-- `MQTTHeader.byte`, of members that are cut to their widths. -/
def MqttHeader.byte (h : MqttHeader) : UInt8 :=
  (h.type % 16 * 16 + h.dup % 2 * 8 + h.qos % 4 * 2 + h.retain % 2).toUInt8

def MqttHeader.ofByte (b : UInt8) : MqttHeader :=
  ⟨b.toNat / 16, b.toNat / 8 % 2, b.toNat / 2 % 4, b.toNat % 2⟩

def MqttHeader.Fits (h : MqttHeader) : Prop := h.type < 16 ∧ h.dup < 2 ∧ h.qos < 4 ∧ h.retain < 2

theorem MqttHeader.Fits.of_msgType (t : MsgType) {dup qos retain : Nat} (hdup : dup < 2) (hqos : qos < 4)
    (hretain : retain < 2) : Fits ⟨t.code, dup, qos, retain⟩ := ⟨t.code_lt, hdup, hqos, hretain⟩

theorem MqttHeader.ofByte_byte {h : MqttHeader} (hfits : h.Fits) : ofByte h.byte = h := by
  obtain ⟨htype, hdup, hqos, hretain⟩ := hfits
  have hnat : h.byte.toNat = h.type * 16 + h.dup * 8 + h.qos * 2 + h.retain := by
    unfold byte
    rw [Nat.toUInt8, UInt8.toNat_ofNat']
    omega
  cases h
  simp only at htype hdup hqos hretain hnat
  unfold ofByte
  rw [hnat, MqttHeader.mk.injEq]
  omega

theorem MqttHeader.byte_ofByte (b : UInt8) : (ofByte b).byte = b := by
  have hlt := b.toNat_lt
  rw [← UInt8.toNat_inj]
  unfold byte ofByte
  rw [Nat.toUInt8, UInt8.toNat_ofNat']
  simp only
  omega

/-! ## The remaining length -/

/-- `MQTTPacket_encode`. An `int` has at most five digits. -/
def mqttPacketEncodeDigits : Nat → Nat → Bytes
  | 0, _ => []
  | digits + 1, length =>
      let d := (length % 128).toUInt8
      if 0 < length / 128 then (d ||| 0x80) :: mqttPacketEncodeDigits digits (length / 128)
      else [d]

def mqttPacketEncode (length : Nat) : Bytes := mqttPacketEncodeDigits 5 length

/-- The loop of `MQTTPacket_decode`: `left` bytes may still be read. `getcharfn` has no
result where it reads outside of the memory, and gives no byte where it fails. -/
def mqttPacketDecodeLoop {σ : Type} (getcharfn : σ → Option (Option UInt8 × σ)) :
    Nat → Nat → Nat → σ → Option (Nat × Nat × σ)
  | 0, _, value, s => some (5, value, s)
  | left + 1, multiplier, value, s =>
      match getcharfn s with
      | none => none
      | some (none, s) => some (4 - left, value, s)
      | some (some c, s) =>
          let value := value + (c &&& 127).toNat * multiplier
          if c &&& 128 ≠ 0 then mqttPacketDecodeLoop getcharfn left (multiplier * 128) value s
          else some (4 - left, value, s)

/-- `MQTTPacket_decode`: the number of bytes and the value. -/
def mqttPacketDecode {σ : Type} (getcharfn : σ → Option (Option UInt8 × σ)) (s : σ) :
    Option (Nat × Nat × σ) :=
  mqttPacketDecodeLoop getcharfn 4 1 0 s

def bufchar : Bytes → Option (Option UInt8 × Bytes)
  | [] => none
  | c :: rest => some (some c, rest)

/-- `MQTTPacket_decodeBuf`; what it returns is also how far the caller's pointer moves. -/
def mqttPacketDecodeBuf (buf : Bytes) : Option (Nat × Nat) :=
  (mqttPacketDecode bufchar buf).map fun r => (r.1, r.2.1)

def mqttPacketLen (remLen : Nat) : Nat :=
  let remLen := remLen + 1
  if remLen < 128 then remLen + 1
  else if remLen < 16384 then remLen + 2
  else if remLen < 2097151 then remLen + 3
  else remLen + 4

/-! ### What is decoded from an encoded length -/

open Base128 in
theorem mqttPacketEncodeDigits_spec (digits : Nat) {n : Nat} (h : n < 128 ^ (digits + 1)) :
    IsField (mqttPacketEncodeDigits (digits + 1) n) ∧
      value (mqttPacketEncodeDigits (digits + 1) n) = n := by
  induction digits generalizing n with
  | zero =>
      have hlt : n < 128 := by simpa using h
      have hdiv : n / 128 = 0 := by omega
      have hmod : n % 128 = n := by omega
      obtain ⟨hdigit, hlast⟩ := last_digit hlt
      simp only [mqttPacketEncodeDigits, hdiv, hmod, Nat.lt_irrefl, if_false]
      exact ⟨.last hlast, by simp [value, hdigit]⟩
  | succ digits ih =>
      have hmod : n % 128 < 128 := Nat.mod_lt _ (by omega)
      rw [mqttPacketEncodeDigits]
      by_cases hdiv : 0 < n / 128
      · obtain ⟨hdigit, hmore⟩ := more_digit hmod
        have hrest : n / 128 < 128 ^ (digits + 1) := by
          rw [Nat.pow_succ] at h
          omega
        obtain ⟨hfield, hvalue⟩ := ih hrest
        rw [if_pos hdiv]
        refine ⟨.more hmore hfield, ?_⟩
        rw [value, hdigit, hvalue]
        omega
      · obtain ⟨hdigit, hlast⟩ := last_digit hmod
        rw [if_neg hdiv]
        refine ⟨.last hlast, ?_⟩
        rw [value, hdigit, value]
        omega

theorem length_mqttPacketEncode (n : Nat) :
    (mqttPacketEncode n).length =
      if n < 128 then 1 else if n < 16384 then 2 else if n < 2097152 then 3
      else if n < 268435456 then 4 else 5 := by
  simp only [mqttPacketEncode, mqttPacketEncodeDigits, Nat.div_div_eq_div_mul]
  grind

/-- The encodings of a length that a reader takes. Only one of them is written. -/
structure LengthField (field : Bytes) (n : Nat) : Prop where
  isField : Base128.IsField field
  short : field.length ≤ 4
  value : Base128.value field = n

theorem LengthField.encode {n : Nat} (h : n < 268435456) : LengthField (mqttPacketEncode n) n := by
  obtain ⟨hfield, hvalue⟩ := mqttPacketEncodeDigits_spec 4 (n := n) (by omega)
  refine ⟨hfield, ?_, hvalue⟩
  rw [length_mqttPacketEncode]
  grind

section Decode

variable {σ : Type} (getcharfn : σ → Option (Option UInt8 × σ))

/-- The source gives these bytes, one after the other. -/
inductive Gives : σ → Bytes → σ → Prop
  | nil (s : σ) : Gives s [] s
  | cons {s s' s'' : σ} {b : UInt8} {bs : Bytes} (h : getcharfn s = some (some b, s'))
      (hbs : Gives s' bs s'') : Gives s (b :: bs) s''

variable {getcharfn}

open Base128 in
theorem mqttPacketDecodeLoop_of_gives (multiplier val : Nat) {left : Nat} {s s' : σ} {bs : Bytes}
    (hleft : left ≤ 4) (hfield : IsField bs) (hlen : bs.length ≤ left)
    (h : Gives getcharfn s bs s') :
    mqttPacketDecodeLoop getcharfn left multiplier val s =
      some (4 - left + bs.length, val + multiplier * value bs, s') := by
  induction hfield generalizing left multiplier val s with
  | @last b hlast =>
      cases h with
      | cons hget hrest =>
          cases hrest
          cases left with
          | zero => simp at hlen
          | succ left =>
              have hstop : b &&& 128 = 0 := hlast
              have hcount : 4 - left = 4 - (left + 1) + 1 := by omega
              simp [mqttPacketDecodeLoop, hget, hstop, value, digit, hcount, Nat.mul_comm]
  | @more b bs hmore hfield ih =>
      cases h with
      | cons hget hrest =>
          cases left with
          | zero => simp at hlen
          | succ left =>
              have hgo : ¬ b &&& 128 = 0 := hmore
              have hshort : bs.length ≤ left := by simpa using hlen
              have hrec := ih (multiplier * 128) (val + (b &&& 127).toNat * multiplier) (by omega) hshort
                hrest
              simp only [mqttPacketDecodeLoop, hget, ne_eq, hgo, not_false_eq_true, if_true, hrec,
                Option.some.injEq, Prod.mk.injEq, and_true, List.length_cons]
              refine ⟨by omega, ?_⟩
              show _ = val + multiplier * (digit b + 128 * value bs)
              rw [Nat.mul_add, ← Nat.add_assoc, Nat.mul_comm _ multiplier, Nat.mul_assoc]
              rfl

theorem mqttPacketDecode_of_gives {s s' : σ} {field : Bytes} {n : Nat} (hn : LengthField field n)
    (h : Gives getcharfn s field s') :
    mqttPacketDecode getcharfn s = some (field.length, n, s') := by
  have hloop := mqttPacketDecodeLoop_of_gives 1 0 (Nat.le_refl 4)
    hn.isField hn.short h
  simpa [mqttPacketDecode, hn.value] using hloop

theorem mqttPacketDecodeLoop_le {left multiplier val len n : Nat} {s s' : σ}
    (h : mqttPacketDecodeLoop getcharfn left multiplier val s = some (len, n, s')) :
    n + multiplier ≤ val + multiplier * 128 ^ left := by
  induction left generalizing multiplier val s with
  | zero =>
      cases h
      omega
  | succ left ih =>
      have hpow : multiplier * 128 ^ (left + 1) = 128 * (multiplier * 128 ^ left) := by
        rw [Nat.pow_succ, ← Nat.mul_assoc, Nat.mul_comm]
      have hnext : multiplier * 128 * 128 ^ left = 128 * (multiplier * 128 ^ left) := by
        rw [Nat.mul_comm multiplier, Nat.mul_assoc]
      have hpos : multiplier ≤ multiplier * 128 ^ left :=
        Nat.le_mul_of_pos_right _ (Nat.pow_pos (by omega))
      unfold mqttPacketDecodeLoop at h
      split at h
      · cases h
      · cases h
        omega
      next c s₁ _ =>
        have hdigit : (c &&& 127).toNat ≤ 127 := by
          rw [UInt8.toNat_and]
          exact Nat.and_le_right
        have hproduct := Nat.mul_le_mul_right multiplier hdigit
        simp only at h
        split at h
        · have hrec := ih h
          omega
        · cases h
          omega

theorem mqttPacketDecode_lt {len n : Nat} {s s' : σ}
    (h : mqttPacketDecode getcharfn s = some (len, n, s')) : n < 268435456 := by
  have hle := mqttPacketDecodeLoop_le h
  omega

end Decode

theorem gives_bufchar (bs rest : Bytes) : Gives bufchar (bs ++ rest) bs rest := by
  induction bs with
  | nil => exact .nil rest
  | cons b bs ih => exact .cons rfl ih

theorem mqttPacketDecodeBuf_of_field {field : Bytes} {n : Nat} (h : LengthField field n)
    (rest : Bytes) : mqttPacketDecodeBuf (field ++ rest) = some (field.length, n) := by
  unfold mqttPacketDecodeBuf
  rw [mqttPacketDecode_of_gives h (gives_bufchar field rest)]
  rfl

/-- The length that is computed beforehand is one too large for four remaining lengths. -/
theorem mqttPacketLen_eq {n : Nat} (h : n < 268435456) :
    mqttPacketLen n = 1 + (mqttPacketEncode n).length + n +
      if n = 127 ∨ n = 16383 ∨ n = 2097150 ∨ n = 2097151 then 1 else 0 := by
  rw [length_mqttPacketEncode]
  simp only [mqttPacketLen]
  grind

/-! ## Writing -/

/-- `MQTTPACKET_BUFFER_TOO_SHORT`. -/
def bufferTooShort : Int := -2

def writeChar (w : Writer) (c : UInt8) : Option Writer := w.put [c]

def writeInt (w : Writer) (anInt : Nat) : Option Writer := do
  let w ← writeChar w (anInt / 256).toUInt8
  writeChar w (anInt % 256).toUInt8

def writeCString (w : Writer) (string : CString) : Option Writer := do
  let w ← writeInt w string.length
  w.put string.val

/-- `MQTTLenString`, with the memory that `data` points to. -/
structure MqttLenString where
  len : Nat
  data : Option Bytes
deriving DecidableEq

structure MqttString where
  cstring : Option CString
  lenstring : MqttLenString
deriving DecidableEq

/-- `MQTTString_initializer`. -/
def MqttString.initializer : MqttString := ⟨none, 0, none⟩

/-- The bytes of a `memcpy` from a pointer. -/
def copied (data : Option Bytes) (len : Nat) : Option Bytes :=
  data.bind fun d => if len ≤ d.length then some (d.take len) else none

def writeMqttString (w : Writer) (s : MqttString) : Option Writer :=
  if 0 < s.lenstring.len then do
    let w ← writeInt w s.lenstring.len
    let data ← copied s.lenstring.data s.lenstring.len
    w.put data
  else
    match s.cstring with
    | some string => writeCString w string
    | none => writeInt w 0

def mqttStrlen (s : MqttString) : Nat :=
  match s.cstring with
  | some string => string.length
  | none => s.lenstring.len

/-- The two bytes of an integer. -/
def intBytes (n : Nat) : Bytes := [(n / 256).toUInt8, (n % 256).toUInt8]

/-- A text with its length in front. -/
def textBytes (t : Bytes) : Bytes := intBytes t.length ++ t

@[simp] theorem length_intBytes (n : Nat) : (intBytes n).length = 2 := rfl

@[simp] theorem length_textBytes (t : Bytes) : (textBytes t).length = 2 + t.length := by
  rw [textBytes, List.length_append, length_intBytes]

theorem writeInt_eq (w : Writer) (n : Nat) : writeInt w n = w.put (intBytes n) :=
  w.put_put [(n / 256).toUInt8] [(n % 256).toUInt8]

theorem writeCString_eq (w : Writer) (s : CString) : writeCString w s = w.put (textBytes s.val) := by
  simp only [writeCString, writeInt_eq]
  exact w.put_put (intBytes s.length) s.val

def MqttString.Holds (s : MqttString) (t : Bytes) : Prop :=
  match s.cstring with
  | some string => s.lenstring.len = 0 ∧ string.val = t
  | none => s.lenstring.len = t.length ∧ (t ≠ [] → ∃ rest, s.lenstring.data = some (t ++ rest))

theorem MqttString.Holds.strlen {s : MqttString} {t : Bytes} (h : s.Holds t) :
    mqttStrlen s = t.length := by
  rcases s with ⟨_ | string, len, data⟩
  · exact h.1
  · exact congrArg List.length h.2

theorem writeMqttString_eq {s : MqttString} {t : Bytes} (h : s.Holds t) (w : Writer) :
    writeMqttString w s = w.put (textBytes t) := by
  rcases s with ⟨_ | string, len, data⟩
  · obtain ⟨hlen, hdata⟩ := h
    simp only at hlen
    subst hlen
    cases t with
    | nil => simp [writeMqttString, writeInt_eq, textBytes]
    | cons b t =>
        obtain ⟨rest, hrest⟩ := hdata (List.cons_ne_nil b t)
        have hcopied : copied data (b :: t).length = some (b :: t) := by
          have hmem : data = some (b :: t ++ rest) := hrest
          rw [hmem, copied, Option.bind_some, if_pos (by simp), List.take_left]
        simp only [writeMqttString, List.length_cons, Nat.zero_lt_succ, if_true, writeInt_eq]
        rw [← List.length_cons (a := b), hcopied]
        exact w.put_put (intBytes (b :: t).length) (b :: t)
  · obtain ⟨hlen, rfl⟩ := h
    simp only at hlen
    subst hlen
    simp [writeMqttString, writeCString_eq]

/-! ## Reading -/

/-- A pointer into a packet, and how far it is to `enddata`. -/
structure Cursor where
  rest : Bytes
  left : Int
deriving DecidableEq

def readChar (c : Cursor) : Option (UInt8 × Cursor) :=
  match c.rest with
  | b :: rest => some (b, ⟨rest, c.left - 1⟩)
  | [] => none

@[simp] theorem readChar_cons (b : UInt8) (rest : Bytes) (left : Int) :
    readChar ⟨b :: rest, left⟩ = some (b, ⟨rest, left - 1⟩) := rfl

/-- The remaining length: what `MQTTPacket_decodeBuf` returned, and the pointer behind it. -/
def readRemaining (buf : Bytes) : Option (Nat × Cursor) := do
  let (rc, mylen) ← mqttPacketDecodeBuf buf
  pure (rc, ⟨buf.drop rc, mylen⟩)

def readInt (c : Cursor) : Option (Nat × Cursor) :=
  match c.rest with
  | hi :: lo :: rest => some (256 * hi.toNat + lo.toNat, ⟨rest, c.left - 2⟩)
  | _ => none

/-- `readMQTTLenString`: whether a text was read. -/
def readMqttLenString (s : MqttString) (c : Cursor) : Option (Bool × MqttString × Cursor) :=
  if c.left > 1 then do
    let (len, c) ← readInt c
    if (len : Int) ≤ c.left then
      some (true, ⟨none, len, some c.rest⟩, ⟨c.rest.drop len, c.left - len⟩)
    else some (false, ⟨none, len, s.lenstring.data⟩, c)
  else some (false, ⟨none, s.lenstring⟩, c)

theorem readRemaining_of_field {field : Bytes} {n : Nat} (h : LengthField field n) (rest : Bytes) :
    readRemaining (field ++ rest) = some (field.length, ⟨rest, n⟩) := by
  simp [readRemaining, mqttPacketDecodeBuf_of_field h rest]

/-- The packet ends inside of the memory. -/
def Cursor.Inside (c : Cursor) : Prop := c.left ≤ c.rest.length

theorem readInt_eq_some_iff {c c' : Cursor} {n : Nat} :
    readInt c = some (n, c') ↔ n < 65536 ∧ c.rest = intBytes n ++ c'.rest ∧ c'.left = c.left - 2 := by
  rcases c with ⟨rest, left⟩
  rcases c' with ⟨rest', left'⟩
  constructor
  · intro h
    match rest, h with
    | hi :: lo :: rest, h =>
        simp only [readInt, Option.some.injEq, Prod.mk.injEq, Cursor.mk.injEq] at h
        obtain ⟨rfl, rfl, rfl⟩ := h
        have hhi := hi.toNat_lt
        have hlo := lo.toNat_lt
        have hdiv : (256 * hi.toNat + lo.toNat) / 256 = hi.toNat := by omega
        have hmod : (256 * hi.toNat + lo.toNat) % 256 = lo.toNat := by omega
        refine ⟨by omega, ?_, rfl⟩
        simp [intBytes, hdiv, hmod]
  · rintro ⟨hn, hrest, rfl⟩
    have hhi : ((n / 256).toUInt8).toNat = n / 256 := by
      rw [Nat.toUInt8, UInt8.toNat_ofNat']
      omega
    have hlo : ((n % 256).toUInt8).toNat = n % 256 := by
      rw [Nat.toUInt8, UInt8.toNat_ofNat']
      omega
    simp only at hrest
    subst hrest
    simp only [intBytes, List.cons_append, List.nil_append, readInt, hhi, hlo, Option.some.injEq,
      Prod.mk.injEq, and_true]
    omega

theorem readInt_intBytes {n : Nat} (h : n < 65536) (rest : Bytes) (left : Int) :
    readInt ⟨intBytes n ++ rest, left⟩ = some (n, ⟨rest, left - 2⟩) :=
  readInt_eq_some_iff.mpr ⟨h, rfl, rfl⟩

theorem readInt_eq_none_iff {c : Cursor} : readInt c = none ↔ c.rest.length < 2 := by
  rcases c with ⟨rest, left⟩
  match rest with
  | [] => simp [readInt]
  | [_] => simp [readInt]
  | _ :: _ :: _ => simp [readInt]

/-- Exactly the texts that end inside of the packet are read. -/
theorem readMqttLenString_eq_some_iff {s s' : MqttString} {c c' : Cursor} (hin : c.Inside) :
    readMqttLenString s c = some (true, s', c') ↔
      ∃ t : Bytes, t.length < 65536 ∧ c.rest = textBytes t ++ c'.rest ∧
        c'.left = c.left - (2 + t.length : Nat) ∧ 0 ≤ c'.left ∧
          s' = ⟨none, t.length, some (t ++ c'.rest)⟩ := by
  constructor
  · intro h
    unfold readMqttLenString at h
    split at h
    next hleft =>
      obtain ⟨⟨len, c₁⟩, hread, h⟩ := Option.bind_eq_some_iff.mp h
      obtain ⟨hlen, hrest, hleft₁⟩ := readInt_eq_some_iff.mp hread
      simp only at h
      split at h
      next hle =>
        simp only [Option.some.injEq, Prod.mk.injEq, true_and] at h
        obtain ⟨rfl, rfl⟩ := h
        have hmem : c.rest.length = 2 + c₁.rest.length := by
          rw [hrest, List.length_append, length_intBytes]
        have htake : (c₁.rest.take len).length = len := by
          rw [List.length_take]
          unfold Cursor.Inside at hin
          omega
        refine ⟨c₁.rest.take len, by omega, ?_, by simp only; omega, by simp only; omega, ?_⟩
        · rw [textBytes, htake, List.append_assoc, List.take_append_drop, hrest]
        · rw [htake, List.take_append_drop]
      next => simp at h
    next => simp at h
  · rintro ⟨t, ht, hrest, hleft, hpos, rfl⟩
    rcases c with ⟨rest, left⟩
    rcases c' with ⟨rest', left'⟩
    simp only at hrest hleft hpos
    subst hrest hleft
    have hle : (t.length : Int) ≤ left - 2 := by omega
    rw [readMqttLenString, if_pos (by simp only; omega), textBytes, List.append_assoc,
      readInt_intBytes ht, Option.bind_eq_bind, Option.bind_some]
    simp only [hle, if_true, List.drop_left, Option.some.injEq, Prod.mk.injEq, Cursor.mk.injEq,
      true_and]
    omega

theorem readMqttLenString_textBytes {t : Bytes} (h : t.length < 65536) (s : MqttString)
    (rest : Bytes) {left : Int} (hin : Cursor.Inside ⟨textBytes t ++ rest, left⟩)
    (hleft : (2 + t.length : Nat) ≤ left) :
    readMqttLenString s ⟨textBytes t ++ rest, left⟩ =
      some (true, ⟨none, t.length, some (t ++ rest)⟩, ⟨rest, left - (2 + t.length : Nat)⟩) :=
  (readMqttLenString_eq_some_iff hin).mpr ⟨t, h, rfl, rfl, by simp only; omega, rfl⟩

/-- No text ends inside of the body. -/
def NoText (body : Bytes) : Prop :=
  ∀ t tail : Bytes, t.length < 65536 → body ≠ textBytes t ++ tail

/-- The body of a packet begins with a text, or the reader says that it does not. -/
theorem readMqttLenString_cases (s : MqttString) (body rest : Bytes) :
    (∃ t tail : Bytes, t.length < 65536 ∧ body = textBytes t ++ tail ∧
      readMqttLenString s ⟨body ++ rest, body.length⟩ =
        some (true, ⟨none, t.length, some (t ++ (tail ++ rest))⟩, ⟨tail ++ rest, tail.length⟩)) ∨
    NoText body ∧ ∃ s' c', readMqttLenString s ⟨body ++ rest, body.length⟩ = some (false, s', c') := by
  have hin : Cursor.Inside ⟨body ++ rest, body.length⟩ := by
    simp only [Cursor.Inside, List.length_append]
    omega
  by_cases htext : NoText body
  · refine .inr ⟨htext, ?_⟩
    cases hread : readMqttLenString s ⟨body ++ rest, body.length⟩ with
    | none =>
        -- two bytes are there where the length of the packet says so
        unfold readMqttLenString at hread
        split at hread
        next hleft =>
          match body, rest, hleft, hread with
          | _ :: _ :: _, _, _, hread =>
              simp only [List.cons_append, readInt, Option.bind_eq_bind, Option.bind_some] at hread
              split at hread <;> simp at hread
          | [_], _, hleft, _ => simp at hleft
          | [], _, hleft, _ => simp at hleft
        next => simp at hread
    | some r =>
        rcases r with ⟨ok, s', c'⟩
        cases ok with
        | false => exact ⟨s', c', rfl⟩
        | true =>
            obtain ⟨t, ht, hrest, hleft, hpos, -⟩ := (readMqttLenString_eq_some_iff hin).mp hread
            simp only at hrest hleft
            have hprefix : textBytes t <+: body := by
              have htext : textBytes t <+: body ++ rest := ⟨_, hrest.symm⟩
              apply List.prefix_of_prefix_length_le htext
              · exact List.prefix_append body rest
              · rw [length_textBytes]
                omega
            obtain ⟨tail, htail⟩ := hprefix
            exact absurd htail.symm (htext t tail ht)
  · left
    simp only [NoText, not_forall, not_not] at htext
    obtain ⟨t, tail, ht, rfl⟩ := htext
    refine ⟨t, tail, ht, rfl, ?_⟩
    rw [List.append_assoc] at hin ⊢
    rw [readMqttLenString_textBytes ht s _ hin
      (by simp only [List.length_append, length_textBytes]; omega)]
    simp only [List.length_append, length_textBytes, Option.some.injEq, Prod.mk.injEq,
      Cursor.mk.injEq, true_and]
    omega

theorem MqttString.holds_lenstring (t rest : Bytes) :
    Holds ⟨none, t.length, some (t ++ rest)⟩ t := ⟨rfl, fun _ => ⟨rest, rfl⟩⟩

/-- `strncmp(a, b, n) == 0` of texts with at least `n` bytes or a terminator. -/
def strncmpZero : Nat → Bytes → Bytes → Bool
  | 0, _, _ => true
  | _, [], [] => true
  | n + 1, a :: as, b :: bs => a == b && (a == 0 || strncmpZero n as bs)
  | _ + 1, a :: _, [] => a == 0
  | _ + 1, [], b :: _ => b == 0

/-- `MQTTPacket_equals`, where `strncmp` of a pointer that is zero has no result. -/
def mqttPacketEquals (a : MqttString) (b : CString) : Option Bool :=
  let (aptr, alen) := match a.cstring with
    | some string => (some string.val, string.length)
    | none => (copied a.lenstring.data a.lenstring.len, a.lenstring.len)
  if alen = b.length then aptr.map fun p => strncmpZero alen p b.val else some false

end EzIot.Mqtt
