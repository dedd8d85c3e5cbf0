import EzIot.CJson.Print
import EzIot.Kernel.Queue

/-! # Headers of the frames

A frame starts with the length of its header in two bytes, most significant
first; the header is a JSON object with the sequence number and, in the older
protocol, the version of the command.
-/

namespace EzIot.Das

open CText Kernel CJson

/-! ## The length of the header -/

def serializeShort (n : UInt16) : Bytes := [(n / 256).toUInt8, (n % 256).toUInt8]

theorem toNat_toUInt16 {n : Nat} (h : n < 2 ^ 16) : n.toUInt16.toNat = n := by
  show (UInt16.ofNat n).toNat = n
  rw [UInt16.toNat_ofNat', Nat.mod_eq_of_lt h]

def deserializeShort (b0 b1 : UInt8) : UInt16 := b0.toUInt16 * 256 + b1.toUInt16

theorem toNat_deserializeShort (b0 b1 : UInt8) :
    (deserializeShort b0 b1).toNat = b0.toNat * 256 + b1.toNat := by
  have h0 := b0.toNat_lt
  have h1 := b1.toNat_lt
  simp only [deserializeShort, UInt16.toNat_add, UInt16.toNat_mul, UInt8.toNat_toUInt16]
  show (b0.toNat * 256 % 2 ^ 16 + b1.toNat) % 2 ^ 16 = _
  omega

theorem deserializeShort_serializeShort (n : UInt16) :
    deserializeShort (n / 256).toUInt8 (n % 256).toUInt8 = n := by
  have hn := n.toNat_lt
  apply UInt16.toNat_inj.mp
  rw [toNat_deserializeShort, UInt16.toNat_toUInt8, UInt16.toNat_toUInt8, UInt16.toNat_div,
    UInt16.toNat_mod]
  show n.toNat / 256 % 2 ^ 8 * 256 + n.toNat % 256 % 2 ^ 8 = n.toNat
  omega

theorem serializeShort_deserializeShort (b0 b1 : UInt8) :
    serializeShort (deserializeShort b0 b1) = [b0, b1] := by
  have h0 := b0.toNat_lt
  have h1 := b1.toNat_lt
  have hn := toNat_deserializeShort b0 b1
  have hhigh : (deserializeShort b0 b1 / 256).toUInt8 = b0 := by
    rw [← UInt8.toNat_inj, UInt16.toNat_toUInt8, UInt16.toNat_div, hn]
    show (b0.toNat * 256 + b1.toNat) / 256 % 2 ^ 8 = b0.toNat
    omega
  have hlow : (deserializeShort b0 b1 % 256).toUInt8 = b1 := by
    rw [← UInt8.toNat_inj, UInt16.toNat_toUInt8, UInt16.toNat_mod, hn]
    show (b0.toNat * 256 + b1.toNat) % 256 % 2 ^ 8 = b1.toNat
    omega
  rw [serializeShort, hhigh, hlow]

/-! ## Writing -/

def seqName : Bytes := ascii "Seq"
def cmdVerName : Bytes := ascii "CmdVer"
def msgTypeName : Bytes := ascii "MsgType"

def serializePayloadCommonV3 (msgSeq : UInt32) : Bytes :=
  printUnformatted [(seqName, .number msgSeq.toNat)]

def serializePayloadCommon (msgType : Nat) (cmdVersion : CField 32) (msgSeq : UInt32) : Bytes :=
  printUnformatted [(cmdVerName, .string cmdVersion.val), (seqName, .number msgSeq.toNat),
    (msgTypeName, .number msgType)]

/-! ## Reading -/

/-- What `deserialize_common` puts into the message. -/
structure CommonHeader where
  msgSeq : UInt32
  commandVer : CField 32
deriving DecidableEq

/-- The sequence number that is stored for a number item. -/
def seqOf (d : Dbl) : UInt32 := UInt32.ofInt d.valueint

/-- `deserialize_common_v3` on the memory behind the length. -/
def deserializeCommonV3 (commonBuf : Bytes) : Except MkernelError UInt32 :=
  match cJSONParse commonBuf with
  | none => .error .jsonParseError
  | some item =>
      match item.getObjectItem seqName with
      | some (.number d) => .ok (seqOf d)
      | _ => .error .jsonParseError

def deserializeCommon (commonBuf : Bytes) : Except MkernelError CommonHeader :=
  match cJSONParse commonBuf with
  | none => .error .jsonParseError
  | some item =>
      match item.getObjectItem seqName, item.getObjectItem cmdVerName with
      | some (.number d), some (.string s) =>
          .ok ⟨seqOf d, CField.strncpy (CString.ofMem s)⟩
      | _, _ => .error .jsonParseError

/-! ## Reading back what was written -/

theorem exact_seq (msgSeq : UInt32) : Exact (seqName, .number msgSeq.toNat) := by
  have hname : (0 : UInt8) ∉ seqName := by decide
  have hseq := msgSeq.toNat_lt
  refine ⟨hname, ?_⟩
  show msgSeq.toNat < 10 ^ 15
  omega

theorem deserializeCommonV3_serialize (msgSeq : UInt32) (mem : Bytes) :
    deserializeCommonV3 (serializePayloadCommonV3 msgSeq ++ mem) =
      .ok (seqOf (.ofInt msgSeq.toNat)) := by
  have hexact : ∀ m ∈ [(seqName, Field.number msgSeq.toNat)], Exact m := by
    simpa using exact_seq msgSeq
  have hparse := cJSONParse_printUnformatted hexact mem
  unfold deserializeCommonV3 serializePayloadCommonV3
  rw [hparse]
  rfl

theorem deserializeCommon_serialize {msgType : Nat} (htype : msgType < 10 ^ 15)
    (cmdVersion : CField 32) (msgSeq : UInt32) (mem : Bytes) :
    deserializeCommon (serializePayloadCommon msgType cmdVersion msgSeq ++ mem) =
      .ok ⟨seqOf (.ofInt msgSeq.toNat), cmdVersion⟩ := by
  have hver : (0 : UInt8) ∉ cmdVerName := by decide
  have hmsgType : (0 : UInt8) ∉ msgTypeName := by decide
  have hexact : ∀ m ∈ [(cmdVerName, Field.string cmdVersion.val),
      (seqName, .number msgSeq.toNat), (msgTypeName, .number msgType)], Exact m := by
    intro m hm
    simp only [List.mem_cons, List.not_mem_nil, or_false] at hm
    rcases hm with rfl | rfl | rfl
    · exact ⟨hver, cmdVersion.noNul⟩
    · exact exact_seq msgSeq
    · exact ⟨hmsgType, htype⟩
  have hcopy : CField.strncpy (CString.ofMem cmdVersion.val) = cmdVersion := by
    have hmem : CString.ofMem cmdVersion.val = cmdVersion.toCString :=
      CString.ext (cstr_of_no_zero cmdVersion.noNul)
    rw [hmem]
    exact CField.strncpy_toCString cmdVersion
  have hparse := cJSONParse_printUnformatted hexact mem
  unfold deserializeCommon serializePayloadCommon
  rw [hparse]
  show Except.ok (CommonHeader.mk _ (CField.strncpy (CString.ofMem cmdVersion.val))) = _
  rw [hcopy]

/-! ## Lengths -/

theorem length_decimal_uint32 (n : UInt32) : (decimal n.toNat).length ≤ 10 := by
  have hn := n.toNat_lt
  exact length_decimal (by decide) (by omega)

theorem length_serializePayloadCommonV3 (msgSeq : UInt32) :
    (serializePayloadCommonV3 msgSeq).length ≤ 18 := by
  have hseq := length_decimal_uint32 msgSeq
  have hname : (printString seqName).length = 5 := by decide
  simp only [serializePayloadCommonV3, printUnformatted, printMembers, printMember, Field.print,
    List.length_cons, List.length_append, List.length_nil, hname]
  omega

theorem length_serializePayloadCommon {msgType : Nat} (htype : msgType < 10 ^ 15)
    (cmdVersion : CField 32) (msgSeq : UInt32) :
    (serializePayloadCommon msgType cmdVersion msgSeq).length < 1000 := by
  have hseq := length_decimal_uint32 msgSeq
  have htypeLen := length_decimal (by decide) htype
  have hver := length_printString_le cmdVersion.val
  have hfits := cmdVersion.fits
  have hcmd : (printString cmdVerName).length = 8 := by decide
  have hname : (printString seqName).length = 5 := by decide
  have hmsgType : (printString msgTypeName).length = 9 := by decide
  simp only [serializePayloadCommon, printUnformatted, printMembers, printMember, Field.print,
    List.length_cons, List.length_append, List.length_nil, hname, hcmd, hmsgType]
  omega

/-- A sequence number survives the signed `valueint` exactly below `2 ^ 31`. -/
theorem seqOf_eq_iff (msgSeq : UInt32) :
    seqOf (.ofInt msgSeq.toNat) = msgSeq ↔ msgSeq.toNat < 2 ^ 31 := by
  have hseq := msgSeq.toNat_lt
  unfold seqOf
  rw [Dbl.valueint_ofInt, ← UInt32.toNat_inj]
  show (UInt32.ofNat _).toNat = _ ↔ _
  rw [UInt32.toNat_ofNat']
  unfold intMin intMax
  omega

end EzIot.Das
