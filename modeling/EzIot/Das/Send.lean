import EzIot.Das.Isolation
import EzIot.Kernel.Upstream

/-! # Sending frames

The payloads of `das_send_pubmsg_v3` and `das_send_pubmsg`, with memory for their
buffers, and what the decoders read back from them.
-/

namespace EzIot.Das

open CText Kernel CJson

/-! ## The payload of a message -/

/-- The shared part of the senders: length, header and body in a zeroed buffer of
the padded length, then encrypted. -/
def buildPayload (cipher : Cipher) (common body : Bytes) : Option Bytes :=
  let commonLen := common.length.toUInt16
  let len := commonLen.toUInt32 + 2 + body.length.toUInt32
  let payloadLen := calculatePaddingLen len
  match memcpy (List.replicate payloadLen.toNat 0) 0 (serializeShort commonLen) with
  | none => none
  | some buf =>
      match memcpy buf 2 (common.take commonLen.toNat) with
      | none => none
      | some buf =>
          match memcpy buf (2 + commonLen.toNat) body with
          | none => none
          | some buf => aesCbc128EncPadding cipher buf len payloadLen

/-- The payload that `das_send_pubmsg_v3` publishes. -/
def dasSendPubmsgV3 (cipher : Cipher) (msg : PubmsgV3) : Option Bytes :=
  buildPayload cipher (serializePayloadCommonV3 msg.msgSeq) msg.msgBody

/-- `MSG_TYPE_REQ` and `MSG_TYPE_RSP`. -/
def msgTypeOf (msgResponse : Bool) : Nat := if msgResponse then 2 else 1

/-- The payload that `das_send_pubmsg` publishes. -/
def dasSendPubmsg (cipher : Cipher) (msg : Pubmsg) : Option Bytes :=
  buildPayload cipher
    (serializePayloadCommon (msgTypeOf msg.msgResponse) msg.commandVer msg.msgSeq) msg.msgBody

/-! ## What is in it -/

theorem toNat_calculatePaddingLen {len : UInt32} (h : len.toNat + 16 < 2 ^ 32) :
    (calculatePaddingLen len).toNat = len.toNat + (16 - len.toNat % 16) := by
  have hmask : (len &&& 0x0F).toNat = len.toNat % 16 := by
    rw [UInt32.toNat_and]
    exact Nat.and_two_pow_sub_one_eq_mod len.toNat 4
  unfold calculatePaddingLen
  rw [UInt32.toNat_add, UInt32.toNat_sub, hmask]
  show ((2 ^ 32 - len.toNat % 16 + 16) % 2 ^ 32 + len.toNat) % 2 ^ 32 = _
  omega

/-- Padding a buffer with room behind the text, whatever is in it, and encrypting. -/
theorem aesCbc128EncPadding_room (cipher : Cipher) {data room : Bytes} {len : UInt32}
    (hlen : len.toNat = data.length) (hsize : data.length + 16 < 2 ^ 32)
    (hroom : (calculatePaddingLen len).toNat ≤ data.length + room.length) :
    aesCbc128EncPadding cipher (data ++ room) len (calculatePaddingLen len) =
      some (cipher.enc (data ++ padding data)) := by
  have hfits : len.toNat + 16 < 2 ^ 32 := by omega
  have hpad := toNat_calculatePaddingLen hfits
  rw [hlen] at hpad
  rw [hpad] at hroom
  have hcount : (calculatePaddingLen len).toNat - data.length = 16 - data.length % 16 := by omega
  have hchar : (calculatePaddingLen len - len).toUInt8 = (16 - data.length % 16).toUInt8 := by
    rw [← UInt8.toNat_inj, UInt32.toNat_toUInt8, UInt32.toNat_sub, hpad]
    show _ = (UInt8.ofNat _).toNat
    rw [UInt8.toNat_ofNat']
    omega
  have htake : 16 - data.length % 16 = (room.take (16 - data.length % 16)).length := by
    rw [List.length_take]
    omega
  have hset := memset_append (16 - data.length % 16).toUInt8 rfl htake
    (room.drop (16 - data.length % 16)) (a := data)
  rw [List.take_append_drop] at hset
  have hwhole : (data ++ (padding data ++ room.drop (16 - data.length % 16))).take
      (calculatePaddingLen len).toNat = data ++ padding data := by
    rw [← List.append_assoc]
    apply List.take_left'
    rw [List.length_append, length_padding, hpad]
  unfold aesCbc128EncPadding
  simp only [hlen, hcount, hchar, hset]
  exact congrArg (fun t => some (cipher.enc t)) hwhole

/-- The senders add up the length of the frame in 32 bits. -/
theorem toNat_frameLen (h : HeaderBytes) {body : Bytes}
    (hfits : (frameOf h body).length + 16 < 2 ^ 32) :
    (h.val.length.toUInt16.toUInt32 + 2 + body.length.toUInt32).toNat =
      (frameOf h body).length := by
  have hshort := h.short
  have hframe := length_frameOf h body
  rw [UInt32.toNat_add, UInt32.toNat_add, UInt16.toNat_toUInt32, toNat_toUInt16 hshort,
    toNat_toUInt32 (by omega)]
  show ((h.val.length + 2) % 2 ^ 32 + body.length) % 2 ^ 32 = _
  omega

theorem buildPayload_eq (cipher : Cipher) (h : HeaderBytes) {body : Bytes}
    (hfits : (frameOf h body).length + 16 < 2 ^ 32) :
    buildPayload cipher h.val body =
      some (cipher.enc (frameOf h body ++ padding (frameOf h body))) := by
  have hframe := length_frameOf h body
  have hcommon := toNat_toUInt16 h.short
  have hlen := toNat_frameLen h hfits
  have hpad := toNat_calculatePaddingLen (hlen ▸ hfits)
  rw [hlen] at hpad
  -- the zeroed buffer in the four pieces that are written one after the other
  have hbuf : List.replicate (calculatePaddingLen
      (h.val.length.toUInt16.toUInt32 + 2 + body.length.toUInt32)).toNat (0 : UInt8) =
        [] ++ (List.replicate 2 0 ++ (List.replicate h.val.length 0 ++
          (List.replicate body.length 0 ++
            List.replicate (16 - (frameOf h body).length % 16) 0))) := by
    simp only [List.nil_append, List.replicate_append_replicate]
    congr 1
    omega
  have hone : memcpy (List.replicate (calculatePaddingLen
      (h.val.length.toUInt16.toUInt32 + 2 + body.length.toUInt32)).toNat 0) 0
        (serializeShort h.val.length.toUInt16) =
      some (serializeShort h.val.length.toUInt16 ++ (List.replicate h.val.length 0 ++
        (List.replicate body.length 0 ++
          List.replicate (16 - (frameOf h body).length % 16) 0))) := by
    have htwoBytes : (serializeShort h.val.length.toUInt16).length =
        (List.replicate 2 (0 : UInt8)).length := rfl
    rw [hbuf]
    exact memcpy_append List.length_nil.symm htwoBytes _
  have htwo (rest : Bytes) : memcpy (serializeShort h.val.length.toUInt16 ++
      (List.replicate h.val.length 0 ++ rest)) 2 (h.val.take h.val.length) =
        some (serializeShort h.val.length.toUInt16 ++ (h.val ++ rest)) := by
    rw [List.take_length]
    exact memcpy_append rfl List.length_replicate.symm rest
  have hthree (rest : Bytes) : memcpy (serializeShort h.val.length.toUInt16 ++
      (h.val ++ (List.replicate body.length 0 ++ rest))) (2 + h.val.length) body =
        some (frameOf h body ++ rest) := by
    have hcopy : memcpy ((serializeShort h.val.length.toUInt16 ++ h.val) ++
        (List.replicate body.length 0 ++ rest)) (2 + h.val.length) body =
          some ((serializeShort h.val.length.toUInt16 ++ h.val) ++ (body ++ rest)) :=
      memcpy_append List.length_append.symm List.length_replicate.symm rest
    simpa [frameOf] using hcopy
  unfold buildPayload
  simp only [hone, hcommon, htwo, hthree]
  refine aesCbc128EncPadding_room cipher hlen hfits ?_
  rw [hpad, List.length_replicate]

/-! ## The round trip -/

def Recovers {H : Type} (result : Except Fault (H × Option Bytes × UInt32)) (header : H)
    (body : Bytes) : Prop :=
  ∃ buf bufLen, result = .ok (header, some buf, bufLen) ∧ bufLen.toNat = body.length ∧
    buf.take bufLen.toNat = body

section RoundTrip

variable {H : Type} {kind : FrameKind H} {h : HeaderBytes} {body : Bytes} {header : H}

theorem recovers_enc (cipher : Cipher) (env : Surroundings) (hbody : body ≠ [])
    (hfits : (frameOf h body).length + 16 < 2 ^ 32)
    (hheader : ∀ mem, kind.deserialize (h.val ++ mem) = .ok header) :
    Recovers (openFrame kind cipher env (cipher.enc (frameOf h body ++ padding (frameOf h body))))
      header body := by
  have hdec := aesCbc128DecPadding_enc cipher (frameOf h body) hfits
  have hpos : 0 < body.length := List.length_pos_iff.mpr hbody
  have hframe := length_frameOf h body
  have hlen : (frameOf h body).length.toUInt32.toNat = (frameOf h body).length :=
    toNat_toUInt32 (by omega)
  generalize hplain : frameOf h body ++ padding (frameOf h body) = plain at hdec ⊢
  have hcommon : (commonLen plain).toNat = h.val.length := by
    rw [← hplain, commonLen_frameOf]
  have hopen : openHeader kind cipher env.heap (cipher.enc plain) =
      .ok (header, plain, (frameOf h body).length.toUInt32) := by
    refine openHeader_of_ok hdec (by omega) ?_
    rw [← hplain, drop_frameOf, List.append_assoc]
    exact hheader _
  have hle : (frameOf h body).length.toUInt32.toNat ≤ plain.length := by
    rw [hlen, ← hplain, List.length_append]
    omega
  have hlong : (commonLen plain).toNat + 2 < (frameOf h body).length.toUInt32.toNat := by omega
  have hrem := toNat_remainder (Nat.lt_of_le_of_lt (Nat.le_add_right _ 2) hlong)
  rw [if_neg (by omega)] at hrem
  have hpiece : (plain.take (frameOf h body).length.toUInt32.toNat).drop
      (2 + (commonLen plain).toNat) = body := by
    rw [hlen, hcommon, ← hplain, List.take_left, ← List.drop_drop]
    have hdrop := drop_frameOf h body []
    rw [List.append_nil, List.append_nil] at hdrop
    rw [hdrop, List.drop_left]
  have hcount : (remainder plain (frameOf h body).length.toUInt32).toNat = body.length := by omega
  have hsplit := splitBody_long hle hlong
  rw [hpiece] at hsplit
  refine ⟨body ++ (List.replicate (2 + (commonLen plain).toNat) 0 ++
    plain.drop (frameOf h body).length.toUInt32.toNat),
    remainder plain (frameOf h body).length.toUInt32, ?_, hcount, ?_⟩
  · unfold openFrame
    simp only [hopen, hsplit]
  · rw [hcount, List.take_left]

/-- The header that is recovered is the one the decoder reads. -/
theorem recovers_enc_iff (cipher : Cipher) (env : Surroundings) (hbody : body ≠ [])
    (hfits : (frameOf h body).length + 16 < 2 ^ 32)
    (hheader : ∀ mem, kind.deserialize (h.val ++ mem) = .ok header) (expected : H) :
    Recovers (openFrame kind cipher env (cipher.enc (frameOf h body ++ padding (frameOf h body))))
      expected body ↔ header = expected := by
  have hread := recovers_enc cipher env hbody hfits hheader
  constructor
  · intro hrecovers
    rcases hrecovers with ⟨buf, bufLen, hresult, -⟩
    obtain ⟨buf', bufLen', hresult', -⟩ := hread
    rw [hresult'] at hresult
    exact (Prod.mk.inj (Except.ok.inj hresult)).1
  · rintro rfl
    exact hread

end RoundTrip

/-- A body that the interface accepts. -/
structure Sendable (body : Bytes) : Prop where
  ne_nil : body ≠ []
  length_le : body.length ≤ messageSizeMax

section Protocols

variable (cipher : Cipher) (env : Surroundings)

/-- What both protocols have in common: the round trip is right when the header
that is read is the one that was written. -/
theorem buildPayload_recovers_iff {H : Type} {kind : FrameKind H} {common body : Bytes}
    {header : H} (hbody : Sendable body) (hcommon : common.length < 2 ^ 16)
    (hheader : ∀ mem, kind.deserialize (common ++ mem) = .ok header) (expected : H) :
    (∃ payload, buildPayload cipher common body = some payload ∧
      Recovers (openFrame kind cipher env payload) expected body) ↔ header = expected := by
  have hle := hbody.length_le
  unfold messageSizeMax at hle
  have hfits : (frameOf ⟨common, hcommon⟩ body).length + 16 < 2 ^ 32 := by
    rw [length_frameOf]
    show 2 + common.length + body.length + 16 < 2 ^ 32
    omega
  have hbuild := buildPayload_eq cipher ⟨common, hcommon⟩ hfits
  have hiff := recovers_enc_iff cipher env hbody.ne_nil hfits hheader expected
  constructor
  · intro hsent
    rcases hsent with ⟨payload, hpayload, hrecovers⟩
    rw [hbuild] at hpayload
    cases hpayload
    exact hiff.mp hrecovers
  · intro heq
    exact ⟨_, hbuild, hiff.mpr heq⟩

/-- A payload is built, and the decoder of its protocol reads back what was sent. -/
def RoundTripV3 (msg : PubmsgV3) : Prop :=
  ∃ payload, dasSendPubmsgV3 cipher msg = some payload ∧
    Recovers (openFrame kindV3 cipher env payload) msg.msgSeq msg.msgBody

def RoundTripV2 (msg : Pubmsg) : Prop :=
  ∃ payload, dasSendPubmsg cipher msg = some payload ∧
    Recovers (openFrame kindV2 cipher env payload) ⟨msg.msgSeq, msg.commandVer⟩ msg.msgBody

theorem roundTripV3_iff {msg : PubmsgV3} (hbody : Sendable msg.msgBody) :
    RoundTripV3 cipher env msg ↔ msg.msgSeq.toNat < 2 ^ 31 := by
  have hlen := length_serializePayloadCommonV3 msg.msgSeq
  have hheader : ∀ mem, kindV3.deserialize (serializePayloadCommonV3 msg.msgSeq ++ mem) = _ :=
    deserializeCommonV3_serialize msg.msgSeq
  rw [← seqOf_eq_iff]
  exact buildPayload_recovers_iff cipher env hbody (by omega) hheader msg.msgSeq

theorem roundTripV2_iff {msg : Pubmsg} (hbody : Sendable msg.msgBody) :
    RoundTripV2 cipher env msg ↔ msg.msgSeq.toNat < 2 ^ 31 := by
  have htype : msgTypeOf msg.msgResponse < 10 ^ 15 := by
    cases msg.msgResponse <;> decide
  have hlen := length_serializePayloadCommon htype msg.commandVer msg.msgSeq
  have hheader : ∀ mem, kindV2.deserialize
      (serializePayloadCommon (msgTypeOf msg.msgResponse) msg.commandVer msg.msgSeq ++ mem) = _ :=
    deserializeCommon_serialize htype msg.commandVer msg.msgSeq
  have hiff := buildPayload_recovers_iff cipher env hbody (by omega) hheader
    ⟨msg.msgSeq, msg.commandVer⟩
  rw [CommonHeader.mk.injEq, eq_self, and_true, seqOf_eq_iff] at hiff
  exact hiff

end Protocols

/-- In both protocols a message that the interface accepts is read back from its
payload exactly when its sequence number is below `2 ^ 31`. -/
theorem round_trip_iff_seq_lt (cipher : Cipher) (env : Surroundings) (msg : PubmsgV3)
    (msg' : Pubmsg) (hbody : Sendable msg.msgBody) (hbody' : Sendable msg'.msgBody) :
    (RoundTripV3 cipher env msg ↔ msg.msgSeq.toNat < 2 ^ 31) ∧
    (RoundTripV2 cipher env msg' ↔ msg'.msgSeq.toNat < 2 ^ 31) :=
  ⟨roundTripV3_iff cipher env hbody, roundTripV2_iff cipher env hbody'⟩

/-- The message of the topic example with the body `hi`. -/
def hiMsgV3 : PubmsgV3 := { sampleMsg with msgBody := ascii "hi" }

def hiMsg : Pubmsg where
  msgResponse := false
  msgQos := .t1
  msgSeq := 1
  msgBody := ascii "hi"
  msgDomainId := 1
  msgCommandId := 2
  commandVer := .strncpy (.lit "v1")

theorem hiMsg_round_trip :
    RoundTripV3 sampleCipher plentiful hiMsgV3 ∧ RoundTripV2 sampleCipher plentiful hiMsg := by
  obtain ⟨hv3, hv2⟩ := round_trip_iff_seq_lt sampleCipher plentiful hiMsgV3 hiMsg
    ⟨by decide, by decide⟩ ⟨by decide, by decide⟩
  exact ⟨hv3.mpr (by decide), hv2.mpr (by decide)⟩

/-- The same message with the first sequence number that is too large. -/
def largeSeqMsg : PubmsgV3 := { hiMsgV3 with msgSeq := 2147483648 }

theorem largeSeqMsg_not_round_trip :
    Sendable largeSeqMsg.msgBody ∧ ¬ RoundTripV3 sampleCipher plentiful largeSeqMsg := by
  have hbody : Sendable largeSeqMsg.msgBody := ⟨by decide, by decide⟩
  refine ⟨hbody, ?_⟩
  rw [roundTripV3_iff sampleCipher plentiful hbody]
  decide

end EzIot.Das
