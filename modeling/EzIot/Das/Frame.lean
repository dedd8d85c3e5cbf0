import EzIot.Das.Aes
import EzIot.Das.Header
import EzIot.Das.Topic

/-! # Receiving frames

The three decoders of `das_transport.c`. They agree in what they do with the
payload: decrypt it, read the header in place, move the rest of the buffer to its
front. The header is parsed as a C text that starts behind the length, so the
parser also sees the body, the padding and whatever follows the allocation.
-/

namespace EzIot.Das

open CText Kernel CJson

/-- A message as MQTT delivers it; its length is an `unsigned int` there. -/
structure MqttMessage where
  topicName : Bytes
  payload : Bytes
  payload_lt : payload.length < 2 ^ 32

/-- What a decoder finds around it: which of its allocations succeed and the
memory behind the decryption buffer. -/
structure Surroundings where
  submsg : Bool
  output : Bool
  empty : Bool
  heap : Bytes

inductive Fault
  -- an error code of the decoder
  | error (e : MkernelError)
  -- a block operation outside the buffer
  | overrun
  -- no module is registered for the domain
  | unrouted
deriving DecidableEq

/-- In what the decoders differ once the payload is allocated. -/
structure FrameKind (H : Type) where
  deserialize : Bytes → Except MkernelError H
  -- the error of the check on the header length
  lenError : MkernelError
  -- the buffer of a frame without a body, and its length
  emptyBody : Surroundings → Except MkernelError (Option Bytes × UInt32)

/-- A frame without a body is given one zero byte. -/
def oneByteBody (env : Surroundings) : Except MkernelError (Option Bytes × UInt32) :=
  if env.empty then .ok (some [0], 1) else .error .mallocError

def kindV3 : FrameKind UInt32 := ⟨deserializeCommonV3, .revInvalidPacket, oneByteBody⟩

def kindEx : FrameKind CommonHeader :=
  ⟨deserializeCommon, .msgLenOverrange, fun _ => .ok (none, 0)⟩

def kindV2 : FrameKind CommonHeader := ⟨deserializeCommon, .revInvalidPacket, oneByteBody⟩

/-- The header length that a decrypted buffer starts with. -/
def commonLen (plain : Bytes) : UInt16 := deserializeShort (plain.getD 0 0) (plain.getD 1 0)

/-- What a decoder does with the bytes behind the header. -/
inductive Split
  | overrun
  | empty
  | body (buf : Bytes) (bufLen : UInt32)
deriving DecidableEq

def splitBody (plain : Bytes) (len : UInt32) : Split :=
  let c := commonLen plain
  let n := len - 2 - c.toUInt32
  if 0 < n then
    match memmove plain 0 (2 + c.toNat) n.toNat with
    | none => .overrun
    | some buf =>
        match memset buf (len.toNat - 2 - c.toNat) 0 (2 + c.toNat) with
        | none => .overrun
        | some buf => .body buf n
  else .empty

section Kind

variable {H : Type}

/-- From the decryption to the header. -/
def openHeader (kind : FrameKind H) (cipher : Cipher) (heap payload : Bytes) :
    Except MkernelError (H × Bytes × UInt32) :=
  match aesCbc128DecPadding cipher payload with
  | .error e => .error e
  | .ok (plain, len) =>
      if len.toNat ≤ (commonLen plain).toNat then .error kind.lenError
      else
        match kind.deserialize (plain.drop 2 ++ heap) with
        | .error e => .error e
        | .ok header => .ok (header, plain, len)

/-- The payload part of a decoder: the header, the buffer and its length. -/
def openFrame (kind : FrameKind H) (cipher : Cipher) (env : Surroundings) (payload : Bytes) :
    Except Fault (H × Option Bytes × UInt32) :=
  match openHeader kind cipher env.heap payload with
  | .error e => .error (.error e)
  | .ok (header, plain, len) =>
      match splitBody plain len with
      | .overrun => .error .overrun
      | .body buf bufLen => .ok (header, some buf, bufLen)
      | .empty =>
          match kind.emptyBody env with
          | .error e => .error (.error e)
          | .ok body => .ok (header, body)

/-- Allocate, read the topic, allocate again, open the frame. -/
def receive {T : Type} (kind : FrameKind H) (readTopic : Bytes → Except MkernelError T)
    (cipher : Cipher) (env : Surroundings) (msg : MqttMessage) :
    Except Fault (T × H × Option Bytes × UInt32) :=
  if env.submsg then
    match readTopic msg.topicName with
    | .error e => .error (.error e)
    | .ok topic =>
        if env.output then
          match openFrame kind cipher env msg.payload with
          | .error e => .error e
          | .ok frame => .ok (topic, frame)
        else .error (.error .mallocError)
  else .error (.error .mallocError)

end Kind

/-! ## The three decoders -/

/-- The message that `das_message_receive_v3` hands on. -/
structure ReceivedV3 where
  names : TopicNames
  msgSeq : UInt32
  buf : Option Bytes
  bufLen : UInt32
deriving DecidableEq

def dasMessageReceiveV3 (cipher : Cipher) (env : Surroundings) (msg : MqttMessage) :
    Except Fault ReceivedV3 :=
  match receive kindV3 receiveTopicV3 cipher env msg with
  | .error e => .error e
  | .ok (names, msgSeq, buf, bufLen) => .ok ⟨names, msgSeq, buf, bufLen⟩

/-- The topic part of the older decoders: `/<serial>/<domain>/<command>`. -/
def receiveTopic (width : Nat) (error : MkernelError) (topicName : Bytes) :
    Except MkernelError (Int32 × Int32) :=
  if 128 ≤ topicName.length then .error error
  else
    match sscanf [.lit slash, .scanset width slash, .lit slash, .int, .lit slash, .int]
        (cstr topicName) with
    | [.text _, .int domain, .int command] => .ok (Int32.ofInt domain, Int32.ofInt command)
    | _ => .error error

/-- `das_message_receive_ex`; `registered` is whether `extend_get` finds a domain. -/
def dasMessageReceiveEx (registered : Int32 → Bool) (cipher : Cipher) (env : Surroundings)
    (msg : MqttMessage) : Except Fault Submsg :=
  match receive kindEx (receiveTopic 16 .msgLenOverrange) cipher env msg with
  | .error e => .error e
  | .ok ((domain, command), header, buf, bufLen) =>
      if registered domain then
        .ok ⟨header.msgSeq, buf, bufLen, domain, command, header.commandVer⟩
      else .error .unrouted

def dasMessageReceive (cipher : Cipher) (env : Surroundings) (msg : MqttMessage) :
    Except Fault Submsg :=
  match receive kindV2 (receiveTopic 72 .platformAppointError) cipher env msg with
  | .error e => .error e
  | .ok ((domain, command), header, buf, bufLen) =>
      .ok ⟨header.msgSeq, buf, bufLen, domain, command, header.commandVer⟩

/-! ## The length arithmetic -/

/-- The remainder of a frame as the decoders compute it, in 32 bits. -/
def remainder (plain : Bytes) (len : UInt32) : UInt32 := len - 2 - (commonLen plain).toUInt32

section Lengths

variable {plain : Bytes} {len : UInt32}

/-- Behind the check on the header length, the remainder wraps at one value only. -/
theorem toNat_remainder (hc : (commonLen plain).toNat < len.toNat) :
    (remainder plain len).toNat =
      if len.toNat = (commonLen plain).toNat + 1 then 2 ^ 32 - 1
      else len.toNat - (2 + (commonLen plain).toNat) := by
  have hlen := len.toNat_lt
  have hcommon := (commonLen plain).toNat_lt
  unfold remainder
  rw [UInt32.toNat_sub, UInt32.toNat_sub, UInt16.toNat_toUInt32]
  show (2 ^ 32 - _ + (2 ^ 32 - 2 + _) % 2 ^ 32) % 2 ^ 32 = _
  split <;> omega

theorem remainder_pos_iff (hc : (commonLen plain).toNat < len.toNat) :
    0 < remainder plain len ↔ len.toNat ≠ (commonLen plain).toNat + 2 := by
  have hnat := toNat_remainder hc
  rw [UInt32.lt_iff_toNat_lt, hnat]
  show 0 < _ ↔ _
  split <;> omega

theorem splitBody_short (hsize : plain.length < 2 ^ 32)
    (hshort : len.toNat = (commonLen plain).toNat + 1) : splitBody plain len = .overrun := by
  have hc : (commonLen plain).toNat < len.toNat := by omega
  have hnat := toNat_remainder hc
  rw [if_pos hshort] at hnat
  have hpos : 0 < remainder plain len := (remainder_pos_iff hc).mpr (by omega)
  have hmove : memmove plain 0 (2 + (commonLen plain).toNat) (remainder plain len).toNat = none :=
    memmove_eq_none (by omega)
  unfold splitBody
  unfold remainder at hpos hmove
  simp only [if_pos hpos, hmove]

theorem splitBody_exact (hexact : len.toNat = (commonLen plain).toNat + 2) :
    splitBody plain len = .empty := by
  have hpos : ¬ 0 < remainder plain len := by
    rw [remainder_pos_iff (by omega)]
    omega
  exact if_neg hpos

/-- The body of a frame with one: the bytes between the header and the padding,
then as many zeros as the header took. -/
theorem splitBody_long (hlen : len.toNat ≤ plain.length)
    (hlong : (commonLen plain).toNat + 2 < len.toNat) :
    splitBody plain len =
      .body ((plain.take len.toNat).drop (2 + (commonLen plain).toNat) ++
        (List.replicate (2 + (commonLen plain).toNat) 0 ++ plain.drop len.toNat))
        (remainder plain len) := by
  have hc : (commonLen plain).toNat < len.toNat := by omega
  have hnat := toNat_remainder hc
  rw [if_neg (by omega)] at hnat
  have hpos : 0 < remainder plain len := (remainder_pos_iff hc).mpr (by omega)
  generalize hk : 2 + (commonLen plain).toNat = k at hnat ⊢
  -- the buffer as header, body and the rest
  obtain ⟨a, b, d, rfl, ha, hb⟩ : ∃ a b d, plain = a ++ (b ++ d) ∧ a.length = k ∧
      b.length = len.toNat - k := by
    refine ⟨plain.take k, (plain.drop k).take (len.toNat - k), (plain.drop k).drop (len.toNat - k),
      ?_, ?_, ?_⟩
    · rw [List.take_append_drop, List.take_append_drop]
    · rw [List.length_take]
      omega
    · rw [List.length_take, List.length_drop]
      omega
  have hab : (a ++ b).length = len.toNat := by
    rw [List.length_append]
    omega
  have htake : ((a ++ (b ++ d)).take len.toNat).drop k = b := by
    rw [← List.append_assoc, ← hab, List.take_left, ← ha, List.drop_left]
  have hdrop : (a ++ (b ++ d)).drop len.toNat = d := by
    rw [← List.append_assoc, ← hab, List.drop_left]
  have hmove : memmove (a ++ (b ++ d)) 0 k (remainder (a ++ (b ++ d)) len).toNat =
      some (b ++ ((a ++ b).drop b.length ++ d)) := by
    rw [hnat, ← hb, ← ha, memmove_append, ← List.append_assoc a b d,
      List.drop_append_of_le_length (by rw [List.length_append]; omega)]
  have hset : memset (b ++ ((a ++ b).drop b.length ++ d))
      (len.toNat - 2 - (commonLen (a ++ (b ++ d))).toNat) 0 k =
        some (b ++ (List.replicate k 0 ++ d)) := by
    exact memset_append 0 (by omega) (by rw [List.length_drop, List.length_append]; omega) d
  rw [htake, hdrop]
  unfold splitBody
  unfold remainder at hpos hmove ⊢
  simp only [if_pos hpos, hk, hmove, hset]

end Lengths

/-! ## What is delivered -/

/-- A message with a body, delivered as the frame has it: its bytes are those
between the header and the padding, and a zero byte of the buffer follows. -/
structure Delivered (plain : Bytes) (len : UInt32) (buf : Option Bytes) (bufLen : UInt32) :
    Prop where
  fits : 2 + (commonLen plain).toNat ≤ len.toNat
  bufLen_eq : bufLen.toNat = len.toNat - (2 + (commonLen plain).toNat)
  buf_eq : ∃ rest, buf = some ((plain.take len.toNat).drop (2 + (commonLen plain).toNat) ++
    0 :: rest) ∧ bufLen.toNat + 1 + rest.length = plain.length

/-- A decoder's result for a payload is sound: no block operation leaves the
buffer, and a message with a remainder is delivered as the frame has it. -/
def FrameSound (cipher : Cipher) (payload : Bytes)
    (result : Except Fault (Option Bytes × UInt32)) : Prop :=
  result ≠ .error .overrun ∧
    ∀ plain len buf bufLen, aesCbc128DecPadding cipher payload = .ok (plain, len) →
      result = .ok (buf, bufLen) → remainder plain len ≠ 0 → Delivered plain len buf bufLen

section Sound

variable {H T : Type} {kind : FrameKind H} {readTopic : Bytes → Except MkernelError T}
  {cipher : Cipher} {env : Surroundings} {msg : MqttMessage}

/-- A payload that decrypts to an accepted header with one byte less than the
header and its length take. -/
def ShortFrame (kind : FrameKind H) (cipher : Cipher) (heap payload : Bytes) : Prop :=
  ∃ plain len header, aesCbc128DecPadding cipher payload = .ok (plain, len) ∧
    kind.deserialize (plain.drop 2 ++ heap) = .ok header ∧
    len.toNat = (commonLen plain).toNat + 1

/-- A message with a short frame that gets as far as the payload. -/
def Underflows (kind : FrameKind H) (readTopic : Bytes → Except MkernelError T) (cipher : Cipher)
    (env : Surroundings) (msg : MqttMessage) : Prop :=
  env.submsg ∧ (∃ topic, readTopic msg.topicName = .ok topic) ∧ env.output ∧
    ShortFrame kind cipher env.heap msg.payload

theorem openHeader_eq_ok {heap payload plain : Bytes} {header : H} {len : UInt32}
    (h : openHeader kind cipher heap payload = .ok (header, plain, len)) :
    aesCbc128DecPadding cipher payload = .ok (plain, len) ∧
      (commonLen plain).toNat < len.toNat ∧
      kind.deserialize (plain.drop 2 ++ heap) = .ok header := by
  unfold openHeader at h
  split at h
  · cases h
  · next hdec =>
      split at h
      · cases h
      · next hlen =>
          split at h
          · cases h
          · next hheader =>
              cases h
              exact ⟨hdec, Nat.lt_of_not_le hlen, hheader⟩

theorem openHeader_of_ok {heap payload plain : Bytes} {header : H} {len : UInt32}
    (hdec : aesCbc128DecPadding cipher payload = .ok (plain, len))
    (hlen : (commonLen plain).toNat < len.toNat)
    (hheader : kind.deserialize (plain.drop 2 ++ heap) = .ok header) :
    openHeader kind cipher heap payload = .ok (header, plain, len) := by
  unfold openHeader
  simp only [hdec, if_neg (Nat.not_le.mpr hlen), hheader]

theorem openFrame_overrun_iff :
    openFrame kind cipher env msg.payload = .error .overrun ↔
      ShortFrame kind cipher env.heap msg.payload := by
  constructor
  · intro h
    unfold openFrame at h
    split at h
    · cases h
    · next header plain len hopen =>
        obtain ⟨hdec, hc, hheader⟩ := openHeader_eq_ok hopen
        rcases aesCbc128DecPadding_bounds hdec msg.payload_lt with ⟨hplain, hlen⟩
        refine ⟨plain, len, header, hdec, hheader, ?_⟩
        by_contra hshort
        by_cases hexact : len.toNat = (commonLen plain).toNat + 2
        · rw [splitBody_exact hexact] at h
          dsimp only at h
          split at h <;> cases h
        · rw [splitBody_long (Nat.le_of_lt hlen) (by omega)] at h
          cases h
  · intro hframe
    rcases hframe with ⟨plain, len, header, hdec, hheader, hshort⟩
    rcases aesCbc128DecPadding_bounds hdec msg.payload_lt with ⟨hplain, -⟩
    have hopen := openHeader_of_ok hdec (by omega) hheader
    have hsplit := splitBody_short (hplain ▸ msg.payload_lt) hshort
    unfold openFrame
    simp only [hopen, hsplit]

theorem openFrame_delivered {header : H} {buf : Option Bytes} {bufLen : UInt32} {plain : Bytes}
    {len : UInt32} (h : openFrame kind cipher env msg.payload = .ok (header, buf, bufLen))
    (hdec : aesCbc128DecPadding cipher msg.payload = .ok (plain, len))
    (hrest : remainder plain len ≠ 0) : Delivered plain len buf bufLen := by
  unfold openFrame at h
  split at h
  · cases h
  · next header' plain' len' hopen =>
      obtain ⟨hdec', hc, -⟩ := openHeader_eq_ok hopen
      rw [hdec] at hdec'
      cases hdec'
      rcases aesCbc128DecPadding_bounds hdec msg.payload_lt with ⟨hplain, hlen⟩
      have hpos : 0 < remainder plain len := UInt32.pos_iff_ne_zero.mpr hrest
      have hexact := (remainder_pos_iff hc).mp hpos
      by_cases hshort : len.toNat = (commonLen plain).toNat + 1
      · rw [splitBody_short (hplain ▸ msg.payload_lt) hshort] at h
        cases h
      · have hnat := toNat_remainder hc
        rw [if_neg hshort] at hnat
        rw [splitBody_long (Nat.le_of_lt hlen) (by omega)] at h
        cases h
        have hzeros : List.replicate (2 + (commonLen plain).toNat) (0 : UInt8) =
            0 :: List.replicate (1 + (commonLen plain).toNat) 0 := by
          rw [← List.replicate_succ]
          congr 1
          omega
        refine ⟨by omega, hnat, List.replicate (1 + (commonLen plain).toNat) 0 ++
          plain.drop len.toNat, by rw [hzeros, List.cons_append], ?_⟩
        rw [List.length_append, List.length_replicate, List.length_drop]
        omega

theorem receive_overrun_iff :
    receive kind readTopic cipher env msg = .error .overrun ↔
      Underflows kind readTopic cipher env msg := by
  have hframe : openFrame kind cipher env msg.payload = .error .overrun ↔
      ShortFrame kind cipher env.heap msg.payload := openFrame_overrun_iff
  unfold receive Underflows
  rw [← hframe]
  cases env.submsg <;> cases env.output <;> cases readTopic msg.topicName <;>
    cases openFrame kind cipher env msg.payload <;> simp

theorem receive_eq_ok {topic : T} {header : H} {body : Option Bytes × UInt32}
    (h : receive kind readTopic cipher env msg = .ok (topic, header, body)) :
    openFrame kind cipher env msg.payload = .ok (header, body) := by
  unfold receive at h
  split at h
  · split at h
    · cases h
    · split at h
      · split at h
        · cases h
        · next hframe =>
            cases h
            exact hframe
      · cases h
  · cases h

/-- A decoder that hands on what `receive` returns, or drops it, is sound exactly
when no short frame gets through. -/
theorem frameSound_iff {result : Except Fault (Option Bytes × UInt32)}
    (hoverrun : result = .error .overrun ↔ receive kind readTopic cipher env msg = .error .overrun)
    (hok : ∀ body, result = .ok body →
      ∃ topic header, receive kind readTopic cipher env msg = .ok (topic, header, body)) :
    FrameSound cipher msg.payload result ↔ ¬ Underflows kind readTopic cipher env msg := by
  rw [← receive_overrun_iff, ← hoverrun]
  constructor
  · exact fun h => h.1
  · intro h
    refine ⟨h, ?_⟩
    intro plain len buf bufLen hdec hresult hrest
    rcases hok _ hresult with ⟨topic, header, hreceive⟩
    exact openFrame_delivered (receive_eq_ok hreceive) hdec hrest

end Sound

/-- The buffer and the length of a delivered message. -/
def ReceivedV3.body (m : ReceivedV3) : Option Bytes × UInt32 := (m.buf, m.bufLen)

def submsgBody (m : Submsg) : Option Bytes × UInt32 := (m.buf, m.bufLen)

theorem dasMessageReceiveV3_sound_iff (cipher : Cipher) (env : Surroundings) (msg : MqttMessage) :
    FrameSound cipher msg.payload ((dasMessageReceiveV3 cipher env msg).map (·.body)) ↔
      ¬ Underflows kindV3 receiveTopicV3 cipher env msg := by
  apply frameSound_iff
  · unfold dasMessageReceiveV3
    cases receive kindV3 receiveTopicV3 cipher env msg <;> simp [Except.map]
  · intro body h
    unfold dasMessageReceiveV3 at h
    cases hr : receive kindV3 receiveTopicV3 cipher env msg with
    | error e =>
        rw [hr] at h
        cases h
    | ok x =>
        rw [hr] at h
        cases h
        exact ⟨_, _, rfl⟩

theorem dasMessageReceiveEx_sound_iff (registered : Int32 → Bool) (cipher : Cipher)
    (env : Surroundings) (msg : MqttMessage) :
    FrameSound cipher msg.payload
        ((dasMessageReceiveEx registered cipher env msg).map submsgBody) ↔
      ¬ Underflows kindEx (receiveTopic 16 .msgLenOverrange) cipher env msg := by
  apply frameSound_iff
  · unfold dasMessageReceiveEx
    cases receive kindEx (receiveTopic 16 .msgLenOverrange) cipher env msg with
    | error e => simp [Except.map]
    | ok x =>
        -- a frame whose domain is unknown is dropped, but it was opened
        dsimp only
        split <;> simp [Except.map]
  · intro body h
    unfold dasMessageReceiveEx at h
    cases hr : receive kindEx (receiveTopic 16 .msgLenOverrange) cipher env msg with
    | error e =>
        rw [hr] at h
        cases h
    | ok x =>
        rw [hr] at h
        dsimp only at h
        split at h
        · cases h
          exact ⟨_, _, rfl⟩
        · cases h

theorem dasMessageReceive_sound_iff (cipher : Cipher) (env : Surroundings) (msg : MqttMessage) :
    FrameSound cipher msg.payload ((dasMessageReceive cipher env msg).map submsgBody) ↔
      ¬ Underflows kindV2 (receiveTopic 72 .platformAppointError) cipher env msg := by
  apply frameSound_iff
  · unfold dasMessageReceive
    cases receive kindV2 (receiveTopic 72 .platformAppointError) cipher env msg <;>
      simp [Except.map]
  · intro body h
    unfold dasMessageReceive at h
    cases hr : receive kindV2 (receiveTopic 72 .platformAppointError) cipher env msg with
    | error e =>
        rw [hr] at h
        cases h
    | ok x =>
        rw [hr] at h
        cases h
        exact ⟨_, _, rfl⟩

/-- Each of the three decoders keeps its length arithmetic, and delivers the body
that the frame has, exactly on the messages without an accepted short frame. -/
theorem frames_sound_iff_not_underflows (registered : Int32 → Bool) (cipher : Cipher)
    (env : Surroundings) (msg : MqttMessage) :
    (FrameSound cipher msg.payload ((dasMessageReceiveV3 cipher env msg).map (·.body)) ↔
      ¬ Underflows kindV3 receiveTopicV3 cipher env msg) ∧
    (FrameSound cipher msg.payload
        ((dasMessageReceiveEx registered cipher env msg).map submsgBody) ↔
      ¬ Underflows kindEx (receiveTopic 16 .msgLenOverrange) cipher env msg) ∧
    (FrameSound cipher msg.payload ((dasMessageReceive cipher env msg).map submsgBody) ↔
      ¬ Underflows kindV2 (receiveTopic 72 .platformAppointError) cipher env msg) :=
  ⟨dasMessageReceiveV3_sound_iff cipher env msg,
    dasMessageReceiveEx_sound_iff registered cipher env msg,
    dasMessageReceive_sound_iff cipher env msg⟩

/-- All allocations succeed and a zero byte follows the buffer. -/
def plentiful : Surroundings := ⟨true, true, true, [0]⟩

/-- The eleven bytes `00 0A {"Seq":1}`, padded and encrypted: the length says
ten, nine bytes follow. -/
def shortMsg : MqttMessage where
  topicName := ascii "/iot/D1/S1/0-camera/ota/upload/result/report"
  payload := [14, 173, 92, 24, 211, 111, 188, 15, 31, 27, 124, 12, 50, 31, 152, 237]
  payload_lt := by decide

theorem shortMsg_not_frameSound :
    ¬ FrameSound sampleCipher shortMsg.payload
      ((dasMessageReceiveV3 sampleCipher plentiful shortMsg).map (·.body)) := by
  have hdec : aesCbc128DecPadding sampleCipher shortMsg.payload =
      .ok ([0, 10] ++ (serializePayloadCommonV3 1 ++ [5, 5, 5, 5, 5]), 11) := by rfl
  have hheader : kindV3.deserialize
      (([0, 10] ++ (serializePayloadCommonV3 1 ++ [5, 5, 5, 5, 5])).drop 2 ++ plentiful.heap) =
        .ok (seqOf (.ofInt (1 : UInt32).toNat)) := by
    rw [List.drop_append_of_le_length (by decide), List.drop_of_length_le (by decide),
      List.nil_append, List.append_assoc]
    exact deserializeCommonV3_serialize 1 _
  have hshort : Underflows kindV3 receiveTopicV3 sampleCipher plentiful shortMsg :=
    ⟨rfl, ⟨_, rfl⟩, rfl, _, _, _, hdec, hheader, rfl⟩
  intro h
  exact (dasMessageReceiveV3_sound_iff _ _ _).mp h hshort

end EzIot.Das
