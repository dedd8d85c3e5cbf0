import EzIot.Mqtt.Packet

/-! # Publish and acknowledge packets

`MQTTSerializePublish.c` and `MQTTDeserializePublish.c`. A reader leaves its code and
what it has written to its arguments: it may give the code of success after it has
stopped early.
-/

namespace EzIot.Mqtt

open CText

/-! ## Frames -/

/-- The bytes of a packet: the header, the remaining length and the rest. -/
def frame (h : MqttHeader) (body : Bytes) : Bytes :=
  h.byte :: (mqttPacketEncode body.length ++ body)

theorem length_frame (h : MqttHeader) (body : Bytes) :
    (frame h body).length = 1 + (mqttPacketEncode body.length).length + body.length := by
  rw [frame, List.length_cons, List.length_append]
  omega

/-- A serializer that computes the length of its packet beforehand stays in the buffer. -/
theorem length_frame_le (h : MqttHeader) {body : Bytes} (hsmall : body.length < 268435456) :
    (frame h body).length ≤ mqttPacketLen body.length := by
  rw [length_frame, mqttPacketLen_eq hsmall]
  omega

/-- The result of a serializer: its code and its buffer. -/
def finish (w : Writer) : Int × Bytes := (w.ptr, w.mem)

/-- What is left of a buffer when a packet is written to its front. -/
def written (buf packet : Bytes) : Int × Bytes :=
  (packet.length, packet ++ buf.drop packet.length)

theorem start_put_finish {buf packet : Bytes} (h : packet.length ≤ buf.length) :
    (do let w ← (Writer.start buf).put packet; pure (finish w)) = some (written buf packet) := by
  rw [Writer.start_put h]
  rfl

/-- A serializer refuses a buffer, or it writes its packet to the front and nothing else. It
takes every buffer that is longer than the packet. -/
def Serializes (serialize : Bytes → Option (Int × Bytes)) (packet : Bytes) : Prop :=
  ∀ buf, buf.length ≤ packet.length ∧ serialize buf = some (bufferTooShort, buf) ∨
    packet.length ≤ buf.length ∧ serialize buf = some (written buf packet)

theorem serializes_frame {serialize : Bytes → Option (Int × Bytes)} {h : MqttHeader} {body : Bytes}
    (hsmall : body.length < 268435456)
    (heq : ∀ buf : Bytes, serialize buf = if mqttPacketLen body.length > buf.length then
      some (bufferTooShort, buf) else some (written buf (frame h body))) :
    Serializes serialize (frame h body) := by
  intro buf
  have hlength := length_frame h body
  have hneed := mqttPacketLen_eq hsmall
  rw [heq]
  split
  next hshort => exact .inl ⟨by split at hneed <;> omega, rfl⟩
  next hroom => exact .inr ⟨by split at hneed <;> omega, rfl⟩

/-- The header and the remaining length. -/
def writeHead (w : Writer) (h : MqttHeader) (remLen : Nat) : Option Writer := do
  let w ← writeChar w h.byte
  w.put (mqttPacketEncode remLen)

theorem writeHead_bind {α : Type} (w : Writer) (h : MqttHeader) (body : Bytes)
    (k : Writer → Option α) :
    (writeHead w h body.length >>= fun w' => w'.put body >>= k) = w.put (frame h body) >>= k := by
  unfold writeHead writeChar
  rw [bind_assoc, Writer.put_bind, Writer.put_bind]
  rfl

/-! ## Writing -/

def mqttSerializePublishLength (qos : Nat) (topicName : MqttString) (payloadlen : Nat) : Nat :=
  2 + mqttStrlen topicName + payloadlen + if 0 < qos then 2 else 0

/-- `MQTTSerialize_publish`; `payload` is what the pointer and the length together give. -/
def mqttSerializePublish (buf : Bytes) (dup qos retained packetid : Nat) (topicName : MqttString)
    (payload : Bytes) : Option (Int × Bytes) :=
  let remLen := mqttSerializePublishLength qos topicName payload.length
  if mqttPacketLen remLen > buf.length then some (bufferTooShort, buf)
  else do
    let w ← writeHead (.start buf) ⟨MsgType.publish.code, dup, qos, retained⟩ remLen
    let w ← writeMqttString w topicName
    let w ← if 0 < qos then writeInt w packetid else pure w
    let w ← w.put payload
    pure (finish w)

def mqttSerializeAck (buf : Bytes) (packettype : MsgType) (dup packetid : Nat) :
    Option (Int × Bytes) :=
  if buf.length < 4 then some (bufferTooShort, buf)
  else do
    let qos := if packettype = .pubrel then 1 else 0
    let w ← writeHead (.start buf) ⟨packettype.code, dup, qos, 0⟩ 2
    let w ← writeInt w packetid
    pure (finish w)

def mqttSerializePuback (buf : Bytes) (packetid : Nat) : Option (Int × Bytes) :=
  mqttSerializeAck buf .puback 0 packetid

def mqttSerializePubrel (buf : Bytes) (dup packetid : Nat) : Option (Int × Bytes) :=
  mqttSerializeAck buf .pubrel dup packetid

def mqttSerializePubcomp (buf : Bytes) (packetid : Nat) : Option (Int × Bytes) :=
  mqttSerializeAck buf .pubcomp 0 packetid

/-- What follows the remaining length of a publish packet. -/
def publishBody (qos packetid : Nat) (topic payload : Bytes) : Bytes :=
  textBytes topic ++ ((if 0 < qos then intBytes packetid else []) ++ payload)

theorem length_publishBody (qos packetid : Nat) (topic payload : Bytes) :
    (publishBody qos packetid topic payload).length =
      2 + topic.length + payload.length + if 0 < qos then 2 else 0 := by
  unfold publishBody
  rw [List.length_append, List.length_append, length_textBytes]
  split
  · rw [length_intBytes]
    omega
  · rw [List.length_nil]
    omega

theorem mqttSerializePublish_eq {buf : Bytes} {dup qos retained packetid : Nat}
    {topicName : MqttString} {topic payload : Bytes} (htopic : topicName.Holds topic)
    (hsmall : (publishBody qos packetid topic payload).length < 268435456) :
    mqttSerializePublish buf dup qos retained packetid topicName payload =
      if mqttPacketLen (publishBody qos packetid topic payload).length > buf.length then
        some (bufferTooShort, buf)
      else some (written buf (frame ⟨MsgType.publish.code, dup, qos, retained⟩
        (publishBody qos packetid topic payload))) := by
  have hlen : mqttSerializePublishLength qos topicName payload.length =
      (publishBody qos packetid topic payload).length := by
    rw [length_publishBody, mqttSerializePublishLength, htopic.strlen]
  unfold mqttSerializePublish
  simp only [hlen]
  split
  next => rfl
  next hroom =>
    have hfits := length_frame_le ⟨MsgType.publish.code, dup, qos, retained⟩ hsmall
    rw [← start_put_finish (by omega), ← writeHead_bind]
    congr 1
    funext w
    rw [publishBody, ← Writer.put_bind, writeMqttString_eq htopic]
    congr 1
    funext w
    split
    · rw [writeInt_eq, Writer.put_bind]
    · rfl

theorem length_ackFrame (h : MqttHeader) (packetid : Nat) :
    (frame h (intBytes packetid)).length = 4 := by
  rw [length_frame, length_intBytes]
  rfl

theorem mqttSerializeAck_eq (buf : Bytes) (packettype : MsgType) (dup packetid : Nat) :
    mqttSerializeAck buf packettype dup packetid =
      if buf.length < 4 then some (bufferTooShort, buf)
      else some (written buf (frame
        ⟨packettype.code, dup, if packettype = .pubrel then 1 else 0, 0⟩ (intBytes packetid))) := by
  unfold mqttSerializeAck
  split
  next => rfl
  next hroom =>
    rw [← start_put_finish (by rw [length_ackFrame]; omega), ← writeHead_bind]
    simp only [writeInt_eq, length_intBytes]

/-! ## Reading -/

/-- The arguments that `MQTTDeserialize_publish` writes to. -/
structure PublishOut where
  dup : Nat
  qos : Nat
  retained : Nat
  packetid : Nat
  topicName : MqttString
  payload : Option Bytes
  payloadlen : Int
deriving DecidableEq

/-- `MQTTDeserialize_publish` behind the remaining length, which took `rc` bytes. -/
def readPublishBody (out : PublishOut) (rc : Nat) (c : Cursor) : Option (Int × PublishOut) := do
  let (ok, topicName, c) ← readMqttLenString out.topicName c
  let out := { out with topicName := topicName }
  if !ok || c.left < 0 then pure (rc, out)
  else if 0 < out.qos then do
    let (packetid, c) ← readInt c
    pure (1, { out with packetid := packetid, payload := some c.rest, payloadlen := c.left })
  else pure (1, { out with payload := some c.rest, payloadlen := c.left })

def mqttDeserializePublish (out : PublishOut) (buf : Bytes) : Option (Int × PublishOut) := do
  let (b, c) ← readChar ⟨buf, 0⟩
  let header := MqttHeader.ofByte b
  if header.type ≠ MsgType.publish.code then pure (0, out)
  else do
    let out := { out with dup := header.dup, qos := header.qos, retained := header.retain }
    let (rc, c) ← readRemaining c.rest
    readPublishBody out rc c

/-- The arguments that `MQTTDeserialize_ack` writes to. -/
structure AckOut where
  packettype : Nat
  dup : Nat
  packetid : Nat
deriving DecidableEq

def mqttDeserializeAck (out : AckOut) (buf : Bytes) : Option (Int × AckOut) := do
  let (b, c) ← readChar ⟨buf, 0⟩
  let header := MqttHeader.ofByte b
  let out := { out with dup := header.dup, packettype := header.type }
  let (rc, c) ← readRemaining c.rest
  if c.left < 2 then pure (rc, out)
  else do
    let (packetid, _) ← readInt c
    pure (1, { out with packetid := packetid })

section Reading

variable {field body rest : Bytes} {b : UInt8}

theorem mqttDeserializePublish_eq (hfield : LengthField field body.length) (out : PublishOut) :
    mqttDeserializePublish out (b :: (field ++ (body ++ rest))) =
      if (MqttHeader.ofByte b).type ≠ MsgType.publish.code then some (0, out)
      else readPublishBody { out with
        dup := (MqttHeader.ofByte b).dup, qos := (MqttHeader.ofByte b).qos,
        retained := (MqttHeader.ofByte b).retain } field.length ⟨body ++ rest, body.length⟩ := by
  simp only [mqttDeserializePublish, readChar, readRemaining_of_field hfield, Option.bind_eq_bind,
    Option.bind_some]
  rfl

theorem inside_body : Cursor.Inside ⟨body ++ rest, body.length⟩ := by
  simp only [Cursor.Inside, List.length_append]
  omega

theorem readPublishBody_publishBody (rest : Bytes) (out : PublishOut) (rc : Nat) {packetid : Nat}
    {topic payload : Bytes} (htopic : topic.length < 65536) (hid : packetid < 65536)
    (hbody : body = publishBody out.qos packetid topic payload) :
    ∃ data, readPublishBody out rc ⟨body ++ rest, body.length⟩ =
      some (1, { out with
        topicName := ⟨none, topic.length, some (topic ++ data)⟩
        packetid := if 0 < out.qos then packetid else out.packetid
        payload := some (payload ++ rest)
        payloadlen := payload.length }) := by
  have hlen := length_publishBody out.qos packetid topic payload
  rw [← hbody] at hlen
  have hmem : body ++ rest =
      textBytes topic ++ (((if 0 < out.qos then intBytes packetid else []) ++ payload) ++ rest) := by
    rw [hbody, publishBody, List.append_assoc]
  have hinside : Cursor.Inside ⟨textBytes topic ++
      (((if 0 < out.qos then intBytes packetid else []) ++ payload) ++ rest), body.length⟩ :=
    hmem ▸ inside_body
  have hread := readMqttLenString_textBytes htopic out.topicName _ hinside (by omega)
  rw [← hmem] at hread
  refine ⟨((if 0 < out.qos then intBytes packetid else []) ++ payload) ++ rest, ?_⟩
  have hleft : ¬ ((body.length : Int) - (2 + topic.length : Nat) < 0) := by omega
  simp only [readPublishBody, hread, Option.bind_eq_bind, Option.bind_some, Bool.not_true,
    Bool.false_or, decide_eq_true_eq, hleft, if_false]
  by_cases hqos : 0 < out.qos
  · simp only [hqos, if_true] at hlen ⊢
    rw [List.append_assoc, readInt_intBytes hid]
    simp only [Option.bind_some, Option.pure_def, Option.some.injEq, Prod.mk.injEq, true_and,
      PublishOut.mk.injEq]
    omega
  · simp only [hqos, if_false] at hlen ⊢
    simp only [List.nil_append, Option.pure_def, Option.some.injEq, Prod.mk.injEq, true_and,
      PublishOut.mk.injEq]
    omega

/-- What a reader hands over is a publish packet with these members. -/
structure PublishOut.Carries (out : PublishOut) (h : MqttHeader) (packetid : Nat)
    (topic payload : Bytes) : Prop where
  dup : out.dup = h.dup
  qos : out.qos = h.qos
  retained : out.retained = h.retain
  packetid : 0 < h.qos → out.packetid = packetid
  topicName : ∃ rest, out.topicName = ⟨none, topic.length, some (topic ++ rest)⟩
  payloadlen : out.payloadlen = payload.length
  payload : ∃ rest, out.payload = some (payload ++ rest)

theorem mqttDeserializePublish_of_body {h : MqttHeader} (hfits : h.Fits)
    (htype : h.type = MsgType.publish.code) (hfield : LengthField field body.length)
    {packetid : Nat} {topic payload : Bytes} (htopic : topic.length < 65536)
    (hid : packetid < 65536) (hbody : body = publishBody h.qos packetid topic payload)
    (rest : Bytes) (out : PublishOut) :
    ∃ out', mqttDeserializePublish out (h.byte :: (field ++ (body ++ rest))) = some (1, out') ∧
      out'.Carries h packetid topic payload := by
  obtain ⟨data, hread⟩ := readPublishBody_publishBody rest
    { out with dup := h.dup, qos := h.qos, retained := h.retain } field.length htopic hid hbody
  have hall : mqttDeserializePublish out (h.byte :: (field ++ (body ++ rest))) = _ :=
    mqttDeserializePublish_eq hfield out
  rw [MqttHeader.ofByte_byte hfits, if_neg (by simp [htype]), hread] at hall
  exact ⟨_, hall, {
    dup := rfl
    qos := rfl
    retained := rfl
    packetid := fun hpos => if_pos hpos
    topicName := ⟨data, rfl⟩
    payloadlen := rfl
    payload := ⟨rest, rfl⟩ }⟩

theorem mqttDeserializeAck_eq (hfield : LengthField field body.length) (out : AckOut) :
    mqttDeserializeAck out (b :: (field ++ (body ++ rest))) =
      if body.length < 2 then some ((field.length : Int),
        { out with packettype := (MqttHeader.ofByte b).type, dup := (MqttHeader.ofByte b).dup })
      else (readInt ⟨body ++ rest, body.length⟩).map fun r =>
        (1, ⟨(MqttHeader.ofByte b).type, (MqttHeader.ofByte b).dup, r.1⟩) := by
  have hcast : ((body.length : Int) < 2) = (body.length < 2) := propext (by omega)
  simp only [mqttDeserializeAck, readChar_cons, readRemaining_of_field hfield,
    Option.bind_eq_bind, Option.bind_some, hcast]
  split
  next => rfl
  next => exact Option.map_eq_bind.symm

theorem mqttDeserializeAck_frame {h : MqttHeader} (hfits : h.Fits) {packetid : Nat}
    (hid : packetid < 65536) (rest : Bytes) (out : AckOut) :
    mqttDeserializeAck out (frame h (intBytes packetid) ++ rest) =
      some (1, ⟨h.type, h.dup, packetid⟩) := by
  have hfield : LengthField (mqttPacketEncode 2) (intBytes packetid).length := .encode (by decide)
  rw [frame, List.cons_append, List.append_assoc, length_intBytes, mqttDeserializeAck_eq hfield,
    MqttHeader.ofByte_byte hfits, if_neg (by simp), readInt_intBytes hid]
  rfl

end Reading

/-! ## What is accepted -/

def WellFormed (qos : Nat) (body : Bytes) : Prop :=
  ∃ (packetid : Nat) (topic payload : Bytes), packetid < 65536 ∧ topic.length < 65536 ∧
    body = publishBody qos packetid topic payload

/-- The packet ends inside of its packet id, of which `tail` is there. -/
def CutId (qos : Nat) (body tail : Bytes) : Prop :=
  0 < qos ∧ tail.length < 2 ∧ ∃ topic : Bytes, topic.length < 65536 ∧ body = textBytes topic ++ tail

theorem textBytes_append_inj {t t' tail tail' : Bytes} (ht : t.length < 65536)
    (ht' : t'.length < 65536) (h : textBytes t ++ tail = textBytes t' ++ tail') :
    t = t' ∧ tail = tail' := by
  have hread := readInt_intBytes ht (t ++ tail) 0
  have hread' := readInt_intBytes ht' (t' ++ tail') 0
  simp only [textBytes, List.append_assoc] at h
  rw [h, hread'] at hread
  simp only [Option.some.injEq, Prod.mk.injEq, Cursor.mk.injEq] at hread
  obtain ⟨hlen, hrest, -⟩ := hread
  exact (List.append_inj hrest hlen).imp Eq.symm Eq.symm

/-- Behind its topic a packet goes on, or it is cut off there. -/
theorem wellFormed_iff {qos : Nat} {topic tail : Bytes} (htopic : topic.length < 65536) :
    WellFormed qos (textBytes topic ++ tail) ↔ ¬ (0 < qos ∧ tail.length < 2) := by
  constructor
  · rintro ⟨packetid, topic', payload, hid, htopic', heq⟩ ⟨hqos, hcut⟩
    obtain ⟨-, rfl⟩ := textBytes_append_inj htopic htopic' heq
    simp [hqos] at hcut
    omega
  · intro hnot
    by_cases hqos : 0 < qos
    · match tail, hnot with
      | hi :: lo :: payload, _ =>
          obtain ⟨hid, hbytes, -⟩ := readInt_eq_some_iff.mp
            (rfl : readInt ⟨hi :: lo :: payload, 0⟩ = some (256 * hi.toNat + lo.toNat, ⟨payload, -2⟩))
          refine ⟨256 * hi.toNat + lo.toNat, topic, payload, hid, htopic, ?_⟩
          rw [publishBody, if_pos hqos, ← hbytes]
      | [_], hnot => simp [hqos] at hnot
      | [], hnot => simp [hqos] at hnot
    · refine ⟨0, topic, tail, by omega, htopic, ?_⟩
      rw [publishBody, if_neg hqos, List.nil_append]

/-- The reader of publish packets takes every packet that begins with a topic, also where
the packet id is cut off: then it reads the id behind the packet and the length of the
payload is negative. A packet without a topic is refused with the number of bytes that the
length took, and that is the code of success if it is one. -/
theorem mqttDeserializePublish_accepts {field body rest : Bytes} {b : UInt8}
    (hfield : LengthField field body.length)
    (htype : (MqttHeader.ofByte b).type = MsgType.publish.code) (out : PublishOut) :
    (mqttDeserializePublish out (b :: (field ++ (body ++ rest))) = none ↔
      ∃ tail : Bytes, CutId (MqttHeader.ofByte b).qos body tail ∧ tail.length + rest.length < 2) ∧
    ∀ rc out', mqttDeserializePublish out (b :: (field ++ (body ++ rest))) = some (rc, out') →
      (rc = 1 ↔ WellFormed (MqttHeader.ofByte b).qos body ∨
        (∃ tail, CutId (MqttHeader.ofByte b).qos body tail) ∨ NoText body ∧ field.length = 1) ∧
      ∀ tail, CutId (MqttHeader.ofByte b).qos body tail → out'.payloadlen = tail.length - 2 := by
  have hne : ¬ (MqttHeader.ofByte b).type ≠ MsgType.publish.code := not_not_intro htype
  rw [mqttDeserializePublish_eq hfield, if_neg hne]
  generalize hq : (MqttHeader.ofByte b).qos = qos
  rcases readMqttLenString_cases out.topicName body rest with
    ⟨topic, tail, htopic, hbody, hread⟩ | ⟨hno, s', c', hread⟩
  · have hcut (tail' : Bytes) :
        CutId qos body tail' ↔ tail' = tail ∧ 0 < qos ∧ tail.length < 2 := by
      constructor
      · rintro ⟨hqos, hshort, topic', htopic', heq⟩
        obtain ⟨-, rfl⟩ := textBytes_append_inj htopic htopic' (hbody.symm.trans heq)
        exact ⟨rfl, hqos, hshort⟩
      · rintro ⟨rfl, hqos, hshort⟩
        exact ⟨hqos, hshort, topic, htopic, hbody⟩
    have hwell : WellFormed qos body ↔ ¬ (0 < qos ∧ tail.length < 2) := by
      rw [hbody, wellFormed_iff htopic]
    have hleft : ¬ (tail.length : Int) < 0 := by omega
    simp only [readPublishBody, hread, Option.bind_eq_bind, Option.bind_some, Bool.not_true,
      hleft, decide_false, Bool.or_false, Bool.false_eq_true, if_false, hcut, hwell]
    by_cases hqos : 0 < qos
    · simp only [hqos, if_true, true_and]
      cases hint : readInt ⟨tail ++ rest, tail.length⟩ with
      | none =>
          have hlen := readInt_eq_none_iff.mp hint
          simp only [List.length_append] at hlen
          refine ⟨⟨fun _ => ⟨tail, ⟨rfl, by omega⟩, hlen⟩, fun _ => rfl⟩, nofun⟩
      | some r =>
          rcases r with ⟨packetid, c⟩
          obtain ⟨-, hrest, hc⟩ := readInt_eq_some_iff.mp hint
          have hlen : 2 ≤ tail.length + rest.length := by
            have heq := congrArg List.length hrest
            simp only [List.length_append, length_intBytes] at heq
            omega
          refine ⟨⟨nofun, ?_⟩, ?_⟩
          · rintro ⟨tail', ⟨rfl, -⟩, hshort⟩
            omega
          · intro rc out' heq
            simp only [Option.bind_some, Option.pure_def, Option.some.injEq, Prod.mk.injEq] at heq
            obtain ⟨rfl, rfl⟩ := heq
            refine ⟨⟨fun _ => ?_, fun _ => rfl⟩, ?_⟩
            · by_cases hshort : tail.length < 2
              · exact .inr (.inl ⟨tail, rfl, hshort⟩)
              · exact .inl hshort
            · rintro tail' ⟨rfl, -⟩
              exact hc
    · simp only [hqos, if_false, false_and, and_false, not_false_eq_true, true_or, iff_true,
        exists_false, Option.pure_def, Option.some.injEq, Prod.mk.injEq, reduceCtorEq, true_and]
      rintro rc out' ⟨rfl, -⟩
      exact ⟨rfl, fun _ h => h.elim⟩
  · have hcut (tail : Bytes) : ¬ CutId qos body tail := by
      rintro ⟨-, -, topic, htopic, hbody⟩
      exact hno topic tail htopic hbody
    have hwell : ¬ WellFormed qos body := by
      rintro ⟨packetid, topic, payload, -, htopic, hbody⟩
      exact hno topic _ htopic hbody
    simp only [readPublishBody, hread, Option.bind_eq_bind, Option.bind_some, Bool.not_false,
      Bool.true_or, if_true, hcut, hwell, hno, false_and, exists_false, false_or, true_and,
      Option.pure_def, reduceCtorEq, Option.some.injEq, Prod.mk.injEq, false_implies,
      implies_true, and_true]
    rintro rc out' ⟨rfl, -⟩
    omega

/-- A message with QoS 1 that ends behind its topic is taken, and its payload is shorter than
nothing by two bytes. -/
theorem mqttDeserializePublish_accepts_cut : ∃ out',
    mqttDeserializePublish ⟨0, 0, 0, 0, .initializer, none, 0⟩
      (50 :: ([3] ++ ([0, 1, 97] ++ [9, 9]))) = some (1, out') ∧ out'.payloadlen = -2 := by
  have hfield : LengthField [3] [0, 1, 97].length := ⟨.last (by decide), by decide, by decide⟩
  have hcut : CutId (MqttHeader.ofByte 50).qos [0, 1, 97] [] :=
    ⟨by decide, by decide, [97], by decide, by decide⟩
  have hreturns : ∃ r, mqttDeserializePublish ⟨0, 0, 0, 0, .initializer, none, 0⟩
      (50 :: ([3] ++ ([0, 1, 97] ++ [9, 9]))) = some r := ⟨_, rfl⟩
  obtain ⟨⟨rc, out'⟩, hread⟩ := hreturns
  obtain ⟨hcode, hlen⟩ := (mqttDeserializePublish_accepts hfield (by decide) _).2 rc out' hread
  obtain rfl := hcode.mpr (.inr (.inl ⟨[], hcut⟩))
  exact ⟨out', hread, hlen [] hcut⟩

/-! ## The round trips -/

/-- What a publish serializer writes is read back, whatever follows it. -/
theorem publish_round_trip {dup qos retained packetid : Nat} {topicName : MqttString}
    {topic payload : Bytes} (htopic : topicName.Holds topic) (hdup : dup < 2) (hqos : qos < 4)
    (hretained : retained < 2) (hid : packetid < 65536) (hlen : topic.length < 65536)
    (hpayload : payload.length < 268000000) :
    ∃ packet : Bytes,
      Serializes (mqttSerializePublish · dup qos retained packetid topicName payload) packet ∧
      ∀ rest out, ∃ out', mqttDeserializePublish out (packet ++ rest) = some (1, out') ∧
        out'.Carries ⟨MsgType.publish.code, dup, qos, retained⟩ packetid topic payload := by
  have hbody := length_publishBody qos packetid topic payload
  have hsmall : (publishBody qos packetid topic payload).length < 268435456 := by
    split at hbody <;> omega
  refine ⟨frame ⟨MsgType.publish.code, dup, qos, retained⟩
    (publishBody qos packetid topic payload), serializes_frame hsmall fun buf =>
      mqttSerializePublish_eq htopic hsmall, fun rest out => ?_⟩
  rw [frame, List.cons_append, List.append_assoc]
  exact mqttDeserializePublish_of_body (.of_msgType .publish hdup hqos hretained) rfl
    (.encode hsmall) hlen hid rfl rest out

theorem publish_round_trip_counted :
    ∃ packet : Bytes,
      Serializes (mqttSerializePublish · 0 1 0 7 ⟨none, 3, some [97, 47, 98]⟩ [1]) packet ∧
      ∀ rest out, ∃ out', mqttDeserializePublish out (packet ++ rest) = some (1, out') ∧
        out'.Carries ⟨MsgType.publish.code, 0, 1, 0⟩ 7 [97, 47, 98] [1] :=
  publish_round_trip ⟨rfl, fun _ => ⟨[], rfl⟩⟩ (by decide) (by decide) (by decide) (by decide)
    (by decide) (by decide)

/-- What is written for an acknowledgement is read back, whatever follows it. -/
theorem ack_round_trip (packettype : MsgType) {dup packetid : Nat} (hdup : dup < 2)
    (hid : packetid < 65536) (buf rest : Bytes) (out : AckOut) :
    ∃ packet : Bytes, packet.length = 4 ∧
      mqttSerializeAck buf packettype dup packetid =
        (if buf.length < 4 then some (bufferTooShort, buf) else some (written buf packet)) ∧
      mqttDeserializeAck out (packet ++ rest) = some (1, ⟨packettype.code, dup, packetid⟩) := by
  have hfits : MqttHeader.Fits ⟨packettype.code, dup, if packettype = .pubrel then 1 else 0, 0⟩ :=
    .of_msgType packettype hdup (by split <;> decide) (by decide)
  exact ⟨frame ⟨packettype.code, dup, if packettype = .pubrel then 1 else 0, 0⟩
    (intBytes packetid), length_ackFrame _ _, mqttSerializeAck_eq ..,
    mqttDeserializeAck_frame hfits hid rest out⟩

theorem ack_round_trip_pubrel :
    ∃ packet : Bytes, packet.length = 4 ∧
      mqttSerializeAck [0, 0, 0, 0, 0] .pubrel 1 7 =
        (if [0, 0, 0, 0, 0].length < 4 then some (bufferTooShort, [0, 0, 0, 0, 0])
          else some (written [0, 0, 0, 0, 0] packet)) ∧
      mqttDeserializeAck ⟨0, 0, 0⟩ (packet ++ []) = some (1, ⟨MsgType.pubrel.code, 1, 7⟩) :=
  ack_round_trip .pubrel (by decide) (by decide) [0, 0, 0, 0, 0] [] ⟨0, 0, 0⟩

end EzIot.Mqtt
