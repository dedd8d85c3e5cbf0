import EzIot.Mqtt.Framing

/-! # What a stream of packets does

A server's packets, as it means them, and what the client is to do with each one: hand a
message to the receivers of its topic and answer it. The client does this for every packet
of a stream, in order and once, whatever the pieces are in which the bytes arrive and
wherever between two packets the socket is silent.
-/

namespace EzIot.Mqtt

open CText

/-! ## The packets and their meaning -/

/-- The packets that a server sends. -/
inductive Packet
  | publish (dup qos retained packetid : Nat) (topic payload : Bytes)
  | pubrec (packetid : Nat)
  | other (header : UInt8) (body : Bytes)
deriving DecidableEq

namespace Packet

def header : Packet → MqttHeader
  | publish dup qos retained _ _ _ => ⟨MsgType.publish.code, dup, qos, retained⟩
  | pubrec _ => ⟨MsgType.pubrec.code, 0, 0, 0⟩
  | other header _ => .ofByte header

def body : Packet → Bytes
  | publish _ qos _ packetid topic payload => publishBody qos packetid topic payload
  | pubrec packetid => intBytes packetid
  | other _ body => body

/-- The bytes of a packet on the wire. -/
def wire (p : Packet) : Bytes := frame p.header p.body

def Fits : Packet → Prop
  | publish dup qos retained packetid topic _ =>
      dup < 2 ∧ qos < 3 ∧ retained < 2 ∧ packetid < 65536 ∧ topic.length < 65536
  | pubrec packetid => packetid < 65536
  | other header _ => (MqttHeader.ofByte header).type ≠ MsgType.publish.code ∧
      (MqttHeader.ofByte header).type ≠ MsgType.pubrec.code

instance : (p : Packet) → Decidable p.Fits
  | publish dup qos retained packetid topic _ => inferInstanceAs (Decidable
      (dup < 2 ∧ qos < 3 ∧ retained < 2 ∧ packetid < 65536 ∧ topic.length < 65536))
  | pubrec packetid => inferInstanceAs (Decidable (packetid < 65536))
  | other header _ => inferInstanceAs (Decidable
      ((MqttHeader.ofByte header).type ≠ MsgType.publish.code ∧
        (MqttHeader.ofByte header).type ≠ MsgType.pubrec.code))

/-- The packet can be put on the wire. -/
def Proper (p : Packet) : Prop := p.body.length < 268435456 ∧ p.Fits

instance (p : Packet) : Decidable p.Proper :=
  inferInstanceAs (Decidable (p.body.length < 268435456 ∧ p.Fits))

/-- The client's answers. -/
def answers : Packet → List Bytes
  | publish _ qos _ packetid _ _ =>
      if qos = 1 then [frame ⟨MsgType.puback.code, 0, 0, 0⟩ (intBytes packetid)]
      else if qos = 2 then [frame ⟨MsgType.pubrec.code, 0, 0, 0⟩ (intBytes packetid)]
      else []
  | pubrec packetid => [frame ⟨MsgType.pubrel.code, 0, 1, 0⟩ (intBytes packetid)]
  | other _ _ => []

end Packet

/-- What a handler sees of a message. -/
structure Seen (H : Type) where
  fp : H
  topic : Bytes
  payload : Bytes
  dup : Nat
  qos : Nat
  retained : Nat
  id : Nat

section Session

variable {H : Type}

/-- The texts that the pointers of a call lead to; a message without an acknowledgement has
no packet id. -/
def seen (call : H × MqttString × MqttMessage) : Seen H where
  fp := call.1
  topic := (call.2.1.lenstring.data.getD []).take call.2.1.lenstring.len
  payload := (call.2.2.payload.getD []).take call.2.2.payloadlen.toNat
  dup := call.2.2.dup
  qos := call.2.2.qos
  retained := call.2.2.retained
  id := if 0 < call.2.2.qos then call.2.2.id else 0

/-- The calls that a packet causes. -/
noncomputable def Packet.calls (handlers : List (MessageHandler H)) (default : Option H) :
    Packet → List (Seen H)
  | publish dup qos retained packetid topic payload =>
      (receivers handlers default topic).map fun fp =>
        ⟨fp, topic, payload, dup, qos, retained, if 0 < qos then packetid else 0⟩
  | pubrec _ => []
  | other _ _ => []

/-- The ping of the client. -/
def pingreq : Bytes := frame ⟨MsgType.pingreq.code, 0, 0, 0⟩ []

/-! ## Sending when the network takes everything -/

/-- What a step of the client leaves as it is. -/
structure Keeps (c c' : MqttClient H) : Prop where
  handlers : c'.messageHandlers = c.messageHandlers
  default : c'.defaultMessageHandler = c.defaultMessageHandler
  sends : c'.sends = c.sends
  buf : c'.buf.length = c.buf.length
  readbuf : c'.readbuf.length = c.readbuf.length

theorem Keeps.refl (c : MqttClient H) : Keeps c c := ⟨rfl, rfl, rfl, rfl, rfl⟩

theorem Keeps.trans {a b c : MqttClient H} (h : Keeps a b) (h' : Keeps b c) : Keeps a c where
  handlers := h'.handlers.trans h.handlers
  default := h'.default.trans h.default
  sends := h'.sends.trans h.sends
  buf := h'.buf.trans h.buf
  readbuf := h'.readbuf.trans h.readbuf

/-- What a step that only sends leaves as it is, and what it sends. -/
structure Sends (c c' : MqttClient H) (packets : List Bytes) : Prop where
  keeps : Keeps c c'
  net : c'.net = c.net
  calls : c'.calls = c.calls
  wire : c'.wire = c.wire ++ packets.flatten

theorem Sends.refl (c : MqttClient H) : Sends c c [] := ⟨.refl c, rfl, rfl, by simp⟩

theorem Sends.trans {a b c : MqttClient H} {p q : List Bytes} (h : Sends a b p) (h' : Sends b c q) :
    Sends a c (p ++ q) where
  keeps := h.keeps.trans h'.keeps
  net := h'.net.trans h.net
  calls := h'.calls.trans h.calls
  wire := by rw [h'.wire, h.wire, List.flatten_append, List.append_assoc]

variable {c : MqttClient H}

theorem sendPacket_all (hsends : c.sends = []) {length : Nat} (hpos : 0 < length)
    (hlen : length ≤ c.buf.length) :
    sendPacket length c = (success, { c with wire := c.wire ++ c.buf.take length }) := by
  have htake : (c.buf.take length).length = length := by
    rw [List.length_take]
    omega
  have hwrite : mqttwrite (c.buf.take length) c =
      ((length : Int), { c with wire := c.wire ++ c.buf.take length }) := by
    unfold mqttwrite mqttNetWrite netWrite
    rw [hsends]
    simp only [htake, Int.toNat_natCast, List.take_take, Nat.min_self]
  have hnot : ¬ (length : Int) ≤ 0 := by omega
  unfold sendPacket
  cases length with
  | zero => omega
  | succ n =>
      rw [sendLoop, hwrite]
      simp only [hnot, if_false, Int.toNat_natCast, List.drop_eq_nil_of_le (Nat.le_of_eq htake),
        if_true]

theorem serialize_sendPacket {f : Bytes → Option (Int × Bytes)} {packet : Bytes}
    (hf : f c.buf = some (written c.buf packet)) (hfits : packet.length ≤ c.buf.length)
    (hne : packet ≠ []) (hsends : c.sends = []) :
    ∃ c₁ c', serialize f c = some ((packet.length : Int), c₁) ∧
      sendPacket packet.length c₁ = (success, c') ∧ Sends c c' [packet] := by
  have hbuf : (packet ++ c.buf.drop packet.length).length = c.buf.length :=
    length_append_drop rfl hfits
  have hsend := sendPacket_all (c := { c with buf := packet ++ c.buf.drop packet.length }) hsends
    (List.length_pos_iff.mpr hne) (by simp only [hbuf]; exact hfits)
  rw [List.take_left] at hsend
  refine ⟨{ c with buf := packet ++ c.buf.drop packet.length }, _, ?_, hsend,
    ⟨rfl, rfl, rfl, hbuf, rfl⟩, rfl, rfl, by simp⟩
  simp only [serialize, hf, written, Option.map_some]

theorem serializeAndSend_all {f : Bytes → Option (Int × Bytes)} {packet : Bytes}
    (hf : f c.buf = some (written c.buf packet)) (hfits : packet.length ≤ c.buf.length)
    (hne : packet ≠ []) (hsends : c.sends = []) :
    ∃ c', serializeAndSend f c = some (success, c') ∧ Sends c c' [packet] := by
  obtain ⟨c₁, c', hserialize, hsend, hsent⟩ := serialize_sendPacket hf hfits hne hsends
  have hpos : 0 < packet.length := List.length_pos_iff.mpr hne
  have hnot : ¬ (packet.length : Int) ≤ 0 := by omega
  refine ⟨c', ?_, hsent⟩
  unfold serializeAndSend
  simp only [hserialize, Option.bind_eq_bind, Option.bind_some, hnot, if_false, Int.toNat_natCast,
    hsend, Option.pure_def]

theorem sends_timerIsExpired : Sends c (timerIsExpired c).2 [] := by
  unfold timerIsExpired
  split
  · exact .refl c
  · exact ⟨⟨rfl, rfl, rfl, rfl, rfl⟩, rfl, rfl, by simp⟩

theorem keepalive_all (hsends : c.sends = []) (hbuf : 4 ≤ c.buf.length) :
    ∃ c' out, keepalive c = some (success, c') ∧ Sends c c' out ∧ ∀ p ∈ out, p = pingreq := by
  unfold keepalive
  split
  next => exact ⟨c, [], rfl, .refl c, by simp⟩
  next =>
    have htimer := sends_timerIsExpired (c := c)
    generalize timerIsExpired c = t at htimer ⊢
    rcases t with ⟨expired, c₁⟩
    cases expired with
    | false => exact ⟨c₁, [], rfl, htimer, by simp⟩
    | true =>
        have hbuf₁ : ¬ c₁.buf.length < 2 := by
          have hlen : c₁.buf.length = c.buf.length := htimer.keeps.buf
          omega
        have hf : mqttSerializePingreq c₁.buf = some (written c₁.buf pingreq) := by
          rw [mqttSerializePingreq, mqttSerializeZero_eq, if_neg hbuf₁]
          rfl
        obtain ⟨c₂, c₃, hserialize, hsend, hsent⟩ := serialize_sendPacket hf (Nat.not_lt.mp hbuf₁)
          (List.cons_ne_nil _ _) (htimer.keeps.sends.trans hsends)
        refine ⟨{ c₃ with pingOutstanding := true }, [pingreq], ?_,
          htimer.trans ⟨⟨hsent.keeps.handlers, hsent.keeps.default, hsent.keeps.sends,
            hsent.keeps.buf, hsent.keeps.readbuf⟩, hsent.net, hsent.calls, hsent.wire⟩, by simp⟩
        have hnot : ¬ (pingreq.length : Int) ≤ 0 := by decide
        simp only [if_true, hserialize, Option.bind_eq_bind, Option.bind_some, hnot, if_false,
          Int.toNat_natCast, hsend, Option.pure_def]

theorem acknowledge_all (hsends : c.sends = []) (hbuf : 4 ≤ c.buf.length) {out : PublishOut}
    (hqos : out.qos < 3) :
    ∃ c', acknowledge out c = some (success, c') ∧ Sends c c'
      (if out.qos = 1 then [frame ⟨MsgType.puback.code, 0, 0, 0⟩ (intBytes out.packetid)]
      else if out.qos = 2 then [frame ⟨MsgType.pubrec.code, 0, 0, 0⟩ (intBytes out.packetid)]
      else []) := by
  have hsend (t : MsgType) (ht : t ≠ .pubrel) :
      ∃ c', serializeAndSend (mqttSerializeAck · t 0 out.packetid) c = some (success, c') ∧
        Sends c c' [frame ⟨t.code, 0, 0, 0⟩ (intBytes out.packetid)] := by
    refine serializeAndSend_all ?_ ?_ (List.cons_ne_nil _ _) hsends
    · rw [mqttSerializeAck_eq, if_neg (by omega), if_neg ht]
    · rw [length_ackFrame]
      exact hbuf
  unfold acknowledge
  have hcases : out.qos = 0 ∨ out.qos = 1 ∨ out.qos = 2 := by omega
  rcases hcases with h | h | h
  · simp only [h]
    exact ⟨c, rfl, .refl c⟩
  · simp only [h]
    exact hsend .puback (by decide)
  · simp only [h]
    exact hsend .pubrec (by decide)

theorem cycleEnd_all (hsends : c.sends = []) (hbuf : 4 ≤ c.buf.length) (packetType : Nat) :
    ∃ c' out, cycleEnd packetType c = some ((packetType : Int), c') ∧ Sends c c' out ∧
      ∀ p ∈ out, p = pingreq := by
  obtain ⟨c', out, hkeep, hsent, hping⟩ := keepalive_all hsends hbuf
  refine ⟨c', out, ?_, hsent, hping⟩
  unfold cycleEnd
  simp only [hkeep, Option.bind_eq_bind, Option.bind_some]
  rfl

/-! ## One packet -/

theorem deliver_all {out : PublishOut} {h : MqttHeader} {packetid : Nat} {topic payload : Bytes}
    (hout : out.Carries h packetid topic payload)
    (hvalid : ∀ h ∈ c.messageHandlers, ValidFilter h.topicFilter.val) :
    ∃ c', deliver out c = some c' ∧ Keeps c c' ∧ c'.net = c.net ∧ c'.wire = c.wire ∧
      c'.calls.map seen = c.calls.map seen ++
        (receivers c.messageHandlers c.defaultMessageHandler topic).map fun fp =>
          ⟨fp, topic, payload, h.dup, h.qos, h.retain, if 0 < h.qos then packetid else 0⟩ := by
  obtain ⟨rest, hname⟩ := hout.topicName
  obtain ⟨tail, hpayload⟩ := hout.payload
  have hdeliver : deliverMessage c.messageHandlers c.defaultMessageHandler
      ⟨none, topic.length, some (topic ++ rest)⟩ = _ :=
    deliverMessage_eq hvalid c.defaultMessageHandler
  rw [← hname] at hdeliver
  let calls := (receivers c.messageHandlers c.defaultMessageHandler topic).map fun fp =>
    (fp, out.topicName, messageOf out)
  refine ⟨{ c with calls := c.calls ++ calls }, ?_, ⟨rfl, rfl, rfl, rfl, rfl⟩, rfl, rfl, ?_⟩
  · unfold deliver
    rw [hdeliver]
    rfl
  rw [List.map_append, List.map_map]
  congr 1
  apply List.map_congr_left
  intro fp _
  have hid : (if 0 < h.qos then out.packetid else 0) = if 0 < h.qos then packetid else 0 := by
    split
    next hqos => exact hout.packetid hqos
    next => rfl
  simp only [Function.comp_apply, seen, messageOf, hname, hpayload, hout.payloadlen, hout.dup,
    hout.qos, hout.retained, Option.getD_some, List.take_left, Int.toNat_natCast, hid]

/-- What the client does with a packet. -/
structure Handles (c c' : MqttClient H) (p : Packet) (out : List Bytes) : Prop where
  keeps : Keeps c c'
  net : c'.net = c.net
  calls : c'.calls.map seen =
    c.calls.map seen ++ p.calls c.messageHandlers c.defaultMessageHandler
  wire : c'.wire = c.wire ++ out.flatten
  answers : out.filter (· ≠ pingreq) = p.answers

theorem filter_ne_pingreq {out pings : List Bytes} (hout : ∀ p ∈ out, p ≠ pingreq)
    (hpings : ∀ p ∈ pings, p = pingreq) : (out ++ pings).filter (· ≠ pingreq) = out := by
  rw [List.filter_append, List.filter_eq_self.mpr (by simpa using hout),
    List.filter_eq_nil_iff.mpr (by simpa using hpings), List.append_nil]

theorem ackFrame_ne_pingreq (h : MqttHeader) (packetid : Nat) :
    frame h (intBytes packetid) ≠ pingreq := by
  intro heq
  have hlen := congrArg List.length heq
  rw [length_ackFrame] at hlen
  cases hlen

theorem answers_ne_pingreq (p : Packet) : ∀ a ∈ p.answers, a ≠ pingreq := by
  cases p with
  | publish dup qos retained packetid topic payload =>
      simp only [Packet.answers]
      split
      · simpa using ackFrame_ne_pingreq _ _
      · split
        · simpa using ackFrame_ne_pingreq _ _
        · simp
  | pubrec packetid => simpa [Packet.answers] using ackFrame_ne_pingreq _ _
  | other => simp [Packet.answers]

/-- The end of a cycle in which the packet has been dealt with. -/
theorem handles_cycleEnd {c₁ : MqttClient H} {p : Packet} (hkeeps : Keeps c c₁)
    (hnet : c₁.net = c.net)
    (hcalls : c₁.calls.map seen =
      c.calls.map seen ++ p.calls c.messageHandlers c.defaultMessageHandler)
    (hwire : c₁.wire = c.wire ++ p.answers.flatten) (hsends : c.sends = [])
    (hbuf : 4 ≤ c.buf.length) (packetType : Nat) :
    ∃ c' out, cycleEnd packetType c₁ = some ((packetType : Int), c') ∧ Handles c c' p out := by
  obtain ⟨c', pings, hend, hsent, hping⟩ := cycleEnd_all (hkeeps.sends.trans hsends)
    (hkeeps.buf ▸ hbuf) packetType
  refine ⟨c', p.answers ++ pings, hend, hkeeps.trans hsent.keeps, hsent.net.trans hnet, ?_, ?_,
    filter_ne_pingreq (answers_ne_pingreq p) hping⟩
  · rw [hsent.calls, hcalls]
  · rw [hsent.wire, hwire, List.flatten_append, List.append_assoc]

theorem cycleSwitch_publish {dup qos retained packetid : Nat} {topic payload tail : Bytes}
    (hproper : Packet.Proper (.publish dup qos retained packetid topic payload))
    (hvalid : ∀ h ∈ c.messageHandlers, ValidFilter h.topicFilter.val) (hsends : c.sends = [])
    (hbuf : 4 ≤ c.buf.length)
    (hread : c.readbuf = (Packet.publish dup qos retained packetid topic payload).wire ++ tail) :
    ∃ c' out, cycleSwitch MsgType.publish.code c = some ((MsgType.publish.code : Int), c') ∧
      Handles c c' (.publish dup qos retained packetid topic payload) out := by
  obtain ⟨hsmall, hdup, hqos, hretained, hid, htopic⟩ := hproper
  obtain ⟨out, hparse, hout⟩ := mqttDeserializePublish_of_body
    (.of_msgType .publish hdup (by omega) hretained) rfl (.encode hsmall) htopic hid rfl tail emptyPublish
  obtain ⟨c₁, hdeliver, hkeeps, hnet, hwire, hcalls⟩ := deliver_all hout hvalid
  have hlow : out.qos < 3 := by
    rw [hout.qos]
    exact hqos
  obtain ⟨c₂, hack, hsent⟩ := acknowledge_all (hkeeps.sends.trans hsends) (hkeeps.buf ▸ hbuf) hlow
  have hanswers : (if out.qos = 1 then [frame ⟨MsgType.puback.code, 0, 0, 0⟩ (intBytes out.packetid)]
      else if out.qos = 2 then [frame ⟨MsgType.pubrec.code, 0, 0, 0⟩ (intBytes out.packetid)]
      else []) = (Packet.publish dup qos retained packetid topic payload).answers := by
    have hoq : out.qos = qos := hout.qos
    by_cases hpos : 0 < qos
    · rw [hoq, hout.packetid hpos]
      rfl
    · have hzero : qos = 0 := by omega
      rw [hoq, hzero]
      rfl
  rw [hanswers] at hsent
  obtain ⟨c', answers, hend, hhandles⟩ := handles_cycleEnd
    (p := .publish dup qos retained packetid topic payload) (hkeeps.trans hsent.keeps)
    (hsent.net.trans hnet) (by rw [hsent.calls, hcalls]; rfl) (by rw [hsent.wire, hwire]) hsends hbuf
    MsgType.publish.code
  refine ⟨c', answers, ?_, hhandles⟩
  have hwhole : c.readbuf = MqttHeader.byte ⟨MsgType.publish.code, dup, qos, retained⟩ ::
      (mqttPacketEncode (Packet.publish dup qos retained packetid topic payload).body.length ++
        ((Packet.publish dup qos retained packetid topic payload).body ++ tail)) := by
    rw [hread, Packet.wire, frame, List.cons_append, List.append_assoc]
    rfl
  rw [← hwhole] at hparse
  have hne : ¬ success = failure := by decide
  simp only [cycleSwitch, MsgType.code, OfNat.ofNat_ne_zero, if_false, if_true,
    hparse, hdeliver, hack, Option.bind_eq_bind, Option.bind_some, ne_eq, hne,
    not_true_eq_false]
  exact hend

theorem fits_pubrec : MqttHeader.Fits ⟨MsgType.pubrec.code, 0, 0, 0⟩ := by
  unfold MqttHeader.Fits
  decide

theorem cycleSwitch_pubrec {packetid : Nat} {tail : Bytes}
    (hid : packetid < 65536) (hsends : c.sends = []) (hbuf : 4 ≤ c.buf.length)
    (hread : c.readbuf = (Packet.pubrec packetid).wire ++ tail) :
    ∃ c' out, cycleSwitch MsgType.pubrec.code c = some ((MsgType.pubrec.code : Int), c') ∧
      Handles c c' (.pubrec packetid) out := by
  have hparse := mqttDeserializeAck_frame fits_pubrec hid tail ⟨0, 0, c.stale⟩
  have hwhole : c.readbuf = frame ⟨MsgType.pubrec.code, 0, 0, 0⟩ (intBytes packetid) ++ tail := hread
  have hack : mqttSerializeAck c.buf .pubrel 0 packetid =
      some (written c.buf (frame ⟨MsgType.pubrel.code, 0, 1, 0⟩ (intBytes packetid))) := by
    rw [mqttSerializeAck_eq, if_neg (by omega)]
    rfl
  obtain ⟨c₁, hsend, hsent⟩ := serializeAndSend_all (f := (mqttSerializeAck · .pubrel 0 packetid))
    hack (by rw [length_ackFrame]; exact hbuf) (List.cons_ne_nil _ _) hsends
  obtain ⟨c', out, hend, hhandles⟩ := handles_cycleEnd (p := .pubrec packetid) hsent.keeps hsent.net
    (by rw [hsent.calls, Packet.calls, List.append_nil]) hsent.wire hsends hbuf MsgType.pubrec.code
  refine ⟨c', out, ?_, hhandles⟩
  have hne : ¬ success = failure := by decide
  rw [← hwhole] at hparse
  simp only [MsgType.code] at hparse
  simp only [cycleSwitch, releasePublish, MsgType.code, OfNat.ofNat_ne_zero, Nat.reduceEqDiff,
    if_false, if_true, hparse, hsend, Option.bind_eq_bind, Option.bind_some, ne_eq,
    not_true_eq_false, hne, or_self, Option.pure_def]
  exact hend

theorem cycleSwitch_other {packetType : Nat} (hpublish : packetType ≠ MsgType.publish.code)
    (hpubrec : packetType ≠ MsgType.pubrec.code) (hsends : c.sends = []) (hbuf : 4 ≤ c.buf.length)
    (header : UInt8) (body : Bytes) :
    ∃ c' out, cycleSwitch packetType c = some ((packetType : Int), c') ∧
      Handles c c' (.other header body) out := by
  have hend {c₁ : MqttClient H} (hkeeps : Keeps c c₁) (hnet : c₁.net = c.net)
      (hcalls : c₁.calls = c.calls) (hwire : c₁.wire = c.wire) :=
    handles_cycleEnd (p := .other header body) hkeeps hnet
      (by rw [hcalls, Packet.calls, List.append_nil]) (by rw [hwire]; exact (List.append_nil _).symm)
      hsends hbuf packetType
  unfold cycleSwitch
  split
  next h =>
    subst h
    exact hend (.refl c) rfl rfl rfl
  next =>
    split
    next => exact hend (.refl c) rfl rfl rfl
    next =>
      split
      next => exact hend ⟨rfl, rfl, rfl, rfl, rfl⟩ rfl rfl rfl
      next =>
        exact ⟨c, [], rfl, .refl c, rfl, by rw [Packet.calls, List.append_nil],
          (List.append_nil _).symm, rfl⟩

theorem Packet.Proper.ofByte_header {p : Packet} (hproper : p.Proper) :
    MqttHeader.ofByte p.header.byte = p.header := by
  cases p with
  | publish dup qos retained packetid topic payload =>
      obtain ⟨-, hdup, hqos, hretained, -⟩ := hproper
      exact MqttHeader.ofByte_byte (.of_msgType .publish hdup (by omega) hretained)
  | pubrec packetid => exact MqttHeader.ofByte_byte fits_pubrec
  | other header body => rw [Packet.header, MqttHeader.byte_ofByte]

theorem cycleSwitch_packet {p : Packet} (hproper : p.Proper)
    (hvalid : ∀ h ∈ c.messageHandlers, ValidFilter h.topicFilter.val) (hsends : c.sends = [])
    (hbuf : 4 ≤ c.buf.length) {tail : Bytes} (hread : c.readbuf = p.wire ++ tail) :
    ∃ c' out, cycleSwitch p.header.type c = some ((p.header.type : Int), c') ∧
      Handles c c' p out := by
  cases p with
  | publish => exact cycleSwitch_publish hproper hvalid hsends hbuf hread
  | pubrec => exact cycleSwitch_pubrec hproper.2 hsends hbuf hread
  | other header body => exact cycleSwitch_other hproper.2.1 hproper.2.2 hsends hbuf header body

theorem cycle_packet {p : Packet} (hproper : p.Proper)
    (hvalid : ∀ h ∈ c.messageHandlers, ValidFilter h.topicFilter.val) (hsends : c.sends = [])
    (hbuf : 4 ≤ c.buf.length) {chunks : List Bytes} {events : List SockEvent}
    (hnet : c.net = pieces chunks events) (hne : ∀ bs ∈ chunks, bs ≠ []) {rest : Bytes}
    (hflat : chunks.flatten = p.wire ++ rest) (hroom : p.wire.length ≤ c.readbuf.length) :
    ∃ (chunks' : List Bytes) (c' : MqttClient H) (out : List Bytes),
      (∀ bs ∈ chunks', bs ≠ []) ∧ chunks'.flatten = rest ∧ c'.net = pieces chunks' events ∧
      cycle c = some ((p.header.type : Int), c') ∧ Keeps c c' ∧
      c'.calls.map seen = c.calls.map seen ++ p.calls c.messageHandlers c.defaultMessageHandler ∧
      c'.wire = c.wire ++ out.flatten ∧ out.filter (· ≠ pingreq) = p.answers := by
  have hheader := hproper.ofByte_header
  have htype : p.header.type < 65536 := by
    have hlt := p.header.byte.toNat_lt
    rw [← hheader, MqttHeader.ofByte]
    simp only
    omega
  obtain ⟨chunks', hne', hflat', hread⟩ := readPacket_pieces hnet hne (.encode hproper.1)
    (b := p.header.byte) hflat hroom
  rw [hheader] at hread
  obtain ⟨c', out, hswitch, hhandles⟩ := cycleSwitch_packet (c := { c with
      net := pieces chunks' events
      readbuf := p.wire ++ c.readbuf.drop p.wire.length }) hproper hvalid hsends hbuf rfl
  have hlen : (p.wire ++ c.readbuf.drop p.wire.length).length = c.readbuf.length :=
    length_append_drop rfl hroom
  refine ⟨chunks', { c' with cycles := c'.cycles ++ [(p.header.type : Int)] }, out, hne', hflat',
    hhandles.net, ?_, ⟨hhandles.keeps.handlers, hhandles.keeps.default, hhandles.keeps.sends,
      hhandles.keeps.buf, hhandles.keeps.readbuf.trans hlen⟩, hhandles.calls, hhandles.wire,
    hhandles.answers⟩
  have hshort : ((p.header.type : Int) % 65536).toNat = p.header.type := by omega
  unfold cycle
  simp only [hread, Option.bind_eq_bind, Option.bind_some, hshort]
  simp only [kept]
  rw [show p.header.byte :: (mqttPacketEncode p.body.length ++ p.body) = p.wire from rfl, hswitch]
  rfl

/-! ## A stream of packets -/

def mqttRun : Nat → MqttClient H → Option (MqttClient H)
  | 0, c => some c
  | turns + 1, c => do
      let (_, c) ← cycle c
      mqttRun turns c

@[simp] theorem mqttRun_zero (c : MqttClient H) : mqttRun 0 c = some c := rfl

theorem mqttRun_succ (turns : Nat) (c : MqttClient H) :
    mqttRun (turns + 1) c = (cycle c).bind fun r => mqttRun turns r.2 := rfl

theorem mqttRun_add {m n : Nat} {a b : MqttClient H} (h : mqttRun m a = some b) :
    mqttRun (m + n) a = mqttRun n b := by
  induction m generalizing a with
  | zero =>
      cases h
      rw [Nat.zero_add]
  | succ m ih =>
      rw [Nat.succ_add, mqttRun_succ]
      rw [mqttRun_succ] at h
      cases hcycle : cycle a with
      | none => simp [hcycle] at h
      | some r =>
          rw [hcycle] at h
          exact ih h

/-- So many turns read these packets: they are cut into pieces in any way, and in some turns
the socket is silent before a packet. -/
inductive Arrives : List SockEvent → Nat → List Packet → Prop
  | done (events : List SockEvent) : Arrives events 0 []
  | silent {events : List SockEvent} {turns : Nat} {ps : List Packet} (h : Arrives events turns ps) :
      Arrives (.timeout :: events) (turns + 1) ps
  | packets (chunks : List Bytes) {events : List SockEvent} {turns : Nat} (qs : List Packet)
      {ps : List Packet} (hne : ∀ bs ∈ chunks, bs ≠ []) (hflat : chunks.flatten = qs.flatMap Packet.wire)
      (h : Arrives events turns ps) : Arrives (pieces chunks events) (qs.length + turns) (qs ++ ps)

structure Serves (c c' : MqttClient H) (turns : Nat) (ps : List Packet) : Prop where
  run : mqttRun turns c = some c'
  keeps : Keeps c c'
  calls : c'.calls.map seen = c.calls.map seen ++
    ps.flatMap (Packet.calls c.messageHandlers c.defaultMessageHandler)
  wire : ∃ out : List Bytes, c'.wire = c.wire ++ out.flatten ∧
    out.filter (· ≠ pingreq) = ps.flatMap Packet.answers

theorem Serves.refl (c : MqttClient H) : Serves c c 0 [] :=
  ⟨rfl, .refl c, (List.append_nil _).symm, [], (List.append_nil _).symm, rfl⟩

theorem Serves.trans {a b c : MqttClient H} {m n : Nat} {qs ps : List Packet}
    (h : Serves a b m qs) (h' : Serves b c n ps) : Serves a c (m + n) (qs ++ ps) where
  run := (mqttRun_add h.run).trans h'.run
  keeps := h.keeps.trans h'.keeps
  calls := by
    rw [h'.calls, h.calls, h.keeps.handlers, h.keeps.default, List.flatMap_append, List.append_assoc]
  wire := by
    obtain ⟨out, hwire, hout⟩ := h.wire
    obtain ⟨out', hwire', hout'⟩ := h'.wire
    refine ⟨out ++ out', ?_, ?_⟩
    · rw [hwire', hwire, List.flatten_append, List.append_assoc]
    · rw [List.filter_append, hout, hout', List.flatMap_append]

/-- What the client needs for every packet. -/
structure Ready (c : MqttClient H) : Prop where
  valid : ∀ h ∈ c.messageHandlers, ValidFilter h.topicFilter.val
  sends : c.sends = []
  buf : 4 ≤ c.buf.length

theorem Ready.of_keeps {c' : MqttClient H} (h : Ready c) (hkeeps : Keeps c c') : Ready c' where
  valid := by rw [hkeeps.handlers]; exact h.valid
  sends := hkeeps.sends.trans h.sends
  buf := by rw [hkeeps.buf]; exact h.buf

theorem cycle_silent (hready : Ready c) {events : List SockEvent}
    (hnet : c.net = .timeout :: events) : ∃ c', c'.net = events ∧ Serves c c' 1 [] := by
  have hread : readPacket c = some (0, { c with net := events }) := by
    have hcopy : memcpy c.readbuf 0 [] = some c.readbuf := by simp [memcpy]
    unfold readPacket mqttread mqttNetRead
    simp [hnet, netRead, hcopy]
  obtain ⟨c₁, out, hend, hsent, hping⟩ := cycleEnd_all (c := { c with net := events })
    hready.sends hready.buf 0
  have hcycle : cycle c = some (0, { c₁ with cycles := c₁.cycles ++ [0] }) := by
    unfold cycle
    rw [hread]
    simp only [Option.bind_eq_bind, Option.bind_some]
    show (cycleSwitch 0 { c with net := events }).bind _ = _
    rw [cycleSwitch, if_pos rfl, hend]
    rfl
  refine ⟨{ c₁ with cycles := c₁.cycles ++ [0] }, hsent.net, ?_, ?_, ?_, out, hsent.wire, ?_⟩
  · rw [mqttRun_succ, hcycle]
    rfl
  · exact ⟨hsent.keeps.handlers, hsent.keeps.default, hsent.keeps.sends, hsent.keeps.buf,
      hsent.keeps.readbuf⟩
  · simp [hsent.calls]
  · simpa using hping

theorem serves_packets {ps : List Packet} {chunks : List Bytes} {events : List SockEvent}
    (hready : Ready c) (hproper : ∀ p ∈ ps, p.Proper)
    (hroom : ∀ p ∈ ps, p.wire.length ≤ c.readbuf.length) (hnet : c.net = pieces chunks events)
    (hne : ∀ bs ∈ chunks, bs ≠ []) (hflat : chunks.flatten = ps.flatMap Packet.wire) :
    ∃ c', c'.net = events ∧ Serves c c' ps.length ps := by
  induction ps generalizing c chunks with
  | nil =>
      have hnone : chunks = [] := by
        cases chunks with
        | nil => rfl
        | cons bs chunks =>
            rw [List.flatten_cons, List.flatMap_nil] at hflat
            exact absurd (List.append_eq_nil_iff.mp hflat).1 (hne bs List.mem_cons_self)
      subst hnone
      exact ⟨c, hnet, .refl c⟩
  | cons p ps ih =>
      obtain ⟨chunks', c₁, out, hne', hflat', hnet', hcycle, hkeeps, hcalls, hwire, hanswers⟩ :=
        cycle_packet (hproper p List.mem_cons_self) hready.valid hready.sends hready.buf hnet hne
          (by rw [hflat, List.flatMap_cons]) (hroom p List.mem_cons_self)
      have hone : Serves c c₁ 1 [p] := ⟨by rw [mqttRun_succ, hcycle]; rfl, hkeeps,
        by simpa using hcalls, out, hwire, by simpa using hanswers⟩
      obtain ⟨c', hnet'', hserves⟩ := ih (hready.of_keeps hkeeps)
        (fun q hq => hproper q (List.mem_cons_of_mem p hq))
        (fun q hq => by rw [hkeeps.readbuf]; exact hroom q (List.mem_cons_of_mem p hq))
        hnet' hne' hflat'
      have hboth := hone.trans hserves
      rw [Nat.add_comm] at hboth
      exact ⟨c', hnet'', hboth⟩

/-- The packets of a stream are dealt with once and in order: the receivers of each topic see
its message, and apart from pings exactly the answers are sent. Neither the pieces in which
the bytes arrive nor the silence between two packets matters. -/
theorem serves_of_arrives {ps : List Packet} {turns : Nat} (hready : Ready c)
    (harrives : Arrives c.net turns ps) (hproper : ∀ p ∈ ps, p.Proper)
    (hroom : ∀ p ∈ ps, p.wire.length ≤ c.readbuf.length) : ∃ c', Serves c c' turns ps := by
  generalize hnet : c.net = net at harrives
  induction harrives generalizing c with
  | done events => exact ⟨c, .refl c⟩
  | silent h ih =>
      obtain ⟨c₁, hnet₁, hserves⟩ := cycle_silent hready hnet
      obtain ⟨c', hrest⟩ := ih (hready.of_keeps hserves.keeps) hproper
        (by rw [hserves.keeps.readbuf]; exact hroom) hnet₁
      have hboth := hserves.trans hrest
      rw [Nat.add_comm] at hboth
      exact ⟨c', hboth⟩
  | @packets chunks events turns qs ps hne hflat h ih =>
      obtain ⟨c₁, hnet₁, hserves⟩ := serves_packets hready
        (fun q hq => hproper q (List.mem_append_left ps hq))
        (fun q hq => hroom q (List.mem_append_left ps hq)) hnet hne hflat
      obtain ⟨c', hrest⟩ := ih (hready.of_keeps hserves.keeps)
        (fun q hq => hproper q (List.mem_append_right qs hq))
        (fun q hq => by rw [hserves.keeps.readbuf]; exact hroom q (List.mem_append_right qs hq)) hnet₁
      exact ⟨c', hserves.trans hrest⟩

end Session

/-- A client with a handler for `a/#`. -/
def listener (net : List SockEvent) : MqttClient Nat where
  nextPacketid := 1
  buf := List.replicate 64 0
  readbuf := List.replicate 64 0
  keepAliveInterval := 0
  pingOutstanding := false
  isconnected := true
  messageHandlers := [⟨⟨⟨[97, 47, 35], by decide⟩, by decide⟩, some 1⟩]
  defaultMessageHandler := none
  net := net
  sends := []
  timers := []
  wire := []
  calls := []
  cycles := []
  stale := 0

theorem ready_listener (net : List SockEvent) : Ready (listener net) where
  valid := by
    simp only [listener, List.mem_singleton, forall_eq]
    decide
  sends := rfl
  buf := by
    show 4 ≤ (List.replicate 64 (0 : UInt8)).length
    decide

theorem serves_of_arrives_listener :
    ∃ c', Serves (listener (pieces [[50, 8, 0], [3, 97, 47, 98, 0, 7, 1]] [.timeout, .data [80, 2, 0, 5]]))
      c' 3 [.publish 0 1 0 7 [97, 47, 98] [1], .pubrec 5] :=
  serves_of_arrives (ready_listener _)
    (.packets _ [_] (by decide) (by decide)
      (.silent (.packets [_] [_] (by decide) (by decide) (.done []))))
    (by decide) (by decide)

end EzIot.Mqtt
