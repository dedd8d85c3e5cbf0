import EzIot.Mqtt.Net
import EzIot.Mqtt.Subscribe
import EzIot.Mqtt.Topic

/-! # The client

`MQTTClient.c`: the state of the client together with what the network and the clock will
answer, one cycle of it, and the calls that wait for an answer. A call has no result where
it leaves one of the client's buffers.
-/

namespace EzIot.Mqtt

open CText

/-- `FAILURE`, `SUCCESS` and `BUFFER_OVERFLOW`. -/
def failure : Int := -1
def success : Int := 0
def bufferOverflow : Int := -2

/-- `MQTTMessage` of a publish packet that was read. -/
structure MqttMessage where
  qos : Nat
  retained : Nat
  dup : Nat
  id : Nat
  payload : Option Bytes
  payloadlen : Int
deriving DecidableEq

structure MqttClient (H : Type) where
  nextPacketid : Nat
  buf : Bytes
  readbuf : Bytes
  keepAliveInterval : Nat
  pingOutstanding : Bool
  isconnected : Bool
  messageHandlers : List (MessageHandler H)
  defaultMessageHandler : Option H
  /-- What will arrive. -/
  net : List SockEvent
  /-- What will become of the next writes. -/
  sends : List SendEvent
  /-- The answers of `TimerIsExpired`; after the last one the time is up. -/
  timers : List Bool
  /-- What was sent. -/
  wire : Bytes
  /-- The handlers that were called. -/
  calls : List (H × MqttString × MqttMessage)
  /-- What the calls of `cycle` returned. -/
  cycles : List Int
  /-- What a variable holds that was not written to. -/
  stale : Nat

section Client

variable {H : Type}

def timerIsExpired (c : MqttClient H) : Bool × MqttClient H :=
  match c.timers with
  | [] => (true, c)
  | expired :: timers => (expired, { c with timers := timers })

def getNextPacketId (c : MqttClient H) : Nat × MqttClient H :=
  let id := if c.nextPacketid = 65535 then 1 else c.nextPacketid + 1
  (id, { c with nextPacketid := id })

/-! ## Sending -/

def mqttwrite (data : Bytes) (c : MqttClient H) : Int × MqttClient H :=
  let (rc, sends) := mqttNetWrite data.length c.sends
  (rc, { c with sends := sends, wire := c.wire ++ data.take rc.toNat })

/-- The loop of `sendPacket` over what is left of the packet. -/
def sendLoop : Nat → Bytes → MqttClient H → Int × MqttClient H
  | 0, _, c => (failure, c)
  | fuel + 1, rest, c =>
      let (rc, c) := mqttwrite rest c
      if rc ≤ 0 then (failure, c)
      else if rest.drop rc.toNat = [] then (success, c)
      else
        let (expired, c) := timerIsExpired c
        if expired then (failure, c) else sendLoop fuel (rest.drop rc.toNat) c

/-- `sendPacket`: each turn sends at least one byte. -/
def sendPacket (length : Nat) (c : MqttClient H) : Int × MqttClient H :=
  sendLoop length (c.buf.take length) c

def serialize (f : Bytes → Option (Int × Bytes)) (c : MqttClient H) :
    Option (Int × MqttClient H) :=
  (f c.buf).map fun r => (r.1, { c with buf := r.2 })

/-- Serializing and, if that worked, sending. -/
def serializeAndSend (f : Bytes → Option (Int × Bytes)) (c : MqttClient H) :
    Option (Int × MqttClient H) := do
  let (len, c) ← serialize f c
  if len ≤ 0 then pure (failure, c) else pure (sendPacket len.toNat c)

/-- `keepalive`: a ping that cannot be serialized is no failure. -/
def keepalive (c : MqttClient H) : Option (Int × MqttClient H) :=
  if c.keepAliveInterval = 0 then some (success, c)
  else
    let (expired, c) := timerIsExpired c
    if expired then do
      let (len, c) ← serialize mqttSerializePingreq c
      if len ≤ 0 then pure (success, c)
      else
        let (rc, c) := sendPacket len.toNat c
        pure (rc, if rc = success then { c with pingOutstanding := true } else c)
    else some (success, c)

/-! ## Receiving -/

def readByte (net : List SockEvent) : Option (Option UInt8 × List SockEvent) :=
  match mqttNetRead 1 net with
  | (1, b :: _, net) => some (some b, net)
  | (_, _, net) => some (none, net)

def decodePacket (net : List SockEvent) : Option (Nat × Nat × List SockEvent) :=
  mqttPacketDecode readByte net

def mqttread (pos len : Nat) (c : MqttClient H) : Option (Int × MqttClient H) :=
  let (rc, got, net) := mqttNetRead len c.net
  (memcpy c.readbuf pos got).map fun readbuf => (rc, { c with readbuf := readbuf, net := net })

/-- The type of the packet in the read buffer. -/
def packetTypeOf (c : MqttClient H) : Int := (MqttHeader.ofByte (c.readbuf.headD 0)).type

/-- The rest of `readPacket`: `remLen` bytes behind the first `len` ones. -/
def readBody (len remLen : Nat) (c : MqttClient H) : Option (Int × MqttClient H) :=
  if 0 < remLen then do
    let (rc, c) ← mqttread len remLen c
    pure (if rc ≠ remLen then failure else packetTypeOf c, c)
  else some (packetTypeOf c, c)

/-- `readPacket`: the type of the packet that is in the read buffer afterwards. The result of
`decodePacket` is not looked at, and its length is written before it is compared. -/
def readPacket (c : MqttClient H) : Option (Int × MqttClient H) := do
  let (rc, c) ← mqttread 0 1 c
  if rc ≠ 1 then pure (rc, c)
  else do
    let (_, remLen, net) ← decodePacket c.net
    let readbuf ← memcpy c.readbuf 1 (mqttPacketEncode remLen)
    let c := { c with net := net, readbuf := readbuf }
    let len := 1 + (mqttPacketEncode remLen).length
    if remLen + len > c.readbuf.length then pure (bufferOverflow, c) else readBody len remLen c

/-- The arguments of `MQTTDeserialize_publish` in `cycle`. -/
def emptyPublish : PublishOut := ⟨0, 0, 0, 0, .initializer, none, 0⟩

/-- The message and the topic in `cycle`. -/
def messageOf (out : PublishOut) : MqttMessage :=
  ⟨out.qos, out.retained, out.dup, out.packetid, out.payload, out.payloadlen⟩

def deliver (out : PublishOut) (c : MqttClient H) : Option (MqttClient H) := do
  let (_, calls) ← deliverMessage c.messageHandlers c.defaultMessageHandler out.topicName
  pure { c with calls := c.calls ++ calls.map fun fp => (fp, out.topicName, messageOf out) }

/-- The acknowledgement of a message: for a quality of service that does not exist there is
nothing to send, which is a failure. -/
def acknowledge (out : PublishOut) (c : MqttClient H) : Option (Int × MqttClient H) :=
  if out.qos = 0 then some (success, c)
  else if out.qos = 1 then serializeAndSend (mqttSerializeAck · .puback 0 out.packetid) c
  else if out.qos = 2 then serializeAndSend (mqttSerializeAck · .pubrec 0 out.packetid) c
  else some (failure, c)

/-- `case PUBREC`. -/
def releasePublish (c : MqttClient H) : Option (Int × MqttClient H) := do
  let (rc, out) ← mqttDeserializeAck ⟨0, 0, c.stale⟩ c.readbuf
  if rc ≠ 1 then pure (failure, c)
  else do
    let (rc, c) ← serializeAndSend (mqttSerializeAck · .pubrel 0 out.packetid) c
    pure (if rc = success then success else failure, c)

/-- The end of `cycle`. -/
def cycleEnd (packetType : Nat) (c : MqttClient H) : Option (Int × MqttClient H) := do
  let (rc, c) ← keepalive c
  pure (if rc ≠ success then failure else packetType, c)

/-- The `switch` of `cycle`. -/
def cycleSwitch (packetType : Nat) (c : MqttClient H) : Option (Int × MqttClient H) :=
  if packetType = 0 then cycleEnd 0 c
  else if packetType = MsgType.connack.code ∨ packetType = MsgType.puback.code ∨
      packetType = MsgType.suback.code ∨ packetType = MsgType.pubcomp.code then
    cycleEnd packetType c
  else if packetType = MsgType.publish.code then do
    let (rc, out) ← mqttDeserializePublish emptyPublish c.readbuf
    if rc ≠ 1 then pure (packetType, c)
    else do
      let c ← deliver out c
      let (rc, c) ← acknowledge out c
      if rc = failure then pure (failure, c) else cycleEnd packetType c
  else if packetType = MsgType.pubrec.code then do
    let (rc, c) ← releasePublish c
    if rc = failure then pure (failure, c) else cycleEnd packetType c
  else if packetType = MsgType.pingresp.code then
    cycleEnd packetType { c with pingOutstanding := false }
  -- every other packet, and a packet that could not be read
  else some (packetType, c)

/-- `cycle`: the type of the packet goes through an `unsigned short`. -/
def cycle (c : MqttClient H) : Option (Int × MqttClient H) := do
  let (packetType, c) ← readPacket c
  let (rc, c) ← cycleSwitch (packetType % 65536).toNat c
  pure (rc, { c with cycles := c.cycles ++ [rc] })

def mqttYield (c : MqttClient H) : Option (Int × MqttClient H) := cycle c

/-! ## Waiting for an answer -/

/-- The loop of `waitfor`, which has returned `rc` so far. -/
def waitforLoop (packetType : MsgType) : Nat → Int → MqttClient H → Option (Int × MqttClient H)
  | 0, rc, c => some (rc, c)
  | fuel + 1, rc, c =>
      let (expired, c) := timerIsExpired c
      if expired then some (rc, c)
      else do
        let (rc, c) ← cycle c
        if rc ≠ packetType.code ∧ rc ≥ 0 then waitforLoop packetType fuel rc c else pure (rc, c)

def waitfor (packetType : MsgType) (c : MqttClient H) : Option (Int × MqttClient H) :=
  waitforLoop packetType (c.timers.length + 1) failure c

def mqttConnect (options : Option MqttPacketConnectData) (c : MqttClient H) :
    Option (Int × MqttClient H) :=
  if c.isconnected then some (failure, c)
  else do
    let options := options.getD .initializer
    let c := { c with keepAliveInterval := options.keepAliveInterval }
    let (rc, c) ← serializeAndSend (mqttSerializeConnect · options) c
    if rc ≠ success then pure (rc, c)
    else do
      let (rc, c) ← waitfor .connack c
      if rc = MsgType.connack.code then do
        let (ok, _, connackRc) ← mqttDeserializeConnack (0, 255) c.readbuf
        if ok ≠ 1 then pure (failure, c)
        else pure (connackRc.toNat, { c with isconnected := connackRc = 0 })
      else pure (failure, c)

/-- A `char` as an `int`: whether it has a sign depends on the platform. -/
def charToInt (charSigned : Bool) (b : UInt8) : Int :=
  if charSigned ∧ 128 ≤ b.toNat then b.toNat - 256 else b.toNat

/-- The loop of `MQTTSubscribe` over the handlers: one with this filter stays as it is, and
otherwise the first free one is taken. -/
def registerHandler (topicFilter : CString) (fp : Option H) :
    List (MessageHandler H) → Option (Bool × List (MessageHandler H))
  | [] => some (false, [])
  | h :: rest =>
      if h.topicFilter.val ≠ [] ∧ h.topicFilter.toCString = topicFilter then some (true, h :: rest)
      else if h.topicFilter.val = [] then
        if fits : topicFilter.val.length < 512 then
          some (true, ⟨⟨topicFilter, fits⟩, fp⟩ :: rest)
        else none
      else (registerHandler topicFilter fp rest).map fun r => (r.1, h :: r.2)

def mqttSubscribe (charSigned : Bool) (topicFilter : CString) (qos : Nat) (fp : Option H)
    (c : MqttClient H) : Option (Int × MqttClient H) :=
  if !c.isconnected then some (failure, c)
  else do
    let (id, c) := getNextPacketId c
    let (rc, c) ← serializeAndSend
      (mqttSerializeSubscribe · 0 id [(⟨some topicFilter, 0, none⟩, qos)]) c
    if rc ≠ success then pure (rc, c)
    else do
      let (rc, c) ← waitfor .suback c
      if rc = MsgType.suback.code then do
        let (ok, out) ← mqttDeserializeSuback 1 1 ⟨c.stale, []⟩ c.readbuf
        let granted := (out.granted.head?.map (charToInt charSigned)).getD (-1)
        let rc := if ok = 1 then granted else success
        if rc = 0x80 then pure (rc, c)
        else do
          let (found, messageHandlers) ← registerHandler topicFilter fp c.messageHandlers
          pure (if found then 0 else rc, { c with messageHandlers := messageHandlers })
      else pure (failure, c)

/-- `MQTTUnsubscribe`: the handler stays in the table. -/
def mqttUnsubscribe (topicFilter : CString) (c : MqttClient H) : Option (Int × MqttClient H) :=
  if !c.isconnected then some (failure, c)
  else do
    let (id, c) := getNextPacketId c
    let (rc, c) ← serializeAndSend
      (mqttSerializeUnsubscribe · 0 id [⟨some topicFilter, 0, none⟩]) c
    if rc ≠ success then pure (rc, c)
    else do
      let (rc, c) ← waitfor .unsuback c
      if rc = MsgType.unsuback.code then do
        let _ ← mqttDeserializeUnsuback c.stale c.readbuf
        pure (0, c)
      else pure (failure, c)

/-- The members of `MQTTMessage` that `MQTTPublish` reads. -/
structure PublishRequest where
  qos : Nat
  retained : Nat
  id : Nat
  payload : Bytes
deriving DecidableEq

/-- The loop of `MQTTPublish`: an acknowledgement of another message is passed over. -/
def acknowledged (packetTypeWait4 : MsgType) (id : Nat) :
    Nat → MqttClient H → Option (Int × MqttClient H)
  | 0, c => some (failure, c)
  | fuel + 1, c => do
      let (rc, c) ← waitfor packetTypeWait4 c
      if rc = packetTypeWait4.code then do
        let (ok, out) ← mqttDeserializeAck ⟨0, 0, c.stale⟩ c.readbuf
        if ok = 1 ∧ out.packetid = id then pure (success, c)
        else acknowledged packetTypeWait4 id fuel c
      else pure (rc, c)

/-- `MQTTPublish`: each turn of its loop asks the timer at least once. -/
def mqttPublish (topicName : CString) (m : PublishRequest) (c : MqttClient H) :
    Option (Int × MqttClient H) :=
  if !c.isconnected then some (failure, c)
  else do
    let (id, c) := if m.qos = 1 ∨ m.qos = 2 then getNextPacketId c else (m.id, c)
    let (rc, c) ← serializeAndSend
      (mqttSerializePublish · 0 m.qos m.retained id ⟨some topicName, 0, none⟩ m.payload) c
    if rc ≠ success then pure (rc, c)
    else if m.qos = 1 then acknowledged .puback id (c.timers.length + 1) c
    else if m.qos = 2 then acknowledged .pubcomp id (c.timers.length + 1) c
    else pure (success, c)

def mqttDisconnect (c : MqttClient H) : Option (Int × MqttClient H) :=
  if !c.isconnected then some (success, c)
  else do
    let (rc, c) ← serializeAndSend mqttSerializeDisconnect c
    pure (rc, { c with isconnected := false })

end Client

end EzIot.Mqtt
