import EzIot.Mqtt.Publish

/-! # Connect packets

`MQTTConnectClient.c` and `MQTTConnectServer.c`: the connect packet with its flags, will,
user name and password, its acknowledgement, and the packets without a body.
-/

namespace EzIot.Mqtt

open CText

/-! ## The connect flags -/

structure MqttConnectFlags where
  cleansession : Nat
  will : Nat
  willQoS : Nat
  willRetain : Nat
  password : Nat
  username : Nat
deriving DecidableEq

/-- `MQTTConnectFlags.all`, of members that are cut to their widths. -/
def MqttConnectFlags.all (f : MqttConnectFlags) : UInt8 :=
  (f.cleansession % 2 * 2 + f.will % 2 * 4 + f.willQoS % 4 * 8 + f.willRetain % 2 * 32 +
    f.password % 2 * 64 + f.username % 2 * 128).toUInt8

def MqttConnectFlags.ofAll (b : UInt8) : MqttConnectFlags :=
  ⟨b.toNat / 2 % 2, b.toNat / 4 % 2, b.toNat / 8 % 4, b.toNat / 32 % 2, b.toNat / 64 % 2,
    b.toNat / 128 % 2⟩

theorem MqttConnectFlags.ofAll_all {f : MqttConnectFlags} (hclean : f.cleansession < 2)
    (hwill : f.will < 2) (hqos : f.willQoS < 4) (hretain : f.willRetain < 2)
    (hpassword : f.password < 2) (husername : f.username < 2) : ofAll f.all = f := by
  have hnat : f.all.toNat = f.cleansession * 2 + f.will * 4 + f.willQoS * 8 + f.willRetain * 32 +
      f.password * 64 + f.username * 128 := by
    unfold all
    rw [Nat.toUInt8, UInt8.toNat_ofNat']
    omega
  cases f
  simp only at hclean hwill hqos hretain hpassword husername hnat
  unfold ofAll
  rw [hnat, MqttConnectFlags.mk.injEq]
  omega

/-! ## Writing -/

structure MqttPacketWillOptions where
  topicName : MqttString
  message : MqttString
  retained : Nat
  qos : Nat
deriving DecidableEq

structure MqttPacketConnectData where
  mqttVersion : Nat
  clientID : MqttString
  keepAliveInterval : Nat
  cleansession : Nat
  willFlag : Nat
  will : MqttPacketWillOptions
  username : MqttString
  password : MqttString
deriving DecidableEq

/-- `MQTTPacket_connectData_initializer`. -/
def MqttPacketConnectData.initializer : MqttPacketConnectData where
  mqttVersion := 4
  clientID := .initializer
  keepAliveInterval := 60
  cleansession := 1
  willFlag := 0
  will := ⟨.initializer, .initializer, 0, 0⟩
  username := .initializer
  password := .initializer

/-- `s.cstring || s.lenstring.data`. -/
def MqttString.given (s : MqttString) : Bool := s.cstring.isSome || s.lenstring.data.isSome

def mqttSerializeConnectLength (o : MqttPacketConnectData) : Nat :=
  (if o.mqttVersion = 3 then 12 else if o.mqttVersion = 4 then 10 else 0) +
    (mqttStrlen o.clientID + 2) +
    (if o.willFlag ≠ 0 then mqttStrlen o.will.topicName + 2 + mqttStrlen o.will.message + 2 else 0) +
    (if o.username.given then mqttStrlen o.username + 2 else 0) +
    (if o.password.given then mqttStrlen o.password + 2 else 0)

/-- The flags that `MQTTSerialize_connect` sends. -/
def connectFlags (o : MqttPacketConnectData) : MqttConnectFlags where
  cleansession := o.cleansession
  will := if o.willFlag ≠ 0 then 1 else 0
  willQoS := if o.willFlag ≠ 0 then o.will.qos else 0
  willRetain := if o.willFlag ≠ 0 then o.will.retained else 0
  password := if o.password.given then 1 else 0
  username := if o.username.given then 1 else 0

/-- The name and the number of the version. -/
def writeVersion (w : Writer) (o : MqttPacketConnectData) : Option Writer :=
  if o.mqttVersion = 4 then do
    let w ← writeCString w (.lit "MQTT")
    writeChar w 4
  else do
    let w ← writeCString w (.lit "MQIsdp")
    writeChar w 3

def writeWill (w : Writer) (o : MqttPacketConnectData) : Option Writer :=
  if o.willFlag ≠ 0 then do
    let w ← writeMqttString w o.will.topicName
    writeMqttString w o.will.message
  else some w

/-- A user name or a password. -/
def writeGiven (w : Writer) (s : MqttString) : Option Writer :=
  if s.given then writeMqttString w s else some w

def mqttSerializeConnect (buf : Bytes) (o : MqttPacketConnectData) : Option (Int × Bytes) :=
  let len := mqttSerializeConnectLength o
  if mqttPacketLen len > buf.length then some (bufferTooShort, buf)
  else do
    let w ← writeHead (.start buf) ⟨MsgType.connect.code, 0, 0, 0⟩ len
    let w ← writeVersion w o
    let w ← writeChar w (connectFlags o).all
    let w ← writeInt w o.keepAliveInterval
    let w ← writeMqttString w o.clientID
    let w ← writeWill w o
    let w ← writeGiven w o.username
    let w ← writeGiven w o.password
    pure (finish w)

def mqttSerializeZero (buf : Bytes) (packettype : MsgType) : Option (Int × Bytes) :=
  if buf.length < 2 then some (bufferTooShort, buf)
  else do
    let w ← writeHead (.start buf) ⟨packettype.code, 0, 0, 0⟩ 0
    pure (finish w)

def mqttSerializeDisconnect (buf : Bytes) : Option (Int × Bytes) :=
  mqttSerializeZero buf .disconnect

def mqttSerializePingreq (buf : Bytes) : Option (Int × Bytes) := mqttSerializeZero buf .pingreq

/-- `MQTTSerialize_connack`, which asks for two bytes and writes four. -/
def mqttSerializeConnack (buf : Bytes) (connackRc : UInt8) (sessionPresent : Nat) :
    Option (Int × Bytes) :=
  if buf.length < 2 then some (bufferTooShort, buf)
  else do
    let w ← writeHead (.start buf) ⟨MsgType.connack.code, 0, 0, 0⟩ 2
    let w ← writeChar w (sessionPresent % 2 * 128).toUInt8
    let w ← writeChar w connackRc
    pure (finish w)

/-! ## Reading -/

/-- `MQTTPacket_checkVersion`: as many bytes of the name as there are are compared. -/
def mqttPacketCheckVersion (protocol : MqttString) (version : UInt8) : Option Bool :=
  let compare (name : Bytes) : Option Bool := do
    let n := min name.length protocol.lenstring.len
    let data ← copied protocol.lenstring.data n
    pure (data == name.take n)
  if version = 3 then compare (ascii "MQIsdp")
  else if version = 4 then compare (ascii "MQTT")
  else some false

/-- A text that the flags announce, for which at least three bytes have to be left. -/
def readGiven (s : MqttString) (c : Cursor) : Option (Bool × MqttString × Cursor) :=
  if c.left < 3 then some (false, s, c) else readMqttLenString s c

/-- The end of `MQTTDeserialize_connect`: the user name and the password. -/
def readUserPassword (data : MqttPacketConnectData) (flags : MqttConnectFlags) (c : Cursor) :
    Option (Int × MqttPacketConnectData) :=
  if flags.username ≠ 0 then do
    let (ok, username, c) ← readGiven data.username c
    let data := { data with username := username }
    if !ok then pure (0, data)
    else if flags.password ≠ 0 then do
      let (ok, password, _) ← readGiven data.password c
      pure (if ok then 1 else 0, { data with password := password })
    else pure (1, data)
  else if flags.password ≠ 0 then some (0, data)
  else some (1, data)

/-- The will in `MQTTDeserialize_connect`. -/
def readWill (data : MqttPacketConnectData) (flags : MqttConnectFlags) (c : Cursor) :
    Option (Bool × MqttPacketConnectData × Cursor) :=
  if flags.will ≠ 0 then do
    let will := { data.will with qos := flags.willQoS, retained := flags.willRetain }
    let (ok, topicName, c) ← readMqttLenString will.topicName c
    let will := { will with topicName := topicName }
    if !ok then pure (false, { data with will := will }, c)
    else do
      let (ok, message, c) ← readMqttLenString will.message c
      pure (ok, { data with will := { will with message := message } }, c)
  else pure (true, data, c)

/-- What `MQTTDeserialize_connect` reads of a version that it knows. -/
def readConnectFields (data : MqttPacketConnectData) (c : Cursor) :
    Option (Int × MqttPacketConnectData) := do
  let (all, c) ← readChar c
  let flags := MqttConnectFlags.ofAll all
  let (keepAliveInterval, c) ← readInt c
  let data := { data with
    cleansession := flags.cleansession, keepAliveInterval := keepAliveInterval }
  let (ok, clientID, c) ← readMqttLenString data.clientID c
  let data := { data with clientID := clientID }
  if !ok then pure (0, data)
  else do
    let (ok, data, c) ← readWill { data with willFlag := flags.will } flags c
    if !ok then pure (0, data)
    else readUserPassword data flags c

/-- `MQTTDeserialize_connect`, where the packet ends with the buffer. -/
def mqttDeserializeConnect (data : MqttPacketConnectData) (buf : Bytes) :
    Option (Int × MqttPacketConnectData) := do
  let (b, c) ← readChar ⟨buf, buf.length⟩
  if (MqttHeader.ofByte b).type ≠ MsgType.connect.code then pure (0, data)
  else do
    let (n, _) ← mqttPacketDecodeBuf c.rest
    let (ok, protocol, c) ← readMqttLenString .initializer ⟨c.rest.drop n, c.left - n⟩
    if !ok || c.left < 0 then pure (0, data)
    else do
      let (version, c) ← readChar c
      let known ← mqttPacketCheckVersion protocol version
      if known then readConnectFields data c else pure (0, data)

/-- `MQTTDeserialize_connack`: the code, `sessionPresent` and `connack_rc`. -/
def mqttDeserializeConnack (out : Nat × UInt8) (buf : Bytes) : Option (Int × Nat × UInt8) := do
  let (b, c) ← readChar ⟨buf, 0⟩
  if (MqttHeader.ofByte b).type ≠ MsgType.connack.code then pure (0, out)
  else do
    let (rc, c) ← readRemaining c.rest
    if c.left < 2 then pure (rc, out)
    else do
      let (flags, c) ← readChar c
      let (connackRc, _) ← readChar c
      pure (1, flags.toNat / 128, connackRc)

/-! ## The contents of a connect packet -/

/-- The versions with their names and numbers. -/
inductive Version
  | v31
  | v311
deriving DecidableEq

def Version.level : Version → Nat
  | v31 => 3
  | v311 => 4

def Version.name : Version → Bytes
  | v31 => ascii "MQIsdp"
  | v311 => ascii "MQTT"

structure Will where
  qos : Nat
  retained : Nat
  topic : Bytes
  message : Bytes
deriving DecidableEq

structure Connect where
  version : Version
  cleansession : Nat
  keepAlive : Nat
  clientID : Bytes
  will : Option Will
  username : Option Bytes
  password : Option Bytes
deriving DecidableEq

def Connect.flags (c : Connect) : MqttConnectFlags where
  cleansession := c.cleansession
  will := if c.will.isSome then 1 else 0
  willQoS := (c.will.map Will.qos).getD 0
  willRetain := (c.will.map Will.retained).getD 0
  password := if c.password.isSome then 1 else 0
  username := if c.username.isSome then 1 else 0

def willBytes : Option Will → Bytes
  | none => []
  | some w => textBytes w.topic ++ textBytes w.message

def optBytes : Option Bytes → Bytes
  | none => []
  | some t => textBytes t

@[simp] theorem optBytes_none : optBytes none = [] := rfl

@[simp] theorem optBytes_some (t : Bytes) : optBytes (some t) = textBytes t := rfl

/-- What comes behind the name and the number of the version. -/
def Connect.fields (c : Connect) : Bytes :=
  c.flags.all :: (intBytes c.keepAlive ++ (textBytes c.clientID ++ (willBytes c.will ++
    (optBytes c.username ++ optBytes c.password))))

def Connect.body (c : Connect) : Bytes :=
  textBytes c.version.name ++ (c.version.level.toUInt8 :: c.fields)

def MqttString.HoldsOpt (s : MqttString) : Option Bytes → Prop
  | none => s.given = false
  | some t => s.given = true ∧ s.Holds t

/-- The will of the options. -/
def MqttPacketConnectData.HoldsWill (d : MqttPacketConnectData) : Option Will → Prop
  | none => d.willFlag = 0
  | some w => d.willFlag ≠ 0 ∧ d.will.qos = w.qos ∧ d.will.retained = w.retained ∧
      d.will.topicName.Holds w.topic ∧ d.will.message.Holds w.message

/-- The options of a connection, but for the version. -/
structure MqttPacketConnectData.Holds (d : MqttPacketConnectData) (c : Connect) : Prop where
  cleansession : d.cleansession = c.cleansession
  keepAlive : d.keepAliveInterval = c.keepAlive
  clientID : d.clientID.Holds c.clientID
  will : d.HoldsWill c.will
  username : d.username.HoldsOpt c.username
  password : d.password.HoldsOpt c.password

section Writing

variable {d : MqttPacketConnectData} {c : Connect}

theorem connectFlags_of_holds (h : d.Holds c) : connectFlags d = c.flags := by
  have hwill := h.will
  have husername := h.username
  have hpassword := h.password
  unfold connectFlags Connect.flags
  rw [h.cleansession]
  congr 1
  · cases hw : c.will <;> simp_all [MqttPacketConnectData.HoldsWill]
  · cases hw : c.will <;> simp_all [MqttPacketConnectData.HoldsWill]
  · cases hw : c.will <;> simp_all [MqttPacketConnectData.HoldsWill]
  · cases hp : c.password <;> simp_all [MqttString.HoldsOpt]
  · cases hu : c.username <;> simp_all [MqttString.HoldsOpt]

theorem MqttString.HoldsOpt.strlen {s : MqttString} {t : Option Bytes} (h : s.HoldsOpt t) :
    (if s.given then mqttStrlen s + 2 else 0) = (optBytes t).length := by
  cases t with
  | none =>
      have hnot : s.given = false := h
      simp [hnot, optBytes]
  | some t =>
      obtain ⟨hgiven, hholds⟩ := h
      simp [hgiven, optBytes, hholds.strlen, Nat.add_comm]

theorem MqttPacketConnectData.HoldsWill.strlen {w : Option Will} (h : d.HoldsWill w) :
    (if d.willFlag ≠ 0 then mqttStrlen d.will.topicName + 2 + mqttStrlen d.will.message + 2
      else 0) = (willBytes w).length := by
  cases w with
  | none =>
      have hnot : d.willFlag = 0 := h
      simp [hnot, willBytes]
  | some w =>
      obtain ⟨hflag, -, -, htopic, hmessage⟩ := h
      simp only [ne_eq, hflag, not_false_eq_true, if_true, htopic.strlen, hmessage.strlen,
        willBytes, List.length_append, length_textBytes]
      omega

/-- The length that is computed beforehand is the one that is written. -/
theorem mqttSerializeConnectLength_of_holds (hversion : d.mqttVersion = c.version.level)
    (h : d.Holds c) : mqttSerializeConnectLength d = c.body.length := by
  have hname : 2 + c.version.name.length + 4 =
      if c.version.level = 3 then 12 else if c.version.level = 4 then 10 else 0 := by
    cases c.version <;> rfl
  unfold mqttSerializeConnectLength
  rw [h.will.strlen, h.username.strlen, h.password.strlen, h.clientID.strlen, hversion, ← hname]
  simp only [Connect.body, Connect.fields, List.length_append, List.length_cons, length_textBytes,
    length_intBytes]
  omega

theorem writeGiven_bind {α : Type} {s : MqttString} {t : Option Bytes} (h : s.HoldsOpt t)
    (w : Writer) (a : Bytes) (k : Writer → Option α) :
    (w.put a >>= fun w => writeGiven w s >>= k) = w.put (a ++ optBytes t) >>= k := by
  unfold writeGiven
  cases t with
  | none =>
      have hnot : s.given = false := h
      simp [hnot, optBytes]
  | some t =>
      obtain ⟨hgiven, hholds⟩ := h
      simp only [hgiven, if_true, writeMqttString_eq hholds, Writer.put_bind, optBytes]

theorem writeWill_bind {α : Type} {will : Option Will} (h : d.HoldsWill will) (w : Writer)
    (a : Bytes) (k : Writer → Option α) :
    (w.put a >>= fun w => writeWill w d >>= k) = w.put (a ++ willBytes will) >>= k := by
  unfold writeWill
  cases will with
  | none =>
      have hnot : d.willFlag = 0 := h
      simp [hnot, willBytes]
  | some will =>
      obtain ⟨hflag, -, -, htopic, hmessage⟩ := h
      simp only [ne_eq, hflag, not_false_eq_true, if_true, writeMqttString_eq htopic,
        writeMqttString_eq hmessage, bind_assoc, Writer.put_bind, willBytes]

theorem writeVersion_eq (hversion : d.mqttVersion = c.version.level) (w : Writer) :
    writeVersion w d = w.put (textBytes c.version.name ++ [c.version.level.toUInt8]) := by
  have hname : (CString.lit "MQTT").val = ascii "MQTT" ∧
      (CString.lit "MQIsdp").val = ascii "MQIsdp" := by decide
  simp only [writeVersion, writeCString_eq, hname, hversion, writeChar]
  cases c.version
  · exact w.put_put ..
  · exact w.put_put ..

theorem mqttSerializeConnect_eq {buf : Bytes} (hversion : d.mqttVersion = c.version.level)
    (h : d.Holds c) (hsmall : c.body.length < 268435456) :
    mqttSerializeConnect buf d =
      if mqttPacketLen c.body.length > buf.length then some (bufferTooShort, buf)
      else some (written buf (frame ⟨MsgType.connect.code, 0, 0, 0⟩ c.body)) := by
  unfold mqttSerializeConnect
  simp only [mqttSerializeConnectLength_of_holds hversion h]
  split
  next => rfl
  next hroom =>
    have hfits := length_frame_le ⟨MsgType.connect.code, 0, 0, 0⟩ hsmall
    rw [← start_put_finish (by omega), ← writeHead_bind]
    congr 1
    funext w
    simp only [writeVersion_eq hversion, writeChar, writeInt_eq, writeMqttString_eq h.clientID,
      Writer.put_bind]
    rw [writeWill_bind h.will, writeGiven_bind h.username, writeGiven_bind h.password, h.keepAlive,
      connectFlags_of_holds h]
    simp only [Connect.body, Connect.fields, List.append_assoc, List.cons_append, List.nil_append]

end Writing

/-! ## What the server reads -/

def Will.Fits (w : Will) : Prop :=
  w.qos < 4 ∧ w.retained < 2 ∧ w.topic.length < 65536 ∧ w.message.length < 65536

/-- The members have room in their fields. -/
structure Connect.Fits (c : Connect) : Prop where
  cleansession : c.cleansession < 2
  keepAlive : c.keepAlive < 65536
  clientID : c.clientID.length < 65536
  will : ∀ w ∈ c.will, w.Fits
  username : ∀ t ∈ c.username, t.length < 65536
  password : ∀ t ∈ c.password, t.length < 65536

/-- The server takes the user name and the password only in this order, and only if three
bytes are there to read. -/
structure Connect.Readable (c : Connect) (rest : Bytes) : Prop where
  order : c.password.isSome → c.username.isSome
  username : ∀ t ∈ c.username, 3 ≤ (textBytes t ++ (optBytes c.password ++ rest)).length
  password : ∀ t ∈ c.password, 3 ≤ (textBytes t ++ rest).length

def Cursor.whole (bs : Bytes) : Cursor := ⟨bs, bs.length⟩

theorem readMqttLenString_whole {t : Bytes} (h : t.length < 65536) (s : MqttString) (rest : Bytes) :
    readMqttLenString s (.whole (textBytes t ++ rest)) =
      some (true, ⟨none, t.length, some (t ++ rest)⟩, .whole rest) := by
  rw [readMqttLenString_eq_some_iff (Int.le_refl _)]
  refine ⟨t, h, rfl, ?_, Int.natCast_nonneg _, rfl⟩
  simp only [Cursor.whole, List.length_append, length_textBytes]
  omega

theorem readInt_whole {n : Nat} (h : n < 65536) (rest : Bytes) :
    readInt (.whole (intBytes n ++ rest)) = some (n, .whole rest) := by
  rw [readInt_eq_some_iff]
  refine ⟨h, rfl, ?_⟩
  simp only [Cursor.whole, List.length_append, length_intBytes]
  omega

theorem readChar_whole (b : UInt8) (rest : Bytes) :
    readChar (.whole (b :: rest)) = some (b, .whole rest) := by
  simp only [readChar, Cursor.whole, List.length_cons, Option.some.injEq, Prod.mk.injEq,
    Cursor.mk.injEq, true_and]
  omega

section Server

variable {c : Connect}

theorem Connect.ofAll_flags (h : c.Fits) : MqttConnectFlags.ofAll c.flags.all = c.flags := by
  have hwill := h.will
  refine MqttConnectFlags.ofAll_all h.cleansession ?_ ?_ ?_ ?_ ?_
  · unfold Connect.flags
    simp only
    split <;> decide
  · cases hw : c.will with
    | none => simp [Connect.flags, hw]
    | some w => simpa [Connect.flags, hw] using (hwill w hw).1
  · cases hw : c.will with
    | none => simp [Connect.flags, hw]
    | some w => simpa [Connect.flags, hw] using (hwill w hw).2.1
  · unfold Connect.flags
    simp only
    split <;> decide
  · unfold Connect.flags
    simp only
    split <;> decide

theorem Connect.readable_iff (rest : Bytes) : c.Readable rest ↔
    (c.password.isSome → c.username.isSome) ∧
      (∀ t ∈ c.username, 3 ≤ (textBytes t ++ (optBytes c.password ++ rest)).length) ∧
        ∀ t ∈ c.password, 3 ≤ (textBytes t ++ rest).length :=
  ⟨fun h => ⟨h.order, h.username, h.password⟩, fun h => ⟨h.1, h.2.1, h.2.2⟩⟩

theorem readGiven_whole {t : Bytes} (ht : t.length < 65536) (s : MqttString) (rest : Bytes) :
    readGiven s (.whole (textBytes t ++ rest)) =
      some (if 3 ≤ (textBytes t ++ rest).length then
        (true, ⟨none, t.length, some (t ++ rest)⟩, .whole rest)
      else (false, s, .whole (textBytes t ++ rest))) := by
  unfold readGiven
  by_cases hroom : 3 ≤ (textBytes t ++ rest).length
  · have hleft : ¬ (Cursor.whole (textBytes t ++ rest)).left < 3 := by
      simp only [Cursor.whole]
      omega
    rw [if_neg hleft, if_pos hroom, readMqttLenString_whole ht]
  · have hleft : (Cursor.whole (textBytes t ++ rest)).left < 3 := by
      simp only [Cursor.whole]
      omega
    rw [if_pos hleft, if_neg hroom]

theorem readUserPassword_spec (h : c.Fits) {d : MqttPacketConnectData}
    (husername : d.username.given = false) (hpassword : d.password.given = false) (rest : Bytes) :
    ∃ code username password, readUserPassword d c.flags
        (.whole (optBytes c.username ++ (optBytes c.password ++ rest))) =
          some (code, { d with username := username, password := password }) ∧
      (code = 1 ↔ c.Readable rest) ∧
      (code = 1 → username.HoldsOpt c.username ∧ password.HoldsOpt c.password) := by
  have hflags : c.flags.username = (if c.username.isSome then 1 else 0) ∧
      c.flags.password = if c.password.isSome then 1 else 0 := ⟨rfl, rfl⟩
  have hu := h.username
  have hp := h.password
  rw [Connect.readable_iff]
  unfold readUserPassword
  rw [hflags.1, hflags.2]
  cases hcu : c.username with
  | none =>
      cases hcp : c.password with
      | none => exact ⟨1, d.username, d.password, rfl, by simp, fun _ => ⟨husername, hpassword⟩⟩
      | some p => exact ⟨0, d.username, d.password, rfl, by simp, by simp⟩
  | some u =>
      have hread := readGiven_whole (hu u hcu) d.username (optBytes c.password ++ rest)
      by_cases hroom : 3 ≤ (textBytes u ++ (optBytes c.password ++ rest)).length
      · rw [if_pos hroom] at hread
        cases hcp : c.password with
        | none =>
            rw [hcp] at hroom
            simp only [hcp, optBytes_none, List.nil_append] at hread
            refine ⟨1, ⟨none, u.length, some (u ++ rest)⟩, d.password, ?_, ?_, ?_⟩
            · simp [hread]
            · exact ⟨fun _ => ⟨by simp, fun t ht => Option.some.inj ht ▸ hroom, by simp⟩,
                fun _ => rfl⟩
            · exact fun _ => ⟨⟨rfl, MqttString.holds_lenstring u _⟩, hpassword⟩
        | some p =>
            have hread' := readGiven_whole (hp p hcp) d.password rest
            rw [hcp] at hroom
            simp only [hcp, optBytes_some] at hread
            by_cases hroom' : 3 ≤ (textBytes p ++ rest).length
            · rw [if_pos hroom'] at hread'
              refine ⟨1, ⟨none, u.length, some (u ++ (textBytes p ++ rest))⟩,
                ⟨none, p.length, some (p ++ rest)⟩, ?_, ?_, ?_⟩
              · simp [hread, hread']
              · exact ⟨fun _ => ⟨by simp, fun t ht => Option.some.inj ht ▸ hroom,
                  fun t ht => Option.some.inj ht ▸ hroom'⟩, fun _ => rfl⟩
              · exact fun _ => ⟨⟨rfl, MqttString.holds_lenstring u _⟩,
                  ⟨rfl, MqttString.holds_lenstring p _⟩⟩
            · rw [if_neg hroom'] at hread'
              refine ⟨0, ⟨none, u.length, some (u ++ (textBytes p ++ rest))⟩, d.password,
                ?_, ?_, ?_⟩
              · simp [hread, hread']
              · exact ⟨fun h0 => absurd h0 (by decide), fun hr => absurd (hr.2.2 p rfl) hroom'⟩
              · simp
      · rw [if_neg hroom] at hread
        refine ⟨0, d.username, d.password, ?_, ?_, ?_⟩
        · simp [hread]
        · exact ⟨fun h0 => absurd h0 (by decide), fun hr => absurd (hr.2.1 u rfl) hroom⟩
        · simp

theorem readWill_spec (h : c.Fits) {d : MqttPacketConnectData} (hflag : d.willFlag = c.flags.will)
    (rest : Bytes) : ∃ will, readWill d c.flags (.whole (willBytes c.will ++ rest)) =
        some (true, { d with will := will }, .whole rest) ∧
      MqttPacketConnectData.HoldsWill { d with will := will } c.will := by
  cases hw : c.will with
  | none =>
      have hzero : c.flags.will = 0 := by simp [Connect.flags, hw]
      refine ⟨d.will, by simp [readWill, hzero, willBytes], ?_⟩
      exact hflag.trans hzero
  | some w =>
      obtain ⟨hqos, hretained, htopic, hmessage⟩ := h.will w hw
      have hone : c.flags.will = 1 := by simp [Connect.flags, hw]
      have hmembers : c.flags.willQoS = w.qos ∧ c.flags.willRetain = w.retained := by
        simp [Connect.flags, hw]
      have hread := readMqttLenString_whole htopic d.will.topicName (textBytes w.message ++ rest)
      have hread' := readMqttLenString_whole hmessage d.will.message rest
      refine ⟨⟨⟨none, w.topic.length, some (w.topic ++ (textBytes w.message ++ rest))⟩,
        ⟨none, w.message.length, some (w.message ++ rest)⟩, w.retained, w.qos⟩, ?_, ?_⟩
      · simp [readWill, hone, hmembers, willBytes, hread, hread']
      · refine ⟨?_, rfl, rfl, MqttString.holds_lenstring _ _, MqttString.holds_lenstring _ _⟩
        show d.willFlag ≠ 0
        omega

theorem readConnectFields_spec (h : c.Fits) {d : MqttPacketConnectData}
    (husername : d.username.given = false) (hpassword : d.password.given = false) (rest : Bytes) :
    ∃ code d', readConnectFields d (.whole (c.fields ++ rest)) = some (code, d') ∧
      (code = 1 ↔ c.Readable rest) ∧ (code = 1 → d'.Holds c) := by
  have hkeep := readInt_whole h.keepAlive (textBytes c.clientID ++ (willBytes c.will ++
    (optBytes c.username ++ (optBytes c.password ++ rest))))
  have hclient := readMqttLenString_whole h.clientID d.clientID (willBytes c.will ++
    (optBytes c.username ++ (optBytes c.password ++ rest)))
  obtain ⟨will, hwill, hholds⟩ := readWill_spec h (d := { d with
    cleansession := c.flags.cleansession, keepAliveInterval := c.keepAlive, willFlag := c.flags.will
    clientID := ⟨none, c.clientID.length, some (c.clientID ++ (willBytes c.will ++
      (optBytes c.username ++ (optBytes c.password ++ rest))))⟩ }) rfl
    (optBytes c.username ++ (optBytes c.password ++ rest))
  obtain ⟨code, username, password, hend, hcode, htexts⟩ := readUserPassword_spec h (d := { d with
    cleansession := c.flags.cleansession, keepAliveInterval := c.keepAlive, willFlag := c.flags.will
    clientID := ⟨none, c.clientID.length, some (c.clientID ++ (willBytes c.will ++
      (optBytes c.username ++ (optBytes c.password ++ rest))))⟩, will := will })
    husername hpassword rest
  have hread : readConnectFields d (.whole (c.fields ++ rest)) = some (code, { d with
      cleansession := c.flags.cleansession, keepAliveInterval := c.keepAlive
      willFlag := c.flags.will
      clientID := ⟨none, c.clientID.length, some (c.clientID ++ (willBytes c.will ++
        (optBytes c.username ++ (optBytes c.password ++ rest))))⟩
      will := will, username := username, password := password }) := by
    simp only [readConnectFields, Connect.fields, List.cons_append, List.append_assoc,
      readChar_whole, Connect.ofAll_flags h, hkeep, hclient, Option.bind_eq_bind, Option.bind_some]
    simp [hwill, hend]
  refine ⟨code, _, hread, hcode, fun h1 => ?_⟩
  exact {
    cleansession := rfl
    keepAlive := rfl
    clientID := MqttString.holds_lenstring _ _
    will := hholds
    username := (htexts h1).1
    password := (htexts h1).2 }

theorem mqttPacketCheckVersion_name (v : Version) (rest : Bytes) :
    mqttPacketCheckVersion ⟨none, v.name.length, some (v.name ++ rest)⟩ v.level.toUInt8 =
      some true := by
  cases v
  · rfl
  · rfl

theorem mqttDeserializeConnect_frame (h : c.Fits) (hsmall : c.body.length < 268435456)
    {d : MqttPacketConnectData} (husername : d.username.given = false)
    (hpassword : d.password.given = false) (rest : Bytes) :
    ∃ code d', mqttDeserializeConnect d (frame ⟨MsgType.connect.code, 0, 0, 0⟩ c.body ++ rest) =
        some (code, d') ∧
      (code = 1 ↔ c.Readable rest) ∧ (code = 1 → d'.Holds c) := by
  have hname : c.version.name.length < 65536 := by cases c.version <;> decide
  have htype : (MqttHeader.ofByte (MqttHeader.byte ⟨MsgType.connect.code, 0, 0, 0⟩)).type =
      MsgType.connect.code := by decide
  have hlength := mqttPacketDecodeBuf_of_field (.encode hsmall) (c.body ++ rest)
  have hread := readMqttLenString_whole hname .initializer
    (c.version.level.toUInt8 :: (c.fields ++ rest))
  obtain ⟨code, d', hfields, hcode, hholds⟩ := readConnectFields_spec h husername hpassword rest
  refine ⟨code, d', ?_, hcode, hholds⟩
  have hbody : c.body ++ rest =
      textBytes c.version.name ++ (c.version.level.toUInt8 :: (c.fields ++ rest)) := by
    simp [Connect.body]
  have hstart (n : Int) (hn : n = (frame ⟨MsgType.connect.code, 0, 0, 0⟩ c.body ++ rest).length) :
      (⟨c.body ++ rest, n - 1 - (mqttPacketEncode c.body.length).length⟩ : Cursor) =
        .whole (c.body ++ rest) := by
    simp only [Cursor.whole, Cursor.mk.injEq, true_and, hn, List.length_append, length_frame]
    omega
  unfold mqttDeserializeConnect
  simp only [frame, List.cons_append, List.append_assoc, readChar_cons, Option.bind_eq_bind,
    Option.bind_some, htype, ne_eq, not_true_eq_false, if_false, hlength, List.drop_left]
  rw [hstart _ (by simp [frame]), hbody, hread]
  have hpos : ¬ (Cursor.whole (c.version.level.toUInt8 :: (c.fields ++ rest))).left < 0 := by
    simp only [Cursor.whole]
    omega
  simp only [hpos, decide_false, Bool.not_true, Bool.or_false, Bool.false_eq_true, if_false,
    Option.bind_some, readChar_whole, mqttPacketCheckVersion_name, if_true, hfields]

end Server

/-! ## The round trips -/

theorem length_willBytes_le {will : Option Will} (h : ∀ w ∈ will, w.Fits) :
    (willBytes will).length ≤ 131074 := by
  cases will with
  | none => exact Nat.zero_le _
  | some w =>
      obtain ⟨-, -, htopic, hmessage⟩ := h w rfl
      simp only [willBytes, List.length_append, length_textBytes]
      omega

theorem length_optBytes_le {t : Option Bytes} (h : ∀ s ∈ t, s.length < 65536) :
    (optBytes t).length ≤ 65537 := by
  cases t with
  | none => exact Nat.zero_le _
  | some t =>
      have hlt := h t rfl
      rw [optBytes_some, length_textBytes]
      omega

theorem Connect.Fits.small {c : Connect} (h : c.Fits) : c.body.length < 268435456 := by
  have hname : c.version.name.length ≤ 6 := by cases c.version <;> decide
  have hwill := length_willBytes_le h.will
  have husername := length_optBytes_le h.username
  have hpassword := length_optBytes_le h.password
  have hclient := h.clientID
  simp only [Connect.body, Connect.fields, List.length_append, List.length_cons, length_textBytes,
    length_intBytes]
  omega

/-- A serializer that asks for less than it writes: in between it leaves the buffer. -/
theorem put_undersized (buf packet : Bytes) (need : Nat) :
    (if buf.length < need then some (bufferTooShort, buf)
      else do let w ← (Writer.start buf).put packet; pure (finish w)) =
      if buf.length < need then some (bufferTooShort, buf)
      else if buf.length < packet.length then none
      else some (written buf packet) := by
  split
  next => rfl
  next =>
    split
    next hshort =>
      rw [Writer.put_eq_none_iff.mpr (by simpa [Writer.start] using hshort)]
      rfl
    next hroom => rw [start_put_finish (by omega)]

theorem mqttSerializeZero_eq (buf : Bytes) (packettype : MsgType) :
    mqttSerializeZero buf packettype =
      if buf.length < 2 then some (bufferTooShort, buf)
      else some (written buf (frame ⟨packettype.code, 0, 0, 0⟩ [])) := by
  unfold mqttSerializeZero
  split
  next => rfl
  next hroom =>
    have hlen : (frame ⟨packettype.code, 0, 0, 0⟩ []).length = 2 := rfl
    rw [← start_put_finish (by omega)]
    unfold writeHead writeChar
    rw [bind_assoc, Writer.put_bind]
    rfl

theorem mqttSerializeConnack_eq (buf : Bytes) (connackRc : UInt8) (sessionPresent : Nat) :
    mqttSerializeConnack buf connackRc sessionPresent =
      if buf.length < 2 then some (bufferTooShort, buf)
      else if buf.length < 4 then none
      else some (written buf (frame ⟨MsgType.connack.code, 0, 0, 0⟩
        [(sessionPresent % 2 * 128).toUInt8, connackRc])) := by
  have hlen : (frame ⟨MsgType.connack.code, 0, 0, 0⟩
      [(sessionPresent % 2 * 128).toUInt8, connackRc]).length = 4 := by
    simp [length_frame, length_mqttPacketEncode]
  have hput := put_undersized buf (frame ⟨MsgType.connack.code, 0, 0, 0⟩
    [(sessionPresent % 2 * 128).toUInt8, connackRc]) 2
  rw [hlen, ← writeHead_bind] at hput
  rw [← hput]
  unfold mqttSerializeConnack
  congr 2
  funext w
  exact Writer.put_bind ..

theorem mqttDeserializeConnack_frame {sessionPresent : Nat} (h : sessionPresent < 2)
    (connackRc : UInt8) (out : Nat × UInt8) (rest : Bytes) :
    mqttDeserializeConnack out (frame ⟨MsgType.connack.code, 0, 0, 0⟩
      [(sessionPresent % 2 * 128).toUInt8, connackRc] ++ rest) =
        some (1, sessionPresent, connackRc) := by
  have hflag : ((sessionPresent % 2 * 128).toUInt8).toNat / 128 = sessionPresent := by
    rw [Nat.toUInt8, UInt8.toNat_ofNat']
    omega
  have hfield := LengthField.encode (n := 2) (by decide)
  rw [frame, List.cons_append, List.append_assoc]
  simp only [mqttDeserializeConnack, readChar_cons, Option.bind_eq_bind, Option.bind_some,
    List.length_cons, List.length_nil, readRemaining_of_field hfield, List.cons_append,
    List.nil_append, hflag]
  rfl

end EzIot.Mqtt
