import EzIot.Mqtt.Connect

/-! # Subscribe and unsubscribe packets

`MQTTSubscribeClient.c`, `MQTTSubscribeServer.c`, `MQTTUnsubscribeClient.c` and
`MQTTUnsubscribeServer.c`: lists of topic filters, and lists of the codes that answer
them. An array of the caller has `maxcount` members; writing behind it has no result.
-/

namespace EzIot.Mqtt

open CText

/-! ## Writing -/

def mqttSerializeSubscribeLength (topicFilters : List (MqttString × Nat)) : Nat :=
  topicFilters.foldl (fun len t => len + (2 + mqttStrlen t.1 + 1)) 2

/-- A filter and what is asked for. -/
def writeSubscription (w : Writer) (t : MqttString × Nat) : Option Writer := do
  let w ← writeMqttString w t.1
  writeChar w (t.2 % 256).toUInt8

def mqttSerializeSubscribe (buf : Bytes) (dup packetid : Nat)
    (topicFilters : List (MqttString × Nat)) : Option (Int × Bytes) :=
  let remLen := mqttSerializeSubscribeLength topicFilters
  if mqttPacketLen remLen > buf.length then some (bufferTooShort, buf)
  else do
    let w ← writeHead (.start buf) ⟨MsgType.subscribe.code, dup, 1, 0⟩ remLen
    let w ← writeInt w packetid
    let w ← topicFilters.foldlM writeSubscription w
    pure (finish w)

def mqttSerializeUnsubscribeLength (topicFilters : List MqttString) : Nat :=
  topicFilters.foldl (fun len t => len + (2 + mqttStrlen t)) 2

def mqttSerializeUnsubscribe (buf : Bytes) (dup packetid : Nat) (topicFilters : List MqttString) :
    Option (Int × Bytes) :=
  let remLen := mqttSerializeUnsubscribeLength topicFilters
  if mqttPacketLen remLen > buf.length then some (bufferTooShort, buf)
  else do
    let w ← writeHead (.start buf) ⟨MsgType.unsubscribe.code, dup, 1, 0⟩ remLen
    let w ← writeInt w packetid
    let w ← topicFilters.foldlM writeMqttString w
    pure (finish w)

/-- `MQTTSerialize_suback`, which asks for two bytes less than it writes. -/
def mqttSerializeSuback (buf : Bytes) (packetid : Nat) (grantedQoSs : List UInt8) :
    Option (Int × Bytes) :=
  if buf.length < 2 + grantedQoSs.length then some (bufferTooShort, buf)
  else do
    let w ← writeHead (.start buf) ⟨MsgType.suback.code, 0, 0, 0⟩ (2 + grantedQoSs.length)
    let w ← writeInt w packetid
    let w ← grantedQoSs.foldlM writeChar w
    pure (finish w)

/-- `MQTTSerialize_unsuback`, which asks for two bytes less than it writes. -/
def mqttSerializeUnsuback (buf : Bytes) (packetid : Nat) : Option (Int × Bytes) :=
  if buf.length < 2 then some (bufferTooShort, buf)
  else do
    let w ← writeHead (.start buf) ⟨MsgType.unsuback.code, 0, 0, 0⟩ 2
    let w ← writeInt w packetid
    pure (finish w)

/-! ## Reading -/

/-- The arguments of the readers of lists: `dup`, `packetid` and the members of the arrays
that were written. -/
structure ListOut (α : Type) where
  dup : Nat
  packetid : Nat
  members : List α
deriving DecidableEq

/-- `while (curdata < enddata)`, where `read` gives a member or the end of the loop. An array
of `room` more members is written to. -/
def readMembers {α : Type} (read : Cursor → Option (Option α × Cursor)) :
    Nat → Nat → List α → Cursor → Option (Bool × List α)
  | 0, _, members, _ => some (true, members)
  | fuel + 1, room, members, c =>
      if c.left ≤ 0 then some (true, members)
      else
        match room with
        | 0 => none
        | room + 1 => do
            let (member, c) ← read c
            match member with
            | none => pure (false, members)
            | some m => readMembers read fuel room (members ++ [m]) c

/-- The readers of lists: a packet of another type gives the code `other`. Where the list is
cut off, the code is the number of bytes that the length took. -/
def deserializeList {α : Type} (type : MsgType) (other : Int)
    (read : Cursor → Option (Option α × Cursor)) (maxcount : Nat) (out : ListOut α) (buf : Bytes) :
    Option (Int × ListOut α) := do
  let (b, c) ← readChar ⟨buf, 0⟩
  let header := MqttHeader.ofByte b
  if header.type ≠ type.code then pure (other, out)
  else do
    let (rc, c) ← readRemaining c.rest
    let (packetid, c) ← readInt c
    let (all, members) ← readMembers read c.left.toNat maxcount [] c
    pure (if all then 1 else rc, ⟨header.dup, packetid, members⟩)

/-- A filter and what is asked for. -/
def readSubscription (c : Cursor) : Option (Option (MqttString × Nat) × Cursor) := do
  let (ok, topicFilter, c) ← readMqttLenString .initializer c
  if !ok || c.left ≤ 0 then pure (none, c)
  else do
    let (requestedQoS, c) ← readChar c
    pure (some (topicFilter, requestedQoS.toNat), c)

def mqttDeserializeSubscribe (maxcount : Nat) (out : ListOut (MqttString × Nat)) (buf : Bytes) :
    Option (Int × ListOut (MqttString × Nat)) :=
  deserializeList .subscribe (-1) readSubscription maxcount out buf

def readFilter (c : Cursor) : Option (Option MqttString × Cursor) := do
  let (ok, topicFilter, c) ← readMqttLenString .initializer c
  pure (if ok then some topicFilter else none, c)

def mqttDeserializeUnsubscribe (maxcount : Nat) (out : ListOut MqttString) (buf : Bytes) :
    Option (Int × ListOut MqttString) :=
  deserializeList .unsubscribe 0 readFilter maxcount out buf

/-- The loop of `MQTTDeserialize_suback` over the codes, with an array of `size` members. Its
bound is checked one member too late. -/
def readCodes (maxcount size : Nat) : Nat → List UInt8 → Cursor → Option (Bool × List UInt8)
  | 0, codes, _ => some (true, codes)
  | fuel + 1, codes, c =>
      if c.left ≤ 0 then some (true, codes)
      else if maxcount < codes.length then some (false, codes)
      else if size ≤ codes.length then none
      else do
        let (code, c) ← readChar c
        readCodes maxcount size fuel (codes ++ [code]) c

/-- What `MQTTDeserialize_suback` writes to; the number of codes is its `count`. -/
structure SubackOut where
  packetid : Nat
  granted : List UInt8
deriving DecidableEq

def mqttDeserializeSuback (maxcount size : Nat) (out : SubackOut) (buf : Bytes) :
    Option (Int × SubackOut) := do
  let (b, c) ← readChar ⟨buf, 0⟩
  if (MqttHeader.ofByte b).type ≠ MsgType.suback.code then pure (0, out)
  else do
    let (rc, c) ← readRemaining c.rest
    if c.left < 2 then pure (rc, out)
    else do
      let (packetid, c) ← readInt c
      let (all, codes) ← readCodes maxcount size c.left.toNat [] c
      pure (if all then 1 else -1, ⟨packetid, codes⟩)

def mqttDeserializeUnsuback (packetid : Nat) (buf : Bytes) : Option (Int × Nat) := do
  let (rc, out) ← mqttDeserializeAck ⟨0, 0, packetid⟩ buf
  pure (if out.packettype = MsgType.unsuback.code then 1 else rc, out.packetid)

/-! ## What is written -/

/-- A filter and what is asked for. -/
def subscriptionBytes (t : Bytes × Nat) : Bytes := textBytes t.1 ++ [(t.2 % 256).toUInt8]

def subscribeBody (packetid : Nat) (topics : List (Bytes × Nat)) : Bytes :=
  intBytes packetid ++ topics.flatMap subscriptionBytes

def unsubscribeBody (packetid : Nat) (topics : List Bytes) : Bytes :=
  intBytes packetid ++ topics.flatMap textBytes

def Subscribes (s : MqttString × Nat) (t : Bytes × Nat) : Prop := s.1.Holds t.1 ∧ s.2 = t.2

section Writing

open List

variable {strings : List (MqttString × Nat)} {topics : List (Bytes × Nat)}

theorem mqttSerializeSubscribeLength_eq (h : Forall₂ Subscribes strings topics) (packetid : Nat) :
    mqttSerializeSubscribeLength strings = (subscribeBody packetid topics).length := by
  have hgen (n : Nat) : strings.foldl (fun len t => len + (2 + mqttStrlen t.1 + 1)) n =
      n + (topics.flatMap subscriptionBytes).length := by
    induction h generalizing n with
    | nil => rfl
    | @cons s t strings topics hst _ ih =>
        rw [foldl_cons, ih, hst.1.strlen, flatMap_cons, subscriptionBytes]
        simp only [length_append, length_cons, length_nil, length_textBytes]
        omega
  rw [mqttSerializeSubscribeLength, hgen, subscribeBody, length_append, length_intBytes]

theorem writeSubscription_eq {s : MqttString × Nat} {t : Bytes × Nat} (h : Subscribes s t)
    (w : Writer) : writeSubscription w s = w.put (subscriptionBytes t) := by
  unfold writeSubscription
  rw [writeMqttString_eq h.1, h.2]
  exact w.put_put ..

theorem mqttSerializeSubscribe_eq {buf : Bytes} {dup packetid : Nat}
    (h : Forall₂ Subscribes strings topics)
    (hsmall : (subscribeBody packetid topics).length < 268435456) :
    mqttSerializeSubscribe buf dup packetid strings =
      if mqttPacketLen (subscribeBody packetid topics).length > buf.length then
        some (bufferTooShort, buf)
      else some (written buf (frame ⟨MsgType.subscribe.code, dup, 1, 0⟩
        (subscribeBody packetid topics))) := by
  have hparts : Forall₂ (fun s bs => ∀ w, writeSubscription w s = w.put bs) strings
      (topics.map subscriptionBytes) :=
    forall₂_map_right_iff.mpr (h.imp fun _ _ hst => writeSubscription_eq hst)
  unfold mqttSerializeSubscribe
  simp only [mqttSerializeSubscribeLength_eq h packetid]
  split
  next => rfl
  next hroom =>
    have hfits := length_frame_le ⟨MsgType.subscribe.code, dup, 1, 0⟩ hsmall
    rw [← start_put_finish (by omega), ← writeHead_bind]
    simp only [writeInt_eq, Writer.foldlM_put hparts, subscribeBody, flatMap]

variable {filters : List MqttString} {names : List Bytes}

theorem mqttSerializeUnsubscribeLength_eq (h : Forall₂ MqttString.Holds filters names)
    (packetid : Nat) :
    mqttSerializeUnsubscribeLength filters = (unsubscribeBody packetid names).length := by
  have hgen (n : Nat) : filters.foldl (fun len t => len + (2 + mqttStrlen t)) n =
      n + (names.flatMap textBytes).length := by
    induction h generalizing n with
    | nil => rfl
    | @cons s t filters names hst _ ih =>
        rw [foldl_cons, ih, hst.strlen, flatMap_cons]
        simp only [length_append, length_textBytes]
        omega
  rw [mqttSerializeUnsubscribeLength, hgen, unsubscribeBody, length_append, length_intBytes]

theorem mqttSerializeUnsubscribe_eq {buf : Bytes} {dup packetid : Nat}
    (h : Forall₂ MqttString.Holds filters names)
    (hsmall : (unsubscribeBody packetid names).length < 268435456) :
    mqttSerializeUnsubscribe buf dup packetid filters =
      if mqttPacketLen (unsubscribeBody packetid names).length > buf.length then
        some (bufferTooShort, buf)
      else some (written buf (frame ⟨MsgType.unsubscribe.code, dup, 1, 0⟩
        (unsubscribeBody packetid names))) := by
  have hparts : Forall₂ (fun s bs => ∀ w, writeMqttString w s = w.put bs) filters
      (names.map textBytes) :=
    forall₂_map_right_iff.mpr (h.imp fun _ _ hst => writeMqttString_eq hst)
  unfold mqttSerializeUnsubscribe
  simp only [mqttSerializeUnsubscribeLength_eq h packetid]
  split
  next => rfl
  next hroom =>
    have hfits := length_frame_le ⟨MsgType.unsubscribe.code, dup, 1, 0⟩ hsmall
    rw [← start_put_finish (by omega), ← writeHead_bind]
    simp only [writeInt_eq, Writer.foldlM_put hparts, unsubscribeBody, flatMap]

end Writing

/-! ## What is read -/

section Members

variable {α τ : Type} {read : Cursor → Option (Option α × Cursor)} {entry : τ → Bytes}
  {Q : τ → α → Prop}

/-- The reader takes an entry from the front of what is left of a packet. -/
def ReadsEntry (read : Cursor → Option (Option α × Cursor)) (entry : τ → Bytes) (Q : τ → α → Prop)
    (t : τ) : Prop :=
  0 < (entry t).length ∧ ∀ tail left, Cursor.Inside ⟨entry t ++ tail, left⟩ →
    ((entry t).length : Int) ≤ left →
      ∃ m, read ⟨entry t ++ tail, left⟩ = some (some m, ⟨tail, left - (entry t).length⟩) ∧ Q t m

theorem readMembers_cons {t : τ} (ts : List τ) (ht : ReadsEntry read entry Q t) (rest : Bytes)
    (fuel room : Nat) (members : List α) :
    ∃ m, Q t m ∧ readMembers read (fuel + 1) (room + 1) members
        ⟨(t :: ts).flatMap entry ++ rest, ((t :: ts).flatMap entry).length⟩ =
      readMembers read fuel room (members ++ [m])
        ⟨ts.flatMap entry ++ rest, (ts.flatMap entry).length⟩ := by
  obtain ⟨hpos, hentry⟩ := ht
  have hsum : ((t :: ts).flatMap entry).length = (entry t).length + (ts.flatMap entry).length := by
    rw [List.flatMap_cons, List.length_append]
  obtain ⟨m, hm, hq⟩ := hentry (ts.flatMap entry ++ rest) ((t :: ts).flatMap entry).length
    (by simp only [Cursor.Inside, hsum, List.length_append]; omega) (by omega)
  have hleft : ¬ (((t :: ts).flatMap entry).length : Int) ≤ 0 := by omega
  have hnext : (((t :: ts).flatMap entry).length : Int) - (entry t).length =
      (ts.flatMap entry).length := by omega
  rw [hnext] at hm
  refine ⟨m, hq, ?_⟩
  rw [readMembers, if_neg hleft]
  simp only [List.flatMap_cons, List.append_assoc] at hm ⊢
  simp only [hm, Option.bind_eq_bind, Option.bind_some]

/-- Members that are read one after the other, into an array with room for them. -/
theorem readMembers_flatMap {ts : List τ} (hread : ∀ t ∈ ts, ReadsEntry read entry Q t)
    (rest : Bytes) {fuel room : Nat} (hfuel : (ts.flatMap entry).length ≤ fuel)
    (hroom : ts.length ≤ room) (members : List α) :
    ∃ ms, readMembers read fuel room members
        ⟨ts.flatMap entry ++ rest, (ts.flatMap entry).length⟩ = some (true, members ++ ms) ∧
      List.Forall₂ Q ts ms := by
  induction ts generalizing fuel room members with
  | nil =>
      refine ⟨[], ?_, .nil⟩
      cases fuel <;> simp [readMembers]
  | cons t ts ih =>
      have ht := hread t List.mem_cons_self
      rw [List.flatMap_cons, List.length_append] at hfuel
      cases fuel with
      | zero =>
          have hpos := ht.1
          omega
      | succ fuel =>
          cases room with
          | zero => simp at hroom
          | succ room =>
              obtain ⟨m, hq, hstep⟩ := readMembers_cons ts ht rest fuel room members
              have hpos := ht.1
              have hfuel' : (ts.flatMap entry).length ≤ fuel := by omega
              obtain ⟨ms, hms, hall⟩ := ih (fun t' ht' => hread t' (List.mem_cons_of_mem t ht'))
                hfuel' (Nat.le_of_succ_le_succ hroom) (members ++ [m])
              refine ⟨m :: ms, ?_, .cons hq hall⟩
              rw [hstep, hms, List.append_assoc, List.singleton_append]

/-- More members than there is room for are written behind the array. -/
theorem readMembers_overflow {ts : List τ} (hread : ∀ t ∈ ts, ReadsEntry read entry Q t)
    (rest : Bytes) {fuel room : Nat} (hfuel : (ts.flatMap entry).length ≤ fuel)
    (hroom : room < ts.length) (members : List α) :
    readMembers read fuel room members
      ⟨ts.flatMap entry ++ rest, (ts.flatMap entry).length⟩ = none := by
  induction ts generalizing fuel room members with
  | nil => simp at hroom
  | cons t ts ih =>
      have ht := hread t List.mem_cons_self
      have hpos := ht.1
      rw [List.flatMap_cons, List.length_append] at hfuel
      cases fuel with
      | zero => omega
      | succ fuel =>
          cases room with
          | zero =>
              have hleft : ¬ (((t :: ts).flatMap entry).length : Int) ≤ 0 := by
                rw [List.flatMap_cons, List.length_append]
                omega
              rw [readMembers, if_neg hleft]
          | succ room =>
              obtain ⟨m, -, hstep⟩ := readMembers_cons ts ht rest fuel room members
              rw [hstep]
              exact ih (fun t' ht' => hread t' (List.mem_cons_of_mem t ht')) (by omega)
                (by simpa using hroom) _

theorem readInt_body {packetid : Nat} (hid : packetid < 65536) (entries rest : Bytes) :
    readInt ⟨intBytes packetid ++ entries ++ rest, (intBytes packetid ++ entries).length⟩ =
      some (packetid, ⟨entries ++ rest, entries.length⟩) := by
  rw [readInt_eq_some_iff]
  refine ⟨hid, by rw [List.append_assoc], ?_⟩
  simp only [List.length_append, length_intBytes]
  omega

/-- A list is read back into an array with room for it, and written behind a smaller one. -/
theorem deserializeList_frame (type : MsgType) {ts : List τ} {dup packetid : Nat} (hdup : dup < 2)
    (hid : packetid < 65536) (hread : ∀ t ∈ ts, ReadsEntry read entry Q t)
    (hsmall : (intBytes packetid ++ ts.flatMap entry).length < 268435456) (other : Int)
    (maxcount : Nat) (out : ListOut α) (rest : Bytes) :
    (ts.length ≤ maxcount → ∃ members, deserializeList type other read maxcount out
        (frame ⟨type.code, dup, 1, 0⟩ (intBytes packetid ++ ts.flatMap entry) ++ rest) =
          some (1, ⟨dup, packetid, members⟩) ∧ List.Forall₂ Q ts members) ∧
    (maxcount < ts.length → deserializeList type other read maxcount out
        (frame ⟨type.code, dup, 1, 0⟩ (intBytes packetid ++ ts.flatMap entry) ++ rest) = none) := by
  have hfits : MqttHeader.Fits ⟨type.code, dup, 1, 0⟩ :=
    .of_msgType type hdup (by decide) (by decide)
  have hremaining := readRemaining_of_field (.encode hsmall)
    (intBytes packetid ++ ts.flatMap entry ++ rest)
  have hint := readInt_body hid (ts.flatMap entry) rest
  have hstart : deserializeList type other read maxcount out
        (frame ⟨type.code, dup, 1, 0⟩ (intBytes packetid ++ ts.flatMap entry) ++ rest) =
      (readMembers read (ts.flatMap entry).length maxcount []
        ⟨ts.flatMap entry ++ rest, (ts.flatMap entry).length⟩).map fun r =>
          ((if r.1 then 1 else
            (mqttPacketEncode (intBytes packetid ++ ts.flatMap entry).length).length : Int),
            ⟨dup, packetid, r.2⟩) := by
    rw [frame, List.cons_append, List.append_assoc]
    simp only [deserializeList, readChar_cons, MqttHeader.ofByte_byte hfits, Option.bind_eq_bind,
      Option.bind_some, ne_eq, not_true_eq_false, if_false, hremaining, hint, Int.toNat_natCast]
    exact Option.map_eq_bind.symm
  rw [hstart]
  constructor
  · intro hroom
    obtain ⟨members, hmembers, hall⟩ := readMembers_flatMap hread rest (Nat.le_refl _) hroom []
    exact ⟨members, by rw [hmembers]; rfl, hall⟩
  · intro hroom
    rw [readMembers_overflow hread rest (Nat.le_refl _) hroom []]
    rfl

end Members

theorem readSubscription_entry {t : Bytes × Nat} (ht : t.1.length < 65536 ∧ t.2 < 256) :
    ReadsEntry readSubscription subscriptionBytes (fun t m => Subscribes m t) t := by
  have hlen : (subscriptionBytes t).length = 3 + t.1.length := by
    simp only [subscriptionBytes, List.length_append, length_textBytes, List.length_singleton]
    omega
  refine ⟨by omega, fun tail left hin hleft => ?_⟩
  have hmod : ((t.2 % 256).toUInt8).toNat = t.2 := by
    rw [Nat.toUInt8, UInt8.toNat_ofNat']
    omega
  rw [subscriptionBytes, List.append_assoc, List.singleton_append] at hin ⊢
  have hread := readMqttLenString_textBytes ht.1 .initializer _ hin (by omega)
  have hmore : ¬ left - ((2 + t.1.length : Nat) : Int) ≤ 0 := by omega
  refine ⟨(⟨none, t.1.length, some (t.1 ++ ((t.2 % 256).toUInt8 :: tail))⟩,
    ((t.2 % 256).toUInt8).toNat), ?_, MqttString.holds_lenstring _ _, hmod⟩
  simp only [readSubscription, hread, Option.bind_eq_bind, Option.bind_some, hmore, Bool.not_true,
    decide_false, Bool.or_false, Bool.false_eq_true, if_false, readChar_cons]
  simp only [List.length_append, length_textBytes, List.length_singleton, Option.pure_def,
    Option.some.injEq, Prod.mk.injEq, Cursor.mk.injEq, true_and]
  omega

theorem readFilter_entry {t : Bytes} (ht : t.length < 65536) :
    ReadsEntry readFilter textBytes (fun t m => m.Holds t) t := by
  refine ⟨by rw [length_textBytes]; omega, fun tail left hin hleft => ?_⟩
  have hread := readMqttLenString_textBytes ht .initializer tail hin
    (by rwa [length_textBytes] at hleft)
  refine ⟨⟨none, t.length, some (t ++ tail)⟩, ?_, MqttString.holds_lenstring _ _⟩
  simp [readFilter, hread]

/-! ## The round trips -/

theorem unsubscribe_round_trip {strings : List MqttString} {topics : List Bytes}
    {dup packetid : Nat} (hstrings : List.Forall₂ MqttString.Holds strings topics) (hdup : dup < 2)
    (hid : packetid < 65536) (htopics : ∀ t ∈ topics, t.length < 65536)
    (hsmall : (unsubscribeBody packetid topics).length < 268435456) :
    ∃ packet : Bytes, Serializes (mqttSerializeUnsubscribe · dup packetid strings) packet ∧
      ∀ maxcount out rest,
        (topics.length ≤ maxcount → ∃ members,
          mqttDeserializeUnsubscribe maxcount out (packet ++ rest) =
            some (1, ⟨dup, packetid, members⟩) ∧ List.Forall₂ MqttString.Holds members topics) ∧
        (maxcount < topics.length →
          mqttDeserializeUnsubscribe maxcount out (packet ++ rest) = none) := by
  refine ⟨frame ⟨MsgType.unsubscribe.code, dup, 1, 0⟩ (unsubscribeBody packetid topics),
    serializes_frame hsmall fun buf => mqttSerializeUnsubscribe_eq hstrings hsmall,
    fun maxcount out rest => ?_⟩
  obtain ⟨hroom, hfull⟩ := deserializeList_frame .unsubscribe hdup hid
    (fun t ht => readFilter_entry (htopics t ht)) hsmall 0 maxcount out rest
  refine ⟨fun hle => ?_, hfull⟩
  obtain ⟨members, hread, hall⟩ := hroom hle
  exact ⟨members, hread, hall.flip⟩

/-! ## The answers of the server -/

theorem mqttSerializeSuback_eq (buf : Bytes) (packetid : Nat) (granted : List UInt8) :
    mqttSerializeSuback buf packetid granted =
      if buf.length < 2 + granted.length then some (bufferTooShort, buf)
      else if buf.length < (frame ⟨MsgType.suback.code, 0, 0, 0⟩
        (intBytes packetid ++ granted)).length then none
      else some (written buf (frame ⟨MsgType.suback.code, 0, 0, 0⟩
        (intBytes packetid ++ granted))) := by
  have hbody : (intBytes packetid ++ granted).length = 2 + granted.length := by
    rw [List.length_append, length_intBytes]
  have hparts : List.Forall₂ (fun c bs => ∀ w, writeChar w c = w.put bs) granted
      (granted.map fun c => [c]) :=
    List.forall₂_map_right_iff.mpr (List.forall₂_same.mpr fun _ _ _ => rfl)
  have hput := put_undersized buf
    (frame ⟨MsgType.suback.code, 0, 0, 0⟩ (intBytes packetid ++ granted)) (2 + granted.length)
  rw [← hput, ← writeHead_bind, hbody]
  simp only [mqttSerializeSuback, writeInt_eq, Writer.foldlM_put hparts, ← List.flatMap_def,
    List.flatMap_singleton']

/-- The codes that fit into an array of `maxcount` members are read; with more of them the
reader writes behind the array. -/
theorem readCodes_eq {maxcount : Nat} (granted rest : Bytes) {fuel : Nat} {codes : List UInt8}
    (hfuel : granted.length ≤ fuel) (hcodes : codes.length ≤ maxcount) :
    readCodes maxcount maxcount fuel codes ⟨granted ++ rest, granted.length⟩ =
      if codes.length + granted.length ≤ maxcount then some (true, codes ++ granted) else none := by
  induction granted generalizing fuel codes with
  | nil => cases fuel <;> simp [readCodes, hcodes]
  | cons g granted ih =>
      cases fuel with
      | zero => simp at hfuel
      | succ fuel =>
          have hleft : ¬ ((g :: granted).length : Int) ≤ 0 := by
            rw [List.length_cons]
            omega
          have hnext : ((granted.length + 1 : Nat) : Int) - 1 = granted.length := by omega
          rw [readCodes, if_neg hleft, if_neg (by omega)]
          by_cases hfull : maxcount ≤ codes.length
          · rw [if_pos hfull, if_neg (by rw [List.length_cons]; omega)]
          · have hmore : (codes ++ [g]).length ≤ maxcount := by
              rw [List.length_append, List.length_singleton]
              omega
            have hrec := ih (Nat.le_of_succ_le_succ hfuel) hmore
            rw [List.length_append, List.length_singleton, List.append_assoc,
              List.singleton_append, Nat.add_assoc, Nat.add_comm 1] at hrec
            rw [if_neg hfull]
            simp only [List.cons_append, readChar_cons, Option.bind_eq_bind, Option.bind_some,
              List.length_cons, hnext, hrec]

theorem mqttDeserializeSuback_frame {packetid : Nat} (hid : packetid < 65536) (granted : List UInt8)
    (hsmall : (intBytes packetid ++ granted).length < 268435456) (maxcount : Nat) (out : SubackOut)
    (rest : Bytes) :
    mqttDeserializeSuback maxcount maxcount out
      (frame ⟨MsgType.suback.code, 0, 0, 0⟩ (intBytes packetid ++ granted) ++ rest) =
        if granted.length ≤ maxcount then some (1, ⟨packetid, granted⟩) else none := by
  have hfits : MqttHeader.Fits ⟨MsgType.suback.code, 0, 0, 0⟩ :=
    .of_msgType .suback (by decide) (by decide) (by decide)
  have hremaining := readRemaining_of_field (.encode hsmall) (intBytes packetid ++ granted ++ rest)
  have hint := readInt_body hid granted rest
  have hlong : ¬ ((intBytes packetid ++ granted).length : Int) < 2 := by
    rw [List.length_append, length_intBytes]
    omega
  have hnone : ([] : List UInt8).length ≤ maxcount := Nat.zero_le _
  have hcodes := readCodes_eq granted rest (Nat.le_refl _) hnone
  rw [List.length_nil, Nat.zero_add, List.nil_append] at hcodes
  rw [frame, List.cons_append, List.append_assoc]
  simp only [mqttDeserializeSuback, readChar_cons, MqttHeader.ofByte_byte hfits,
    Option.bind_eq_bind, Option.bind_some, ne_eq, not_true_eq_false, if_false, hremaining, hlong,
    hint, Int.toNat_natCast, hcodes]
  split <;> rfl

end EzIot.Mqtt
