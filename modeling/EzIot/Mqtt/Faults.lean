import EzIot.Mqtt.Session

/-! # Faults while receiving

A packet that cannot be read is not skipped: what is left of it in the stream is taken for
packets. The faults of the socket and of the packets come back from `cycle` as numbers that
are not negative, except where the client has no answer.
-/

namespace EzIot.Mqtt

open CText

section Faults

variable {H : Type} {c : MqttClient H}

/-! ## A packet that is not read to its end -/

/-- The socket falls silent before enough has arrived. -/
theorem netRead_short {chunks : List Bytes} (hne : ∀ bs ∈ chunks, bs ≠ []) {want : Nat}
    (hshort : chunks.flatten.length < want) (events : List SockEvent) :
    netRead want (pieces chunks (.timeout :: events)) =
      (.error .socketTimeout, chunks.flatten, events) := by
  induction chunks generalizing want with
  | nil => rfl
  | cons bs chunks ih =>
      have hbs := hne bs List.mem_cons_self
      rw [List.flatten_cons, List.length_append] at hshort
      have hrest : chunks.flatten.length < want - bs.length := by omega
      have hrec := ih (fun b hb => hne b (List.mem_cons_of_mem bs hb)) hrest
      have hlt : ¬ want < bs.length := by omega
      have heq : ¬ want = bs.length := by omega
      rw [pieces] at hrec
      simp only [pieces, List.map_cons, List.cons_append, netRead, hbs, hlt, heq, if_false, hrec,
        List.flatten_cons]

/-- A body that is cut off is read as far as it goes, and lost. -/
theorem readBody_cut {chunks : List Bytes} {events : List SockEvent}
    (hnet : c.net = pieces chunks (.timeout :: events)) (hne : ∀ bs ∈ chunks, bs ≠ [])
    {len remLen : Nat} (hcut : chunks.flatten.length < remLen)
    (hroom : len + remLen ≤ c.readbuf.length) :
    ∃ readbuf : Bytes, readbuf.length = c.readbuf.length ∧
      readBody len remLen c = some (failure, { c with net := events, readbuf := readbuf }) := by
  have hread := netRead_short hne hcut events
  have hcopy : memcpy c.readbuf len chunks.flatten = some (c.readbuf.take len ++ chunks.flatten ++
      c.readbuf.drop (len + chunks.flatten.length)) := if_pos (by omega)
  have hne : ¬ (0 : Int) = remLen := by omega
  refine ⟨_, length_of_memcpy hcopy, ?_⟩
  rw [readBody, if_pos (by omega), mqttread, mqttNetRead, hnet, hread]
  simp only [hcopy, Option.map_some, Option.bind_eq_bind, Option.bind_some, ne_eq, hne,
    not_false_eq_true, if_true, Option.pure_def]

/-- What `readPacket` returns for a packet that it cannot read is no type of a packet. -/
theorem cycle_unread {rc : Int} {c₁ : MqttClient H} (hread : readPacket c = some (rc, c₁))
    (hrc : rc = failure ∨ rc = bufferOverflow) :
    cycle c = some (65536 + rc, { c₁ with cycles := c₁.cycles ++ [65536 + rc] }) := by
  have hshort : (rc % 65536).toNat = (65536 + rc).toNat := by
    simp only [failure, bufferOverflow] at hrc
    omega
  have hother : cycleSwitch (65536 + rc).toNat c₁ = some (65536 + rc, c₁) := by
    rcases hrc with rfl | rfl <;> rfl
  unfold cycle
  simp only [hread, Option.bind_eq_bind, Option.bind_some, hshort, hother, Option.pure_def]

/-- Such a cycle does nothing else. -/
theorem serves_unread {rc : Int} {net : List SockEvent} {readbuf : Bytes}
    (hread : readPacket c = some (rc, { c with net := net, readbuf := readbuf }))
    (hlen : readbuf.length = c.readbuf.length) (hrc : rc = failure ∨ rc = bufferOverflow) :
    ∃ c', cycle c = some (65536 + rc, c') ∧ c'.net = net ∧ Serves c c' 1 [] := by
  have hcycle := cycle_unread hread hrc
  refine ⟨{ c with net := net, readbuf := readbuf, cycles := c.cycles ++ [65536 + rc] }, hcycle, rfl,
    ?_, ⟨rfl, rfl, rfl, rfl, hlen⟩, (List.append_nil _).symm, [], (List.append_nil _).symm, rfl⟩
  rw [mqttRun_succ, hcycle]
  rfl

/-- A stream in which a packet is not read: the socket falls silent inside of its body, or the
packet is too large for the read buffer. What is left is the text of other packets. -/
inductive Spills (room : Nat) (qs : List Packet) : List SockEvent → Prop
  | interrupted {b : UInt8} {field front : Bytes} {chunks rest : List Bytes}
      (events : List SockEvent)
      (hfield : LengthField field (front ++ qs.flatMap Packet.wire).length) (hqs : qs ≠ [])
      (hroom : (kept b (front ++ qs.flatMap Packet.wire)).length ≤ room)
      (hne : ∀ bs ∈ chunks, bs ≠ []) (hflat : chunks.flatten = b :: (field ++ front))
      (hrest : ∀ bs ∈ rest, bs ≠ []) (hwire : rest.flatten = qs.flatMap Packet.wire) :
      Spills room qs (pieces chunks (.timeout :: pieces rest events))
  | oversized {b : UInt8} {field : Bytes} {chunks : List Bytes} (events : List SockEvent)
      (hfield : LengthField field (qs.flatMap Packet.wire).length)
      (hroom : 6 ≤ room) (hbig : room < (kept b (qs.flatMap Packet.wire)).length)
      (hne : ∀ bs ∈ chunks, bs ≠ [])
      (hflat : chunks.flatten = b :: (field ++ qs.flatMap Packet.wire)) :
      Spills room qs (pieces chunks events)

theorem flatMap_wire_pos {qs : List Packet} (h : qs ≠ []) : 0 < (qs.flatMap Packet.wire).length := by
  cases qs with
  | nil => exact absurd rfl h
  | cons p qs =>
      rw [List.flatMap_cons, List.length_append, Packet.wire, frame, List.length_cons]
      omega

theorem length_kept (b : UInt8) (body : Bytes) :
    (kept b body).length = 1 + (mqttPacketEncode body.length).length + body.length := by
  rw [kept, List.length_cons, List.length_append]
  omega

/-- The cycle in which the packet is not read. -/
theorem serves_spilled {qs : List Packet} (hspills : Spills c.readbuf.length qs c.net) :
    ∃ (chunks : List Bytes) (events : List SockEvent) (rc : Int) (c' : MqttClient H),
      (∀ bs ∈ chunks, bs ≠ []) ∧ chunks.flatten = qs.flatMap Packet.wire ∧
      c'.net = pieces chunks events ∧ cycle c = some (rc, c') ∧ 0 < rc ∧ Serves c c' 1 [] := by
  generalize hnet : c.net = net at hspills
  cases hspills with
  | @interrupted b field front chunks rest events hfield hqs hroom hne hflat hrest hwire =>
      rw [length_kept] at hroom
      have hfits : 1 + (mqttPacketEncode (front ++ qs.flatMap Packet.wire).length).length ≤
          c.readbuf.length := by omega
      obtain ⟨chunks₁, hne₁, hflat₁, c₁, hc₁, hhead⟩ :=
        readPacket_head hnet hne hfield hflat hfits
      have hnet₁ : c₁.net = pieces chunks₁ (.timeout :: pieces rest events) := by rw [hc₁]
      have hlen₁ : c₁.readbuf.length = c.readbuf.length := by
        rw [hc₁]
        exact length_append_drop (by rw [List.length_cons, Nat.add_comm]) hfits
      have hcut : chunks₁.flatten.length < (front ++ qs.flatMap Packet.wire).length := by
        have hpos := flatMap_wire_pos hqs
        rw [hflat₁, List.length_append]
        omega
      obtain ⟨readbuf, hlen, hbody⟩ := readBody_cut hnet₁ hne₁ hcut (by rw [hlen₁]; exact hroom)
      rw [if_neg (by omega), hbody, hc₁] at hhead
      obtain ⟨c', hcycle, hnet', hserves⟩ := serves_unread hhead (hlen.trans hlen₁) (.inl rfl)
      exact ⟨rest, events, _, c', hrest, hwire, hnet', hcycle, by decide, hserves⟩
  | @oversized b field chunks events hfield hroom hbig hne hflat =>
      rw [length_kept] at hbig
      have hdigits := length_mqttPacketEncode (qs.flatMap Packet.wire).length
      have hfits : 1 + (mqttPacketEncode (qs.flatMap Packet.wire).length).length ≤
          c.readbuf.length := by grind
      obtain ⟨chunks₁, hne₁, hflat₁, c₁, hc₁, hhead⟩ :=
        readPacket_head hnet hne hfield hflat hfits
      have hlen₁ : c₁.readbuf.length = c.readbuf.length := by
        rw [hc₁]
        exact length_append_drop (by rw [List.length_cons, Nat.add_comm]) hfits
      rw [if_pos (by omega), hc₁] at hhead
      rw [hc₁] at hlen₁
      obtain ⟨c', hcycle, hnet', hserves⟩ := serves_unread hhead hlen₁ (.inr rfl)
      exact ⟨chunks₁, events, _, c', hne₁, hflat₁, hnet', hcycle, by decide, hserves⟩

/-- A packet that is not read to its end is not skipped: the client deals with what its body
spells out as with packets, and the cycle that lost it returns a positive number. -/
theorem spilled_packets_served {qs : List Packet} (hready : Ready c)
    (hspills : Spills c.readbuf.length qs c.net) (hproper : ∀ q ∈ qs, q.Proper)
    (hroom : ∀ q ∈ qs, q.wire.length ≤ c.readbuf.length) :
    ∃ rc c₁ c', cycle c = some (rc, c₁) ∧ 0 < rc ∧ Serves c c' (1 + qs.length) qs := by
  obtain ⟨chunks, events, rc, c₁, hne, hflat, hnet, hcycle, hpos, hlost⟩ := serves_spilled hspills
  obtain ⟨c', -, hserves⟩ := serves_packets (hready.of_keeps hlost.keeps) hproper
    (by rw [hlost.keeps.readbuf]; exact hroom) hnet hne hflat
  exact ⟨rc, c₁, c', hcycle, hpos, hlost.trans hserves⟩

end Faults

/-- A message whose payload is another message, to a topic that the client listens to. -/
theorem spilled_packets_served_listener :
    ∃ (net : List SockEvent) (rc : Int) (c₁ c' : MqttClient Nat),
      cycle (listener net) = some (rc, c₁) ∧ 0 < rc ∧
      Serves (listener net) c' (1 + 1) [.publish 0 0 0 0 [97, 47, 98] []] := by
  have hfield : LengthField [12] ([0, 3, 122, 47, 122] ++
      [Packet.publish 0 0 0 0 [97, 47, 98] []].flatMap Packet.wire).length :=
    ⟨.last (by decide), by decide, by decide⟩
  have hflat : [[48, 12, 0, 3, 122, 47, 122]].flatten =
      (48 : UInt8) :: ([12] ++ [0, 3, 122, 47, 122]) := rfl
  have hwire : [[48, 5, 0, 3, 97, 47], [98]].flatten =
      [Packet.publish 0 0 0 0 [97, 47, 98] []].flatMap Packet.wire := by decide
  exact ⟨_, spilled_packets_served (ready_listener _)
    (.interrupted [] hfield (by decide) (by decide) (by decide) hflat (by decide) hwire)
    (by decide) (by decide)⟩

section Failure

variable {H : Type} {c : MqttClient H}

/-! ## What is reported -/

/-- The client has no answer to the packet in the read buffer: a message whose quality of
service does not exist. -/
def Unanswered (packetType : Int) (c : MqttClient H) : Prop :=
  packetType = MsgType.publish.code ∧
    ∃ out, mqttDeserializePublish emptyPublish c.readbuf = some (1, out) ∧ 3 ≤ out.qos

/-- The packet id of a `PUBREC` is taken as read. -/
def Identified (packetType : Int) (c : MqttClient H) : Prop :=
  packetType = MsgType.pubrec.code → ∀ ok out,
    mqttDeserializeAck ⟨0, 0, c.stale⟩ c.readbuf = some (ok, out) → ok = 1

theorem cycleEnd_nonneg (hsends : c.sends = []) (hbuf : 4 ≤ c.buf.length) {packetType : Nat}
    {rc : Int} {c' : MqttClient H} (h : cycleEnd packetType c = some (rc, c')) : 0 ≤ rc := by
  obtain ⟨c₁, out, hend, -⟩ := cycleEnd_all hsends hbuf packetType
  rw [hend] at h
  cases h
  omega

theorem keeps_deliver {out : PublishOut} {c₁ : MqttClient H} (h : deliver out c = some c₁) :
    Keeps c c₁ := by
  unfold deliver at h
  cases hdeliver : deliverMessage c.messageHandlers c.defaultMessageHandler out.topicName with
  | none => simp [hdeliver] at h
  | some r =>
      rw [hdeliver] at h
      cases h
      exact ⟨rfl, rfl, rfl, rfl, rfl⟩

theorem cycleSwitch_publish_fails (hsends : c.sends = []) (hbuf : 4 ≤ c.buf.length) {rc : Int}
    {c' : MqttClient H} (h : cycleSwitch MsgType.publish.code c = some (rc, c')) :
    rc < 0 ↔ ∃ out, mqttDeserializePublish emptyPublish c.readbuf = some (1, out) ∧ 3 ≤ out.qos := by
  simp only [cycleSwitch, MsgType.code, OfNat.ofNat_ne_zero, Nat.reduceEqDiff, if_false, if_true,
    or_self] at h
  cases hparse : mqttDeserializePublish emptyPublish c.readbuf with
  | none => simp [hparse] at h
  | some r =>
      rcases r with ⟨ok, out⟩
      simp only [hparse, Option.bind_eq_bind, Option.bind_some] at h
      by_cases hok : ok = 1
      · subst hok
        simp only [ne_eq, not_true_eq_false, if_false] at h
        cases hdeliver : deliver out c with
        | none => simp [hdeliver] at h
        | some c₁ =>
            have hkeeps := keeps_deliver hdeliver
            have hbuf₁ : 4 ≤ c₁.buf.length := by
              rw [hkeeps.buf]
              exact hbuf
            simp only [hdeliver, Option.bind_some] at h
            by_cases hqos : out.qos < 3
            · obtain ⟨c₂, hack, hsent⟩ := acknowledge_all (hkeeps.sends.trans hsends) hbuf₁ hqos
              have hne : ¬ success = failure := by decide
              simp only [hack, Option.bind_some, hne, if_false] at h
              have hnonneg := cycleEnd_nonneg ((hkeeps.trans hsent.keeps).sends.trans hsends)
                (by rw [(hkeeps.trans hsent.keeps).buf]; exact hbuf) h
              constructor
              · intro hneg
                omega
              · rintro ⟨out', heq, hlow⟩
                cases heq
                omega
            · have hack : acknowledge out c₁ = some (failure, c₁) := by
                unfold acknowledge
                rw [if_neg (by omega), if_neg (by omega), if_neg (by omega)]
              simp only [hack, Option.bind_some, if_true, Option.pure_def] at h
              cases h
              exact ⟨fun _ => ⟨out, rfl, Nat.not_lt.mp hqos⟩, fun _ => by decide⟩
      · simp only [ne_eq, hok, not_false_eq_true, if_true, Option.pure_def] at h
        cases h
        constructor
        · intro hneg
          cases hneg
        · rintro ⟨out', heq, -⟩
          cases heq
          exact absurd rfl hok

theorem cycleSwitch_pubrec_nonneg (hsends : c.sends = []) (hbuf : 4 ≤ c.buf.length)
    (hidentified : Identified MsgType.pubrec.code c) {rc : Int} {c' : MqttClient H}
    (h : cycleSwitch MsgType.pubrec.code c = some (rc, c')) : 0 ≤ rc := by
  simp only [cycleSwitch, releasePublish, MsgType.code, OfNat.ofNat_ne_zero, Nat.reduceEqDiff,
    if_false, if_true, or_self] at h
  cases hparse : mqttDeserializeAck ⟨0, 0, c.stale⟩ c.readbuf with
  | none => simp [hparse] at h
  | some r =>
      rcases r with ⟨ok, out⟩
      have hok := hidentified rfl ok out hparse
      have hack : mqttSerializeAck c.buf .pubrel 0 out.packetid =
          some (written c.buf (frame ⟨MsgType.pubrel.code, 0, 1, 0⟩ (intBytes out.packetid))) := by
        rw [mqttSerializeAck_eq, if_neg (by omega)]
        rfl
      obtain ⟨c₁, hsend, hsent⟩ := serializeAndSend_all
        (f := (mqttSerializeAck · .pubrel 0 out.packetid)) hack
        (by rw [length_ackFrame]; exact hbuf) (List.cons_ne_nil _ _) hsends
      have hne : ¬ success = failure := by decide
      simp only [hparse, Option.bind_eq_bind, Option.bind_some, ne_eq, hok, not_true_eq_false,
        if_false, hsend, if_true, Option.pure_def, hne] at h
      exact cycleEnd_nonneg (hsent.keeps.sends.trans hsends)
        (by rw [hsent.keeps.buf]; exact hbuf) h

theorem cycleSwitch_fails_iff (hsends : c.sends = []) (hbuf : 4 ≤ c.buf.length) {packetType : Nat}
    (hidentified : Identified packetType c) {rc : Int} {c' : MqttClient H}
    (h : cycleSwitch packetType c = some (rc, c')) : rc < 0 ↔ Unanswered packetType c := by
  unfold Unanswered
  by_cases hpublish : packetType = MsgType.publish.code
  · subst hpublish
    rw [cycleSwitch_publish_fails hsends hbuf h]
    simp
  · have hnonneg : 0 ≤ rc := by
      by_cases hpubrec : packetType = MsgType.pubrec.code
      · subst hpubrec
        exact cycleSwitch_pubrec_nonneg hsends hbuf hidentified h
      · obtain ⟨c₁, out, hswitch, -⟩ := cycleSwitch_other hpublish hpubrec hsends hbuf 0 []
        rw [hswitch] at h
        cases h
        omega
    simp only [Int.natCast_inj, hpublish, false_and, iff_false]
    omega

/-! ## What the read buffer holds -/

theorem mqttNetRead_cases (len : Nat) (events : List SockEvent) :
    (mqttNetRead len events).1 = len ∨ (mqttNetRead len events).1 = 0 := by
  unfold mqttNetRead
  split
  · exact .inl rfl
  · exact .inr rfl

theorem mqttread_frame {pos len : Nat} {rc : Int} {c₁ : MqttClient H}
    (h : mqttread pos len c = some (rc, c₁)) :
    (rc = len ∨ rc = 0) ∧ c₁.sends = c.sends ∧ c₁.buf = c.buf := by
  have hrc := mqttNetRead_cases len c.net
  unfold mqttread at h
  cases hcopy : memcpy c.readbuf pos (mqttNetRead len c.net).2.1 with
  | none => simp [hcopy] at h
  | some readbuf =>
      simp only [hcopy, Option.map_some, Option.some.injEq, Prod.mk.injEq] at h
      obtain ⟨rfl, rfl⟩ := h
      exact ⟨hrc, rfl, rfl⟩

theorem packetTypeOf_bounds (c : MqttClient H) : 0 ≤ packetTypeOf c ∧ packetTypeOf c < 16 := by
  have hlt := (c.readbuf.headD 0).toNat_lt
  unfold packetTypeOf MqttHeader.ofByte
  simp only
  omega

/-- The packet that is in the read buffer after `readPacket`: its length is written in the
shortest way, and there is room for its body. -/
def HoldsPacket (c : MqttClient H) : Prop :=
  ∃ (b : UInt8) (n : Nat) (rest : Bytes), n < 268435456 ∧ n ≤ rest.length ∧
    c.readbuf = b :: (mqttPacketEncode n ++ rest)

theorem readBody_bounds {front old : Bytes} {remLen : Nat} (hbuf : c.readbuf = front ++ old)
    {rc : Int} {c₁ : MqttClient H} (h : readBody front.length remLen c = some (rc, c₁)) :
    (-1 ≤ rc ∧ rc < 16) ∧ c₁.sends = c.sends ∧ c₁.buf = c.buf ∧
      ∃ old', old'.length = old.length ∧ c₁.readbuf = front ++ old' := by
  unfold readBody at h
  split at h
  · cases hcopy : memcpy c.readbuf front.length (mqttNetRead remLen c.net).2.1 with
    | none => simp [mqttread, hcopy] at h
    | some readbuf =>
        obtain ⟨hfits, -⟩ := memcpy_eq_some_iff.mp hcopy
        rw [hbuf, List.length_append] at hfits
        have hbehind : memcpy (front ++ old) front.length _ = _ :=
          memcpy_behind rfl (Nat.le_of_add_le_add_left hfits)
        rw [← hbuf, hcopy, Option.some.injEq] at hbehind
        simp only [mqttread, hcopy, Option.map_some, Option.bind_eq_bind, Option.bind_some,
          Option.pure_def, Option.some.injEq, Prod.mk.injEq] at h
        obtain ⟨hrc, rfl⟩ := h
        have htype := packetTypeOf_bounds { c with
          readbuf := readbuf
          net := (mqttNetRead remLen c.net).2.2 }
        refine ⟨?_, rfl, rfl, _, ?_, hbehind⟩
        · rw [← hrc]
          split
          · decide
          · exact ⟨Int.le_trans (by decide) htype.1, htype.2⟩
        · exact length_append_drop rfl (Nat.le_of_add_le_add_left hfits)
  · have htype := packetTypeOf_bounds c
    cases h
    exact ⟨by omega, rfl, rfl, old, rfl, hbuf⟩

/-- The results of `readPacket`. -/
theorem readPacket_spec {rc : Int} {c₁ : MqttClient H} (h : readPacket c = some (rc, c₁)) :
    (-2 ≤ rc ∧ rc < 16) ∧ c₁.sends = c.sends ∧ c₁.buf = c.buf ∧ (0 < rc → HoldsPacket c₁) := by
  unfold readPacket at h
  cases hfirst : mqttread 0 1 c with
  | none => simp [hfirst] at h
  | some r =>
      rcases r with ⟨got, c₂⟩
      obtain ⟨hgot, hsends, hbuf⟩ := mqttread_frame hfirst
      simp only [hfirst, Option.bind_eq_bind, Option.bind_some] at h
      by_cases hone : got = 1
      · simp only [hone, ne_eq, not_true_eq_false, if_false] at h
        cases hdecode : decodePacket c₂.net with
        | none => simp [hdecode] at h
        | some r =>
            rcases r with ⟨digits, remLen, net⟩
            simp only [hdecode, Option.bind_some] at h
            cases hcopy : memcpy c₂.readbuf 1 (mqttPacketEncode remLen) with
            | none => simp [hcopy] at h
            | some readbuf =>
                simp only [hcopy, Option.bind_some] at h
                split at h
                · cases h
                  exact ⟨by decide, hsends, hbuf, by intro hpos; cases hpos⟩
                next hroom =>
                  obtain ⟨hfits, -⟩ := memcpy_eq_some_iff.mp hcopy
                  have hsize := length_of_memcpy hcopy
                  match hold : c₂.readbuf with
                  | [] =>
                      rw [hold, List.length_nil] at hfits
                      omega
                  | b :: t =>
                      rw [hold, List.length_cons] at hfits hsize
                      have hbehind : memcpy ([b] ++ t) 1 (mqttPacketEncode remLen) = _ :=
                        memcpy_behind rfl (by omega)
                      rw [hold] at hcopy
                      obtain rfl := Option.some.inj (hcopy.symm.trans hbehind)
                      have hlen : 1 + (mqttPacketEncode remLen).length =
                          (b :: mqttPacketEncode remLen).length := by
                        rw [List.length_cons, Nat.add_comm]
                      rw [hlen] at h
                      obtain ⟨hrc, hsends₁, hbuf₁, old', hold', hholds⟩ := readBody_bounds rfl h
                      refine ⟨by omega, hsends₁.trans hsends, hbuf₁.trans hbuf, fun _ =>
                        ⟨b, remLen, old', mqttPacketDecode_lt hdecode, ?_, hholds⟩⟩
                      rw [hold', List.length_drop]
                      simp only [List.length_append, List.length_singleton,
                        List.length_drop] at hroom
                      omega
      · simp only [ne_eq, hone, not_false_eq_true, if_true, Option.pure_def, Option.some.injEq,
          Prod.mk.injEq] at h
        obtain ⟨rfl, rfl⟩ := h
        exact ⟨by omega, hsends, hbuf, by omega⟩

theorem identified_of_holdsPacket {packetType : Int} (h : HoldsPacket c) :
    Identified packetType c := by
  obtain ⟨b, n, rest, hsmall, hroom, hbuf⟩ := h
  intro _ ok out hparse
  have hlen : (rest.take n).length = n := by
    rw [List.length_take]
    omega
  have hfield : LengthField (mqttPacketEncode n) (rest.take n).length := by
    rw [hlen]
    exact .encode hsmall
  have hwhole : c.readbuf = b :: (mqttPacketEncode n ++ (rest.take n ++ rest.drop n)) := by
    rw [hbuf, List.take_append_drop]
  rw [hwhole, mqttDeserializeAck_eq hfield, hlen] at hparse
  split at hparse
  next hshort =>
    -- the code of success is the number of digits
    have hdigits := length_mqttPacketEncode n
    rw [if_pos (by omega)] at hdigits
    cases hparse
    rw [hdigits]
    rfl
  next =>
    simp only [Option.map_eq_some_iff, Prod.mk.injEq] at hparse
    obtain ⟨-, -, hok, -⟩ := hparse
    exact hok.symm

/-- Where the socket takes everything, the only packets that end a cycle with a negative number
are messages whose quality of service does not exist. No fault of the receiving side does. -/
theorem cycle_fails_iff (hsends : c.sends = []) (hbuf : 4 ≤ c.buf.length) {rc : Int}
    {c' : MqttClient H} (h : cycle c = some (rc, c')) :
    rc < 0 ↔ ∃ packetType c₁, readPacket c = some (packetType, c₁) ∧ Unanswered packetType c₁ := by
  unfold cycle at h
  cases hread : readPacket c with
  | none => simp [hread] at h
  | some r =>
      rcases r with ⟨packetType, c₁⟩
      obtain ⟨hbounds, hsends₁, hbuf₁, hholds⟩ := readPacket_spec hread
      simp only [hread, Option.bind_eq_bind, Option.bind_some] at h
      cases hswitch : cycleSwitch (packetType % 65536).toNat c₁ with
      | none => simp [hswitch] at h
      | some r =>
          rcases r with ⟨rc₁, c₂⟩
          simp only [hswitch, Option.bind_some, Option.pure_def, Option.some.injEq,
            Prod.mk.injEq] at h
          have hidentified : Identified ((packetType % 65536).toNat : Int) c₁ := by
            by_cases hpos : 0 < packetType
            · exact identified_of_holdsPacket (hholds hpos)
            · intro heq
              simp only [MsgType.code] at heq
              omega
          have hfails := cycleSwitch_fails_iff (hsends₁.trans hsends) (by rw [hbuf₁]; exact hbuf)
            hidentified hswitch
          have hsame : Unanswered ((packetType % 65536).toNat : Int) c₁ ↔
              Unanswered packetType c₁ := by
            unfold Unanswered MsgType.code
            have hpublish : ((packetType % 65536).toNat : Int) = (3 : Nat) ↔
                packetType = (3 : Nat) := by omega
            rw [hpublish]
          rw [← h.1, hfails, hsame]
          simp

end Failure

/-- A message of quality of service 3. -/
example : (cycle (listener [.data [54, 5, 0, 1, 97, 0, 1]])).map Prod.fst = some (-1) := rfl

end EzIot.Mqtt
