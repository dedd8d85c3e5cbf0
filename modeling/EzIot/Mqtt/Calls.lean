import EzIot.Mqtt.Session

/-! # The calls of the client

What a call may change: a cycle touches neither the handlers nor whether the client is
connected, and every call that waits for an answer ends with what its last cycle returned.
-/

namespace EzIot.Mqtt

open CText

section Calls

variable {H : Type} {c c' : MqttClient H}

/-! ## What cycles leave as it is -/

/-- The cycles that a part of a call makes, and the members that they do not touch. -/
structure Turns (c c' : MqttClient H) (cs : List Int) : Prop where
  handlers : c'.messageHandlers = c.messageHandlers
  isconnected : c'.isconnected = c.isconnected
  nextPacketid : c'.nextPacketid = c.nextPacketid
  stale : c'.stale = c.stale
  timers : c'.timers.length ≤ c.timers.length
  cycles : c'.cycles = c.cycles ++ cs

theorem Turns.refl (c : MqttClient H) : Turns c c [] :=
  ⟨rfl, rfl, rfl, rfl, Nat.le_refl _, (List.append_nil _).symm⟩

theorem Turns.trans {a b c : MqttClient H} {cs ds : List Int} (h : Turns a b cs)
    (h' : Turns b c ds) : Turns a c (cs ++ ds) where
  handlers := h'.handlers.trans h.handlers
  isconnected := h'.isconnected.trans h.isconnected
  nextPacketid := h'.nextPacketid.trans h.nextPacketid
  stale := h'.stale.trans h.stale
  timers := Nat.le_trans h'.timers h.timers
  cycles := by rw [h'.cycles, h.cycles, List.append_assoc]

theorem Turns.quiet {a b c : MqttClient H} {cs : List Int} (h : Turns a b cs) (h' : Turns b c []) :
    Turns a c cs := by
  simpa using h.trans h'

theorem turns_timerIsExpired (c : MqttClient H) : Turns c (timerIsExpired c).2 [] := by
  unfold timerIsExpired
  split
  · exact .refl c
  next expired timers heq =>
    refine ⟨rfl, rfl, rfl, rfl, ?_, (List.append_nil _).symm⟩
    rw [heq, List.length_cons]
    exact Nat.le_succ _

theorem timers_timerIsExpired (h : (timerIsExpired c).1 = false) :
    (timerIsExpired c).2.timers.length < c.timers.length := by
  unfold timerIsExpired at h ⊢
  split at h
  · cases h
  next expired timers heq =>
    rw [heq, List.length_cons]
    exact Nat.lt_succ_self _

theorem turns_sendLoop (fuel : Nat) (rest : Bytes) (c : MqttClient H) :
    Turns c (sendLoop fuel rest c).2 [] := by
  induction fuel generalizing rest c with
  | zero => exact .refl c
  | succ fuel ih =>
      have hwrite : Turns c (mqttwrite rest c).2 [] :=
        ⟨rfl, rfl, rfl, rfl, Nat.le_refl _, (List.append_nil _).symm⟩
      simp only [sendLoop]
      split
      · exact hwrite
      · split
        · exact hwrite
        · have htimer := hwrite.trans (turns_timerIsExpired (mqttwrite rest c).2)
          split
          · exact htimer
          · exact htimer.trans (ih _ _)

theorem turns_serialize {f : Bytes → Option (Int × Bytes)} {len : Int}
    (h : serialize f c = some (len, c')) : Turns c c' [] := by
  unfold serialize at h
  simp only [Option.map_eq_some_iff, Prod.mk.injEq] at h
  obtain ⟨r, -, -, rfl⟩ := h
  exact ⟨rfl, rfl, rfl, rfl, Nat.le_refl _, (List.append_nil _).symm⟩

theorem turns_serializeAndSend {f : Bytes → Option (Int × Bytes)} {rc : Int}
    (h : serializeAndSend f c = some (rc, c')) : Turns c c' [] := by
  unfold serializeAndSend at h
  cases hserialize : serialize f c with
  | none => simp [hserialize] at h
  | some r =>
      rcases r with ⟨len, c₁⟩
      have hfirst := turns_serialize hserialize
      simp only [hserialize, Option.bind_eq_bind, Option.bind_some, Option.pure_def] at h
      split at h
      · cases h
        exact hfirst
      · have hsend := turns_sendLoop len.toNat (c₁.buf.take len.toNat) c₁
        have heq := Option.some.inj h
        rw [sendPacket] at heq
        rw [heq] at hsend
        exact hfirst.trans hsend

theorem sendLoop_code (fuel : Nat) (rest : Bytes) (c : MqttClient H) :
    (sendLoop fuel rest c).1 = success ∨ (sendLoop fuel rest c).1 = failure := by
  induction fuel generalizing rest c with
  | zero => exact .inr rfl
  | succ fuel ih =>
      simp only [sendLoop]
      split
      · exact .inr rfl
      split
      · exact .inl rfl
      split
      · exact .inr rfl
      · exact ih _ _

theorem serializeAndSend_code {f : Bytes → Option (Int × Bytes)} {rc : Int}
    (h : serializeAndSend f c = some (rc, c')) : rc = success ∨ rc = failure := by
  unfold serializeAndSend at h
  cases hserialize : serialize f c with
  | none => simp [hserialize] at h
  | some r =>
      rcases r with ⟨len, c₁⟩
      simp only [hserialize, Option.bind_eq_bind, Option.bind_some, Option.pure_def] at h
      split at h
      · cases h
        exact .inr rfl
      · have hsend := sendLoop_code len.toNat (c₁.buf.take len.toNat) c₁
        have heq := Option.some.inj h
        rw [sendPacket] at heq
        rw [heq] at hsend
        exact hsend

theorem turns_keepalive {rc : Int} (h : keepalive c = some (rc, c')) : Turns c c' [] := by
  unfold keepalive at h
  split at h
  · cases h
    exact .refl c
  · have htimer := turns_timerIsExpired c
    simp only at h
    split at h
    · cases hserialize : serialize mqttSerializePingreq (timerIsExpired c).2 with
      | none => simp [hserialize] at h
      | some r =>
          rcases r with ⟨len, c₁⟩
          have hfirst := htimer.trans (turns_serialize hserialize)
          simp only [hserialize, Option.bind_eq_bind, Option.bind_some, Option.pure_def] at h
          split at h
          · cases h
            exact hfirst
          · have hsend := hfirst.trans (turns_sendLoop len.toNat (c₁.buf.take len.toNat) c₁)
            simp only [Option.some.injEq, Prod.mk.injEq] at h
            obtain ⟨-, rfl⟩ := h
            rw [sendPacket]
            split
            · exact ⟨hsend.handlers, hsend.isconnected, hsend.nextPacketid, hsend.stale,
                hsend.timers, hsend.cycles⟩
            · exact hsend
    · cases h
      exact htimer

theorem turns_mqttread {pos len : Nat} {rc : Int} (h : mqttread pos len c = some (rc, c')) :
    Turns c c' [] := by
  unfold mqttread at h
  simp only [Option.map_eq_some_iff, Prod.mk.injEq] at h
  obtain ⟨readbuf, -, -, rfl⟩ := h
  exact ⟨rfl, rfl, rfl, rfl, Nat.le_refl _, (List.append_nil _).symm⟩

theorem turns_readBody {len remLen : Nat} {rc : Int} (h : readBody len remLen c = some (rc, c')) :
    Turns c c' [] := by
  unfold readBody at h
  split at h
  · cases hread : mqttread len remLen c with
    | none => simp [hread] at h
    | some r =>
        have hturns := turns_mqttread hread
        simp only [hread, Option.bind_eq_bind, Option.bind_some, Option.pure_def,
          Option.some.injEq, Prod.mk.injEq] at h
        rw [← h.2]
        exact hturns
  · cases h
    exact .refl c

theorem turns_readPacket {rc : Int} (h : readPacket c = some (rc, c')) : Turns c c' [] := by
  unfold readPacket at h
  cases hfirst : mqttread 0 1 c with
  | none => simp [hfirst] at h
  | some r =>
      rcases r with ⟨got, c₁⟩
      have hturns := turns_mqttread hfirst
      simp only [hfirst, Option.bind_eq_bind, Option.bind_some] at h
      split at h
      · cases h
        exact hturns
      · cases hdecode : decodePacket c₁.net with
        | none => simp [hdecode] at h
        | some r =>
            rcases r with ⟨digits, remLen, net⟩
            simp only [hdecode, Option.bind_some] at h
            cases hcopy : memcpy c₁.readbuf 1 (mqttPacketEncode remLen) with
            | none => simp [hcopy] at h
            | some readbuf =>
                simp only [hcopy, Option.bind_some] at h
                have hhead : Turns c { c₁ with net := net, readbuf := readbuf } [] :=
                  ⟨hturns.handlers, hturns.isconnected, hturns.nextPacketid, hturns.stale,
                    hturns.timers, hturns.cycles⟩
                split at h
                · cases h
                  exact hhead
                · exact hhead.trans (turns_readBody h)

theorem turns_deliver {out : PublishOut} (h : deliver out c = some c') : Turns c c' [] := by
  unfold deliver at h
  cases hdeliver : deliverMessage c.messageHandlers c.defaultMessageHandler out.topicName with
  | none => simp [hdeliver] at h
  | some r =>
      rw [hdeliver] at h
      cases h
      exact ⟨rfl, rfl, rfl, rfl, Nat.le_refl _, (List.append_nil _).symm⟩

theorem turns_acknowledge {out : PublishOut} {rc : Int} (h : acknowledge out c = some (rc, c')) :
    Turns c c' [] := by
  unfold acknowledge at h
  split at h
  · cases h
    exact .refl c
  · split at h
    · exact turns_serializeAndSend h
    · split at h
      · exact turns_serializeAndSend h
      · cases h
        exact .refl c

theorem turns_releasePublish {rc : Int} (h : releasePublish c = some (rc, c')) : Turns c c' [] := by
  unfold releasePublish at h
  cases hparse : mqttDeserializeAck ⟨0, 0, c.stale⟩ c.readbuf with
  | none => simp [hparse] at h
  | some r =>
      rcases r with ⟨ok, out⟩
      simp only [hparse, Option.bind_eq_bind, Option.bind_some] at h
      split at h
      · cases h
        exact .refl c
      · cases hsend : serializeAndSend (mqttSerializeAck · .pubrel 0 out.packetid) c with
        | none => simp [hsend] at h
        | some r =>
            have hturns := turns_serializeAndSend hsend
            simp only [hsend, Option.bind_some, Option.pure_def, Option.some.injEq,
              Prod.mk.injEq] at h
            rw [← h.2]
            exact hturns

theorem turns_cycleEnd {packetType : Nat} {rc : Int} (h : cycleEnd packetType c = some (rc, c')) :
    Turns c c' [] := by
  unfold cycleEnd at h
  cases hkeep : keepalive c with
  | none => simp [hkeep] at h
  | some r =>
      have hturns := turns_keepalive hkeep
      simp only [hkeep, Option.bind_eq_bind, Option.bind_some, Option.pure_def,
        Option.some.injEq, Prod.mk.injEq] at h
      rw [← h.2]
      exact hturns

theorem turns_cycleSwitch {packetType : Nat} {rc : Int}
    (h : cycleSwitch packetType c = some (rc, c')) : Turns c c' [] := by
  unfold cycleSwitch at h
  split at h
  · exact turns_cycleEnd h
  split at h
  · exact turns_cycleEnd h
  split at h
  · cases hparse : mqttDeserializePublish emptyPublish c.readbuf with
    | none => simp [hparse] at h
    | some r =>
        rcases r with ⟨ok, out⟩
        simp only [hparse, Option.bind_eq_bind, Option.bind_some] at h
        split at h
        · cases h
          exact .refl c
        cases hdeliver : deliver out c with
        | none => simp [hdeliver] at h
        | some c₁ =>
            simp only [hdeliver, Option.bind_some] at h
            cases hack : acknowledge out c₁ with
            | none => simp [hack] at h
            | some r =>
                rcases r with ⟨rc₁, c₂⟩
                have hturns := (turns_deliver hdeliver).trans (turns_acknowledge hack)
                simp only [hack, Option.bind_some] at h
                split at h
                · cases h
                  exact hturns
                · exact hturns.trans (turns_cycleEnd h)
  split at h
  · cases hrelease : releasePublish c with
    | none => simp [hrelease] at h
    | some r =>
        rcases r with ⟨rc₁, c₁⟩
        have hturns := turns_releasePublish hrelease
        simp only [hrelease, Option.bind_eq_bind, Option.bind_some] at h
        split at h
        · cases h
          exact hturns
        · exact hturns.trans (turns_cycleEnd h)
  split at h
  · have hturns := turns_cycleEnd h
    exact ⟨hturns.handlers, hturns.isconnected, hturns.nextPacketid, hturns.stale, hturns.timers,
      hturns.cycles⟩
  · cases h
    exact .refl c

theorem turns_cycle {rc : Int} (h : cycle c = some (rc, c')) : Turns c c' [rc] := by
  unfold cycle at h
  cases hread : readPacket c with
  | none => simp [hread] at h
  | some r =>
      rcases r with ⟨packetType, c₁⟩
      simp only [hread, Option.bind_eq_bind, Option.bind_some] at h
      cases hswitch : cycleSwitch (packetType % 65536).toNat c₁ with
      | none => simp [hswitch] at h
      | some r =>
          rcases r with ⟨rc₁, c₂⟩
          have hturns := (turns_readPacket hread).trans (turns_cycleSwitch hswitch)
          simp only [hswitch, Option.bind_some, Option.pure_def, Option.some.injEq,
            Prod.mk.injEq] at h
          obtain ⟨rfl, rfl⟩ := h
          refine ⟨hturns.handlers, hturns.isconnected, hturns.nextPacketid, hturns.stale,
            hturns.timers, ?_⟩
          simp [hturns.cycles]

/-! ## Waiting -/

/-- A wait with these cycles. -/
structure Waits (c c' : MqttClient H) (cs : List Int) : Prop extends Turns c c' cs where
  readbuf : cs = [] → c'.readbuf = c.readbuf
  shorter : cs ≠ [] → c'.timers.length < c.timers.length

theorem readbuf_timerIsExpired (c : MqttClient H) : (timerIsExpired c).2.readbuf = c.readbuf := by
  unfold timerIsExpired
  split <;> rfl

/-- `waitfor` returns what its last cycle returned. -/
theorem waits_waitforLoop {packetType : MsgType} {fuel : Nat} {rc rc' : Int}
    (h : waitforLoop packetType fuel rc c = some (rc', c')) :
    ∃ cs, Waits c c' cs ∧ cs.getLast?.getD rc = rc' := by
  induction fuel generalizing rc c with
  | zero =>
      cases h
      exact ⟨[], ⟨.refl _, fun _ => rfl, fun h => absurd rfl h⟩, rfl⟩
  | succ fuel ih =>
      have htimer := turns_timerIsExpired c
      simp only [waitforLoop] at h
      split at h
      · cases h
        exact ⟨[], ⟨htimer, fun _ => readbuf_timerIsExpired c, fun h => absurd rfl h⟩, rfl⟩
      next hexpired =>
        have hless := timers_timerIsExpired (Bool.eq_false_iff.mpr hexpired)
        cases hcycle : cycle (timerIsExpired c).2 with
        | none => simp [hcycle] at h
        | some r =>
            rcases r with ⟨rc₁, c₁⟩
            have hturns := turns_cycle hcycle
            simp only [hcycle, Option.bind_eq_bind, Option.bind_some] at h
            split at h
            · obtain ⟨cs, hrest, hlast⟩ := ih h
              have htimers := Nat.le_trans hrest.timers hturns.timers
              refine ⟨rc₁ :: cs, ⟨(htimer.trans hturns).trans hrest.toTurns, nofun, ?_⟩, ?_⟩
              · intro _
                omega
              · rw [List.getLast?_cons]
                exact hlast
            · cases h
              exact ⟨[_], ⟨htimer.trans hturns, nofun, fun _ => Nat.lt_of_le_of_lt hturns.timers hless⟩,
                rfl⟩

theorem waits_waitfor {packetType : MsgType} {rc : Int} (h : waitfor packetType c = some (rc, c')) :
    ∃ cs, Waits c c' cs ∧ cs.getLast?.getD failure = rc :=
  waits_waitforLoop h

/-- Every turn of `waitfor` takes an answer of the timer. -/
theorem waitforLoop_succ {packetType : MsgType} {fuel : Nat} (hfuel : c.timers.length < fuel)
    (rc : Int) : waitforLoop packetType (fuel + 1) rc c = waitforLoop packetType fuel rc c := by
  induction fuel generalizing rc c with
  | zero => omega
  | succ fuel ih =>
      rw [waitforLoop, waitforLoop]
      simp only
      split
      next => rfl
      next hexpired =>
        have hless := timers_timerIsExpired (Bool.eq_false_iff.mpr hexpired)
        cases hcycle : cycle (timerIsExpired c).2 with
        | none => rfl
        | some r =>
            rcases r with ⟨rc₁, c₁⟩
            have htimers := (turns_cycle hcycle).timers
            simp only [Option.bind_eq_bind, Option.bind_some]
            rw [ih (by omega)]

/-! ## Messages that are to be acknowledged -/

/-- What the end of `MQTTPublish` looks like when it returns `SUCCESS`: in the last cycle
nothing arrived, or it was the acknowledgement of the message. -/
def Settled (packetTypeWait4 : MsgType) (id : Nat) (cs : List Int) (c' : MqttClient H) : Prop :=
  cs.getLast? = some 0 ∨ cs.getLast? = some (packetTypeWait4.code : Int) ∧
    ∃ out, mqttDeserializeAck ⟨0, 0, c'.stale⟩ c'.readbuf = some (1, out) ∧ out.packetid = id

theorem not_settled_nil {packetTypeWait4 : MsgType} {id : Nat} :
    ¬ Settled packetTypeWait4 id [] c' := by
  rintro (h | ⟨h, -⟩) <;> cases h

theorem acknowledged_settled {packetTypeWait4 : MsgType} {id fuel : Nat} {rc : Int}
    (h : acknowledged packetTypeWait4 id fuel c = some (rc, c')) :
    ∃ cs, Turns c c' cs ∧ (cs = [] → c'.readbuf = c.readbuf) ∧
      (rc = success ↔ Settled packetTypeWait4 id cs c') := by
  induction fuel generalizing c with
  | zero =>
      cases h
      exact ⟨[], .refl _, fun _ => rfl, iff_of_false (by decide) not_settled_nil⟩
  | succ fuel ih =>
      have hcode : (0 : Int) < packetTypeWait4.code := by
        cases packetTypeWait4 <;> decide
      simp only [acknowledged] at h
      cases hwait : waitfor packetTypeWait4 c with
      | none => simp [hwait] at h
      | some r =>
          rcases r with ⟨rc₁, c₁⟩
          obtain ⟨cs, hwaits, hlast⟩ := waits_waitfor hwait
          simp only [hwait, Option.bind_eq_bind, Option.bind_some] at h
          split at h
          next hfound =>
            have hgot : cs.getLast? = some (packetTypeWait4.code : Int) := by
              cases hcs : cs.getLast? with
              | none =>
                  rw [hcs] at hlast
                  simp only [Option.getD_none, failure] at hlast
                  omega
              | some x =>
                  rw [hcs] at hlast
                  rw [← hfound, ← hlast]
                  rfl
            cases hparse : mqttDeserializeAck ⟨0, 0, c₁.stale⟩ c₁.readbuf with
            | none => simp [hparse] at h
            | some r =>
                rcases r with ⟨ok, out⟩
                simp only [hparse, Option.bind_some, Option.pure_def] at h
                split at h
                next hmatch =>
                  cases h
                  refine ⟨cs, hwaits.toTurns, hwaits.readbuf, iff_of_true rfl (.inr ⟨hgot, out, ?_⟩)⟩
                  rw [hparse, hmatch.1]
                  exact ⟨rfl, hmatch.2⟩
                next hother =>
                  obtain ⟨ds, hturns, hsame, hiff⟩ := ih h
                  refine ⟨cs ++ ds, hwaits.trans hturns, ?_, ?_⟩
                  · intro hnil
                    obtain ⟨hcs, hds⟩ := List.append_eq_nil_iff.mp hnil
                    rw [hsame hds, hwaits.readbuf hcs]
                  · rw [hiff]
                    cases hds : ds.getLast? with
                    | some x => simp [Settled, hds]
                    | none =>
                        have hnone : ds = [] := List.getLast?_eq_none_iff.mp hds
                        subst hnone
                        refine iff_of_false not_settled_nil ?_
                        rw [List.append_nil]
                        rintro (hzero | ⟨-, out', hack, hid⟩)
                        · rw [hgot, Option.some.injEq] at hzero
                          omega
                        · rw [hturns.stale, hsame rfl, hparse] at hack
                          cases hack
                          exact hother ⟨rfl, hid⟩
          next hother =>
            cases h
            refine ⟨cs, hwaits.toTurns, hwaits.readbuf, ?_⟩
            cases hcs : cs.getLast? with
            | none =>
                rw [hcs] at hlast
                rw [← hlast, List.getLast?_eq_none_iff.mp hcs]
                exact iff_of_false (by decide) not_settled_nil
            | some x =>
                rw [hcs, Option.getD_some] at hlast
                subst hlast
                unfold Settled
                rw [hcs, Option.some.injEq, Option.some.injEq]
                exact ⟨.inl, fun hor => hor.elim (fun hzero => hzero) fun hack => absurd hack.1 hother⟩

/-- Every turn of the loop of `MQTTPublish` takes an answer of the timer. -/
theorem acknowledged_succ {packetTypeWait4 : MsgType} {fuel : Nat} (hfuel : c.timers.length < fuel)
    (id : Nat) :
    acknowledged packetTypeWait4 id (fuel + 1) c = acknowledged packetTypeWait4 id fuel c := by
  induction fuel generalizing c with
  | zero => omega
  | succ fuel ih =>
      rw [acknowledged, acknowledged]
      cases hwait : waitfor packetTypeWait4 c with
      | none => rfl
      | some r =>
          rcases r with ⟨rc₁, c₁⟩
          obtain ⟨cs, hwaits, hlast⟩ := waits_waitfor hwait
          simp only [Option.bind_eq_bind, Option.bind_some]
          split
          next hfound =>
            have hne : cs ≠ [] := by
              rintro rfl
              simp only [List.getLast?_nil, Option.getD_none, failure] at hlast
              omega
            have hless := hwaits.shorter hne
            rw [ih (by omega)]
          next => rfl

/-- When `MQTTPublish` returns `SUCCESS` for a message that is to be acknowledged: also when
nothing was acknowledged and the time was up after a cycle in which nothing arrived. -/
theorem mqttPublish_success_iff {topicName : CString} {m : PublishRequest}
    (hqos : m.qos = 1 ∨ m.qos = 2) {rc : Int} (h : mqttPublish topicName m c = some (rc, c')) :
    ∃ cs, c'.cycles = c.cycles ++ cs ∧ (rc = success ↔
      Settled (if m.qos = 1 then .puback else .pubcomp) (getNextPacketId c).1 cs c') := by
  unfold mqttPublish at h
  split at h
  · cases h
    exact ⟨[], (List.append_nil _).symm, iff_of_false (by decide) not_settled_nil⟩
  cases hsend : serializeAndSend (mqttSerializePublish · 0 m.qos m.retained (getNextPacketId c).1
      ⟨some topicName, 0, none⟩ m.payload) (getNextPacketId c).2 with
  | none => simp [hsend] at h
  | some r =>
      rcases r with ⟨rc₁, c₁⟩
      have hcycles : c₁.cycles = c.cycles := by
        rw [(turns_serializeAndSend hsend).cycles, List.append_nil]
        rfl
      simp only [hsend, Option.bind_eq_bind, Option.bind_some] at h
      split at h
      next hfailed =>
        cases h
        exact ⟨[], by rw [hcycles, List.append_nil], iff_of_false hfailed not_settled_nil⟩
      next =>
        have hloop : acknowledged (if m.qos = 1 then .puback else .pubcomp) (getNextPacketId c).1
            (c₁.timers.length + 1) c₁ = some (rc, c') := by
          rcases hqos with hone | htwo
          · simpa only [hone, if_true] using h
          · simpa [htwo] using h
        obtain ⟨cs, hturns, -, hiff⟩ := acknowledged_settled hloop
        exact ⟨cs, by rw [hturns.cycles, hcycles], hiff⟩

end Calls

/-- A message that nobody acknowledges. -/
example : (mqttPublish ⟨[97], by decide⟩ ⟨1, 0, 0, [5]⟩
    { listener [] with timers := [false] }).map Prod.fst = some success := rfl

end EzIot.Mqtt
