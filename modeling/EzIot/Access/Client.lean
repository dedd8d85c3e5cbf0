import EzIot.Access.Counters
import EzIot.Mqtt.Faults

/-! # The connection over the client

`das_yield` asks for a new connection when `MQTTYield` returns a negative number. Faults of the
receiving side do not come back as one: a connection that the peer has closed is only found
through the heartbeat, or through a message that is to be sent.
-/

namespace EzIot.Access

open CText Kernel
open Mqtt (MqttClient mqttYield readPacket Unanswered cycle_fails_iff listener)

section Client

variable {H : Type}

/-- The work of `das_yield` with what `MQTTYield` of this client returns. -/
def DasWork.over (y : DasWork) (c : MqttClient H) : Option (DasWork × MqttClient H) :=
  (mqttYield c).map fun r => ({ y with failed := decide (r.1 < (0 : Int)) }, r.2)

/-- A packet of the client that it does not answer, though it should. -/
def Refuses (c : MqttClient H) : Prop :=
  ∃ packetType c', readPacket c = some (packetType, c') ∧ Unanswered packetType c'

variable {y y' : DasWork} {c c' : MqttClient H}

theorem DasWork.failed_over_iff (hsends : c.sends = []) (hbuf : 4 ≤ c.buf.length)
    (h : y.over c = some (y', c')) : y'.failed = true ↔ Refuses c := by
  obtain ⟨⟨rc, c₁⟩, hyield, heq⟩ := Option.map_eq_some_iff.mp h
  cases heq
  exact decide_eq_true_iff.trans (cycle_fails_iff hsends hbuf hyield)

theorem dasYield_reconnects_iff (y : DasWork) (a : Link) :
    (dasYield y a).1 = Code.dasNeedReconnect ↔
      y.failed = true ∨ y.heartbeatExpired = true ∨ y.sendReconnect = true := by
  unfold dasYield
  cases y.failed <;> cases y.heartbeatExpired <;> cases y.sendReconnect <;>
    simp [Code.succ, Code.dasNeedReconnect]

/-- Where the socket takes everything, a new connection is asked for if a message arrives that
the client cannot answer, the heartbeat is late, or a message cannot be sent. -/
theorem dasYield_over_reconnects_iff (hsends : c.sends = []) (hbuf : 4 ≤ c.buf.length)
    (h : y.over c = some (y', c')) (a : Link) :
    (dasYield y' a).1 = Code.dasNeedReconnect ↔
      Refuses c ∨ y.heartbeatExpired = true ∨ y.sendReconnect = true := by
  have hsame : y'.heartbeatExpired = y.heartbeatExpired ∧ y'.sendReconnect = y.sendReconnect := by
    obtain ⟨r, -, heq⟩ := Option.map_eq_some_iff.mp h
    cases heq
    exact ⟨rfl, rfl⟩
  rw [dasYield_reconnects_iff, DasWork.failed_over_iff hsends hbuf h, hsame.1, hsame.2]

end Client

/-- The peer has closed the connection, and nothing is noticed. -/
theorem dasYield_over_reconnects_iff_closed : ∃ y c',
    DasWork.over ⟨[], false, false, [], false, false⟩ (listener [.closed]) = some (y, c') ∧
      (dasYield y sampleLink).1 ≠ Code.dasNeedReconnect := by
  have hover : (DasWork.over ⟨[], false, false, [], false, false⟩ (listener [.closed])).isSome := by
    decide +kernel
  obtain ⟨⟨y, c'⟩, hover⟩ := Option.isSome_iff_exists.mp hover
  refine ⟨y, c', hover, fun hagain => ?_⟩
  have hcauses := (dasYield_over_reconnects_iff rfl (by decide) hover sampleLink).mp hagain
  rcases hcauses with ⟨packetType, c₁, hread, htype, -⟩ | hlate | hsend
  · -- the header of no packet was read
    cases hread
    exact absurd htype (by decide)
  · cases hlate
  · cases hsend

end EzIot.Access
