import EzIot.Das.Send
import EzIot.Das.Topic
import EzIot.Mqtt.Calls

/-! # Publishing over the client

`das_send_pubmsg_v3` gives the encoded message to `MQTTPublish`, and what that returns decides
what becomes of the message. The queue of messages runs over the client: no message is lost
there, and one is acknowledged without an error only if the client has returned `SUCCESS`
for it.
-/

namespace EzIot.Das

open CText Kernel Run
open Mqtt (MqttClient PublishRequest mqttPublish mqttYield success Settled getNextPacketId
  mqttPublish_success_iff)

/-! ## One message -/

def qosLevel : Qos → Nat
  | .t0 => 0
  | .t1 => 1
  | .t2 => 2

/-- What `das_send_pubmsg_v3` makes of the code of `MQTTPublish`. -/
def publishResult (rc : Int) : SendResult :=
  if rc = Mqtt.bufferTooShort then .bufferTooShort else if rc ≠ 0 then .pubError else .published

theorem publishResult_cases (rc : Int) : publishResult rc = .bufferTooShort ∨
    publishResult rc = .pubError ∨ publishResult rc = .published := by
  unfold publishResult
  split
  · exact .inl rfl
  · split
    · exact .inr (.inl rfl)
    · exact .inr (.inr rfl)

theorem publishResult_error_iff {rc : Int} : (publishResult rc).error = .succ ↔ rc = success := by
  unfold publishResult
  by_cases hshort : rc = Mqtt.bufferTooShort
  · subst hshort
    exact iff_of_false (by decide) (by decide)
  · rw [if_neg hshort]
    by_cases hzero : rc = 0
    · rw [if_neg (not_not.mpr hzero)]
      exact iff_of_true rfl hzero
    · rw [if_pos hzero]
      exact iff_of_false (by decide) hzero

section Message

variable {H : Type} (cipher : Cipher) (serial : CField 72)

/-- The call of `MQTTPublish`. -/
def callPublish (msg : PubmsgV3) (c : MqttClient H) : Option (Int × MqttClient H) :=
  (dasSendPubmsgV3 cipher msg).bind fun payload =>
    mqttPublish (.ofMem (publishTopicV3 serial msg)) ⟨qosLevel msg.msgQos, 1, 0, payload⟩ c

end Message

/-- A client to which nothing is sent, and for which the time is up after one cycle. -/
def silentClient : MqttClient Nat :=
  { Mqtt.listener [] with buf := List.replicate 128 0, timers := [false] }

/-- The queue, the client, and what `MQTTPublish` has returned for which message. -/
structure OverClient (H : Type) where
  upstream : Upstream
  client : MqttClient H
  returned : List (Nat × Int)

inductive OverStep
  /-- of the queue, other than a publication -/
  | queue (step : Step)
  /-- the message that the consumer holds is published if there is memory for its buffers -/
  | publish (memory : Bool)
  | yield

section Over

variable {H : Type} (cipher : Cipher) (serial : CField 72)

def OverClient.step (s : OverClient H) : OverStep → Option (OverClient H)
  | .queue (.publish _) => none
  | .queue step => some { s with upstream := step.apply s.upstream }
  | .publish memory =>
      match s.upstream.consumer with
      | .holding t =>
          if memory then
            (callPublish cipher serial t.exchange.msg s.client).map fun r =>
              ⟨consumerPublish (publishResult r.1) s.upstream, r.2, s.returned ++ [(t.id, r.1)]⟩
          else some { s with upstream := consumerPublish (.unsent .mallocError) s.upstream }
      | _ => some s
  | .yield => (mqttYield s.client).map fun r => { s with client := r.2 }

/-- The step of the queue is harmless. -/
def OverStep.Harmless (s : OverClient H) : OverStep → Prop
  | .queue step => step.Harmless s.upstream
  | _ => True

/-- The record of the client and the queue agree. -/
structure Told (s : OverClient H) : Prop where
  published : s.upstream.published = s.returned.map Prod.fst
  acks : ∀ a ∈ s.upstream.acks, a.2.lastError = EzErr.succ.code → (a.1, success) ∈ s.returned

variable {cipher serial} {s s' : OverClient H} {i : OverStep}

theorem OverClient.step_upstream (hstep : s.step cipher serial i = some s') :
    s'.upstream = s.upstream ∨ ∃ step : Step, s'.upstream = step.apply s.upstream ∧
      (i.Harmless s → step.Harmless s.upstream) := by
  cases i with
  | queue step =>
      refine .inr ⟨step, ?_, id⟩
      cases step with
      | publish r => cases hstep
      | _ =>
          cases hstep
          rfl
  | publish memory =>
      rw [OverClient.step] at hstep
      split at hstep
      next t ht =>
        split at hstep
        next =>
          obtain ⟨r, -, rfl⟩ := Option.map_eq_some_iff.mp hstep
          exact .inr ⟨.publish (publishResult r.1), rfl, fun _ => trivial⟩
        next =>
          cases hstep
          exact .inr ⟨.publish (.unsent .mallocError), rfl, fun _ => trivial⟩
      next =>
        cases hstep
        exact .inl rfl
  | yield =>
      obtain ⟨r, -, rfl⟩ := Option.map_eq_some_iff.mp hstep
      exact .inl rfl

theorem logs_apply (u : Upstream) {step : Step} (hne : ∀ r, step ≠ .publish r) :
    (step.apply u).published = u.published ∧ (step.apply u).acks = u.acks := by
  cases step with
  | send p alloc pubmsg =>
      show (sendPrepare p alloc pubmsg u).published = _ ∧ (sendPrepare p alloc pubmsg u).acks = _
      unfold sendPrepare
      split <;> exact ⟨rfl, rfl⟩
  | push p alloc =>
      show (sendPush p alloc u).published = _ ∧ (sendPush p alloc u).acks = _
      unfold sendPush
      split
      · split <;> exact ⟨rfl, rfl⟩
      · exact ⟨rfl, rfl⟩
  | pushAgain p alloc =>
      show (sendPushAgain p alloc u).published = _ ∧ (sendPushAgain p alloc u).acks = _
      unfold sendPushAgain
      split <;> exact ⟨rfl, rfl⟩
  | pop =>
      show (consumerPop u).published = _ ∧ (consumerPop u).acks = _
      unfold consumerPop
      split
      · split <;> exact ⟨rfl, rfl⟩
      · exact ⟨rfl, rfl⟩
  | publish r => exact absurd rfl (hne r)
  | pushBack alloc =>
      show (consumerPushBack alloc u).published = _ ∧ (consumerPushBack alloc u).acks = _
      unfold consumerPushBack
      split <;> exact ⟨rfl, rfl⟩

/-- The last message is sent again, or acknowledged with what the publication came to. -/
theorem acks_finishSend (r : SendResult) (t : Ticket) (u : Upstream) :
    (finishSend r t u).published = u.published ∧
      ∀ a ∈ (finishSend r t u).acks, a ∈ u.acks ∨ a = (t.id, publishAck r.error t.exchange.msg) := by
  unfold finishSend
  dsimp only
  split
  · exact ⟨rfl, fun a ha => .inl ha⟩
  · refine ⟨rfl, fun a ha => ?_⟩
    rcases List.mem_append.mp ha with hold | hnew
    · exact .inl hold
    · exact .inr (List.mem_singleton.mp hnew)

theorem code_eq_succ {e : MkernelError} (h : (mkiE2ezE e).code = EzErr.succ.code) : e = .succ := by
  cases e <;> first | rfl | exact absurd h (by decide)

/-- A message that was given to the client. -/
theorem Told.returned (h : Told s) {t : Ticket} (ht : s.upstream.consumer = .holding t) (rc : Int)
    (client : MqttClient H) :
    Told ⟨consumerPublish (publishResult rc) s.upstream, client, s.returned ++ [(t.id, rc)]⟩ := by
  have hreached : consumerPublish (publishResult rc) s.upstream =
      finishSend (publishResult rc) t { s.upstream with published := s.upstream.published ++ [t.id] } := by
    rcases publishResult_cases rc with hrc | hrc | hrc <;> simp only [consumerPublish, ht, hrc]
  obtain ⟨hpublished, hacks⟩ := acks_finishSend (publishResult rc) t
    { s.upstream with published := s.upstream.published ++ [t.id] }
  constructor
  · show (consumerPublish _ _).published = _
    rw [hreached, hpublished, List.map_append, ← h.published]
    rfl
  · intro a ha hcode
    have ha' : a ∈ (consumerPublish (publishResult rc) s.upstream).acks := ha
    rw [hreached] at ha'
    rcases hacks a ha' with hold | rfl
    · exact List.mem_append_left _ (h.acks a hold hcode)
    · have hsuccess := publishResult_error_iff.mp (code_eq_succ hcode)
      rw [hsuccess]
      exact List.mem_append_right _ List.mem_cons_self

/-- A message for which there was no memory. -/
theorem Told.unsent (h : Told s) {t : Ticket} (ht : s.upstream.consumer = .holding t) :
    Told { s with upstream := consumerPublish (.unsent .mallocError) s.upstream } := by
  have hreached : consumerPublish (.unsent .mallocError) s.upstream =
      finishSend (.unsent .mallocError) t s.upstream := by
    rw [consumerPublish, ht]
  obtain ⟨hpublished, hacks⟩ := acks_finishSend (.unsent .mallocError) t s.upstream
  constructor
  · show (consumerPublish _ _).published = _
    rw [hreached, hpublished]
    exact h.published
  · intro a ha hcode
    have ha' : a ∈ (consumerPublish (.unsent .mallocError) s.upstream).acks := ha
    rw [hreached] at ha'
    rcases hacks a ha' with hold | rfl
    · exact h.acks a hold hcode
    · exact absurd (code_eq_succ (e := .mallocError) hcode) (by decide)

theorem Told.step (h : Told s) (hstep : s.step cipher serial i = some s') : Told s' := by
  cases i with
  | queue step =>
      have hnext : (∀ r, step ≠ .publish r) ∧ s' = { s with upstream := step.apply s.upstream } := by
        cases step with
        | publish r => cases hstep
        | _ =>
            cases hstep
            exact ⟨nofun, rfl⟩
      obtain ⟨hne, rfl⟩ := hnext
      obtain ⟨hpublished, hacks⟩ := logs_apply s.upstream hne
      exact ⟨hpublished.trans h.published, fun a ha => h.acks a (hacks ▸ ha)⟩
  | publish memory =>
      rw [OverClient.step] at hstep
      split at hstep
      next t ht =>
        split at hstep
        next =>
          obtain ⟨r, -, rfl⟩ := Option.map_eq_some_iff.mp hstep
          exact h.returned ht r.1 r.2
        next =>
          cases hstep
          exact h.unsent ht
      next =>
        cases hstep
        exact h
  | yield =>
      obtain ⟨r, -, rfl⟩ := Option.map_eq_some_iff.mp hstep
      exact ⟨h.published, h.acks⟩

/-- Over any client, no accepted message is lost, duplicated or overtaken as long as the steps
of the queue are harmless, and whoever is told of success was published by the client. -/
theorem over_client_sound {maxSize : UInt16} {c : MqttClient H}
    (h : Reach (OverClient.step cipher serial) (fun s i => i.Harmless s) ⟨.init maxSize, c, []⟩ s) :
    Kernel.Delivered s.upstream ∧ Told s := by
  have hinv : (InOrder s.upstream ∧ Conserved s.upstream ∧ Intact s.upstream) ∧ Told s := by
    refine h.invariant (I := fun s =>
      (InOrder s.upstream ∧ Conserved s.upstream ∧ Intact s.upstream) ∧ Told s) ?_ ?_
    · exact ⟨⟨inOrder_init maxSize, .refl _, List.not_mem_nil, rfl⟩, rfl, nofun⟩
    · rintro s i s' ⟨⟨horder, hconserved, hintact⟩, htold⟩ hharmless hstep
      refine ⟨?_, htold.step hstep⟩
      rcases OverClient.step_upstream hstep with hsame | ⟨step, hnext, hok⟩
      · rw [hsame]
        exact ⟨horder, hconserved, hintact⟩
      · rw [hnext]
        exact ⟨horder.move (apply_moves _ step), hconserved.move (hok hharmless) (apply_moves _ step),
          hintact.apply (hok hharmless)⟩
  obtain ⟨⟨horder, hconserved, hintact⟩, htold⟩ := hinv
  exact ⟨⟨fun i hi => hconserved.once hi, hintact.2, horder.acks, horder.firsts⟩, htold⟩

end Over

/-- A message is accepted, taken from the queue and published. -/
def sampleOverSteps : List OverStep :=
  [.queue (.send 0 ⟨true, true⟩ (some hiMsgV3)), .queue (.push 0 true), .queue .pop, .publish true]

/-- Nobody has acknowledged the message, but the application is told of success. -/
theorem over_client_sound_silent : ∃ s,
    sampleOverSteps.foldlM (OverClient.step sampleCipher sampleSerial) ⟨.init 64, silentClient, []⟩ =
      some s ∧ s.upstream.acks.map (·.2.lastError) = [0] ∧ s.client.cycles = [0] ∧
      Kernel.Delivered s.upstream ∧ Told s := by
  have hends : (sampleOverSteps.foldlM (OverClient.step sampleCipher sampleSerial)
      ⟨.init 64, silentClient, []⟩).map (fun s =>
        (s.upstream.acks.map (·.2.lastError), s.client.cycles)) = some ([0], [0]) := by
    decide +kernel
  obtain ⟨s, hs, hvalue⟩ := Option.map_eq_some_iff.mp hends
  obtain ⟨hacks, hcycles⟩ := Prod.mk.inj hvalue
  have hharmless : ∀ (s : OverClient Nat), ∀ i ∈ sampleOverSteps, i.Harmless s := by
    intro s i hi
    simp only [sampleOverSteps, List.mem_cons, List.not_mem_nil, or_false] at hi
    rcases hi with rfl | rfl | rfl | rfl <;> trivial
  exact ⟨s, hs, hacks, hcycles, over_client_sound (Reach.of_forall hharmless hs)⟩

end EzIot.Das
