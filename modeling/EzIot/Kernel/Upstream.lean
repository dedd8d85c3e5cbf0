import Mathlib.Data.List.Nodup
import EzIot.Lib.Run
import EzIot.Kernel.Queue

/-! # Upstream messages of the v3 protocol

Producers call `ez_kernel_send_v3`, which prepares a message and pushes it; the
consumer pops one, publishes it and, when the network failed, pushes it back at
the head. The queue lock makes each queue operation one step, and anything can
happen between two steps of a call.

The push stands in a `CHECK_COND_DONE`, whose log line evaluates a condition that
holds once more: a push that failed is made again, its result is only logged, and
the exchange is freed whether it is now in the queue or not.
-/

namespace EzIot.Kernel

open CText Run

/-- `CONFIG_EZIOT_CORE_MESSAGE_SIZE_MAX`. -/
def messageSizeMax : Nat := 16384

/-- `CONFIG_EZIOT_CORE_DEFAULT_PUBLISH_RETRY`. -/
def publishRetry : UInt16 := 2

/-- `ezdev_sdk_kernel_pubmsg_exchange_v3`. -/
structure Exchange where
  maxSendCount : UInt16
  msg : PubmsgV3
deriving DecidableEq

/-- What the allocator does for one call of `ez_kernel_send_v3`. -/
structure SendAlloc where
  exchange : Bool
  body : Bool

/-- `ez_kernel_send_v3` up to the push: the checks, the copy and the sequence
number, drawn unless the message is a response. `none` is a null pointer; `drawn`
counts the numbers handed out. -/
def ezKernelSendV3 (started : Bool) (alloc : SendAlloc) (drawn : Nat) (pubmsg : Option PubmsgV3) :
    Except EzErr Exchange × Nat :=
  if started = false then (.error .notInit, drawn)
  else
    match pubmsg with
    | none => (.error .paramInvalid, drawn)
    | some m =>
        if m.msgBody.length = 0 then (.error .paramInvalid, drawn)
        else if messageSizeMax < m.msgBody.length then (.error .outRange, drawn)
        else if alloc.exchange = false then (.error .memory, drawn)
        else
          let seq := if m.msgResponse then m.msgSeq else UInt32.ofNat (drawn + 1)
          let drawn' := if m.msgResponse then drawn else drawn + 1
          if alloc.body = false then (.error .memory, drawn')
          else (.ok ⟨publishRetry, { m with msgResponse := false, msgSeq := seq }⟩, drawn')

/-- The ways `das_send_pubmsg_v3` can end. -/
inductive SendResult
  /-- an error before `MQTTPublish` is called -/
  | unsent (e : MkernelError)
  | published
  | bufferTooShort
  | pubError
deriving DecidableEq

def SendResult.error : SendResult → MkernelError
  | .unsent e => e
  | .published => .succ
  | .bufferTooShort => .callMqttBufferTooShort
  | .pubError => .callMqttPubError

/-- An accepted message, with the number of its acceptance to tell messages
apart. -/
structure Ticket where
  id : Nat
  exchange : Exchange
deriving DecidableEq

/-- What an element of the queue points to. -/
inductive Entry
  | exchange (t : Ticket)
  /-- an exchange that its producer has freed -/
  | freed
deriving DecidableEq

def Entry.ticket? : Entry → Option Ticket
  | .exchange t => some t
  | .freed => none

/-- How far a producer's call of `ez_kernel_send_v3` has got. -/
inductive Producer
  | idle
  /-- the message is prepared and about to be pushed -/
  | ready (e : Exchange)
  /-- the push has failed and is made again for the log line -/
  | failed (e : Exchange)
deriving DecidableEq

/-- Where the consumer stands in `send_message_to_das_v3`. -/
inductive Consumer
  | idle
  /-- popped, not published yet -/
  | holding (t : Ticket)
  /-- publishing failed, about to be pushed back -/
  | retrying (t : Ticket)
deriving DecidableEq

/-- The ticket in the consumer's hands. -/
def Consumer.held : Consumer → List Ticket
  | .idle => []
  | .holding t => [t]
  | .retrying t => [t]

structure Upstream where
  started : Bool
  drawn : Nat
  queue : Queue Entry
  producer : Nat → Producer
  consumer : Consumer
  /-- the consumer has taken a freed exchange from the queue -/
  readFreed : Bool
  /-- messages whose `ez_kernel_send_v3` returned success, in that order -/
  accepted : List PubmsgV3
  /-- calls of `MQTTPublish`, in order -/
  published : List Nat
  /-- acknowledgements handed to `broadcast_user_event` -/
  acks : List (Nat × PublishAck)

def Upstream.init (maxSize : UInt16) : Upstream :=
  ⟨true, 0, .init maxSize, fun _ => .idle, .idle, false, [], [], []⟩

/-- Producer `p` gets to `d`. -/
def Upstream.goto (s : Upstream) (p : Nat) (d : Producer) : Upstream :=
  { s with producer := fun p' => if p' = p then d else s.producer p' }

inductive Step
  /-- producer `p` calls `ez_kernel_send_v3` and gets as far as the push -/
  | send (p : Nat) (alloc : SendAlloc) (pubmsg : Option PubmsgV3)
  /-- producer `p` pushes its message, and returns if that worked -/
  | push (p : Nat) (alloc : Bool)
  /-- producer `p` makes the push that failed again, frees the exchange and returns -/
  | pushAgain (p : Nat) (alloc : Bool)
  | pop
  | publish (r : SendResult)
  | pushBack (alloc : Bool)

/-- The acknowledgement that `send_message_to_das_v3` fills in. -/
def publishAck (e : MkernelError) (m : PubmsgV3) : PublishAck :=
  ⟨(mkiE2ezE e).code, m.msgSeq, m.module, m.msgType⟩

/-- The end of `send_message_to_das_v3`: a failed message with a send left goes
back, every other one is acknowledged. -/
def finishSend (r : SendResult) (t : Ticket) (s : Upstream) : Upstream :=
  let count := t.exchange.maxSendCount
  if r = .pubError ∧ 1 < count then
    { s with consumer := .retrying { t with exchange.maxSendCount := count - 1 } }
  else
    { s with consumer := .idle, acks := s.acks ++ [(t.id, publishAck r.error t.exchange.msg)] }

/-- A call of `ez_kernel_send_v3` up to its push, or to its return with an error. -/
def sendPrepare (p : Nat) (alloc : SendAlloc) (pubmsg : Option PubmsgV3) (s : Upstream) :
    Upstream :=
  match ezKernelSendV3 s.started alloc s.drawn pubmsg with
  | (.error _, drawn) => { s with drawn := drawn }
  | (.ok e, drawn) => { s.goto p (.ready e) with drawn := drawn }

/-- The push of `ez_kernel_send_v3`. -/
def sendPush (p : Nat) (alloc : Bool) (s : Upstream) : Upstream :=
  match s.producer p with
  | .ready e =>
      match s.queue.push alloc (.exchange ⟨s.accepted.length, e⟩) with
      | (.succ, q) => { s.goto p .idle with queue := q, accepted := s.accepted ++ [e.msg] }
      | (_, q) => { s.goto p (.failed e) with queue := q }
  | _ => s

/-- The push in the log line of a push that failed, and the return with
`EZ_CORE_ERR_MEMORY`: an element that gets into the queue here points to memory that
is freed at once. -/
def sendPushAgain (p : Nat) (alloc : Bool) (s : Upstream) : Upstream :=
  match s.producer p with
  | .failed _ => { s.goto p .idle with queue := (s.queue.push alloc .freed).2 }
  | _ => s

/-- The consumer takes the message at the head. What it does with a freed one is
anything; here it drops it and the fault is kept on record. -/
def consumerPop (s : Upstream) : Upstream :=
  match s.consumer with
  | .idle =>
      match s.queue.pop with
      | none => s
      | some (.exchange t, q) => { s with queue := q, consumer := .holding t }
      | some (.freed, q) => { s with queue := q, readFreed := true }
  | _ => s

def consumerPublish (r : SendResult) (s : Upstream) : Upstream :=
  match s.consumer with
  | .holding t =>
      match r with
      | .unsent _ => finishSend r t s
      | _ => finishSend r t { s with published := s.published ++ [t.id] }
  | _ => s

/-- The message goes back to the head; the result of the push is not looked at. -/
def consumerPushBack (alloc : Bool) (s : Upstream) : Upstream :=
  match s.consumer with
  | .retrying t => { s with consumer := .idle, queue := (s.queue.pushHead alloc (.exchange t)).2 }
  | _ => s

def Step.apply (s : Upstream) : Step → Upstream
  | .send p alloc pubmsg => sendPrepare p alloc pubmsg s
  | .push p alloc => sendPush p alloc s
  | .pushAgain p alloc => sendPushAgain p alloc s
  | .pop => consumerPop s
  | .publish r => consumerPublish r s
  | .pushBack alloc => consumerPushBack alloc s

/-! ## What one step does -/

def Upstream.queued (s : Upstream) : List Ticket := s.queue.elems.filterMap Entry.ticket?

/-- The accepted messages that are not acknowledged, in the order in which they
will be published. -/
def Upstream.outstanding (s : Upstream) : List Ticket := s.consumer.held ++ s.queued

/-- A message that is pushed back finds room in the queue and gets an element, and a
push that is made again for the log line fails again. -/
def Step.Harmless (s : Upstream) : Step → Prop
  | .pushBack alloc => s.consumer ≠ .idle → s.queue.full = false ∧ alloc = true
  | .pushAgain p alloc =>
      (∃ e, s.producer p = .failed e) → s.queue.full = true ∨ alloc = false
  | _ => True

/-- The moves of the outstanding messages and of the logs. -/
inductive Moves (s s' : Upstream) (step : Step) : Prop
  | quiet : s'.outstanding = s.outstanding → s'.accepted = s.accepted →
      s'.published = s.published → s'.acks = s.acks → Moves s s' step
  | accept (e : Exchange) : s'.outstanding = s.outstanding ++ [⟨s.accepted.length, e⟩] →
      s'.accepted = s.accepted ++ [e.msg] → s'.published = s.published → s'.acks = s.acks →
      Moves s s' step
  | retry (t t' : Ticket) (rest : List Ticket) : s.outstanding = t :: rest →
      s'.outstanding = t' :: rest → t'.id = t.id → t'.exchange.msg = t.exchange.msg →
      s'.accepted = s.accepted → s'.published = s.published ++ [t.id] → s'.acks = s.acks →
      Moves s s' step
  | finish (t : Ticket) (rest : List Ticket) (reached : List Nat) (e : MkernelError) :
      s.outstanding = t :: rest → s'.outstanding = rest → s'.accepted = s.accepted →
      reached = [] ∨ reached = [t.id] → s'.published = s.published ++ reached →
      s'.acks = s.acks ++ [(t.id, publishAck e t.exchange.msg)] → Moves s s' step
  | drop (t : Ticket) : ¬ step.Harmless s → s.outstanding = t :: s'.outstanding →
      s'.accepted = s.accepted → s'.published = s.published → s'.acks = s.acks → Moves s s' step

theorem push_moves (s : Upstream) (p : Nat) (alloc : Bool) (step : Step) :
    Moves s (sendPush p alloc s) step := by
  unfold sendPush
  split
  · rename_i e hp
    have hcases := s.queue.push_cases alloc (.exchange ⟨s.accepted.length, e⟩)
    split
    · rename_i q hq
      rw [hq] at hcases
      rcases hcases with ⟨-, helems⟩ | ⟨hne, -⟩
      · refine .accept e ?_ rfl rfl rfl
        simp only at helems
        simp [Upstream.outstanding, Upstream.queued, Upstream.goto, helems, Entry.ticket?]
      · exact absurd rfl hne
    · rename_i err q herr hq
      rw [hq] at hcases
      rcases hcases with ⟨hsucc, -⟩ | ⟨-, hsame⟩
      · exact absurd hsucc herr
      · simp only at hsame
        subst hsame
        exact .quiet rfl rfl rfl rfl
  · exact .quiet rfl rfl rfl rfl

/-- A freed exchange is no message: the second push moves nothing, whatever it does. -/
theorem pushAgain_moves (s : Upstream) (p : Nat) (alloc : Bool) (step : Step) :
    Moves s (sendPushAgain p alloc s) step := by
  unfold sendPushAgain
  split
  · refine .quiet ?_ rfl rfl rfl
    rcases s.queue.push_cases alloc .freed with ⟨-, helems⟩ | ⟨-, hsame⟩
    · simp [Upstream.outstanding, Upstream.queued, Upstream.goto, helems, Entry.ticket?]
    · rw [hsame]
      rfl
  · exact .quiet rfl rfl rfl rfl

theorem pop_moves (s : Upstream) (step : Step) : Moves s (consumerPop s) step := by
  unfold consumerPop
  split
  · rename_i hc
    split
    · exact .quiet rfl rfl rfl rfl
    · rename_i t q hpop
      refine .quiet ?_ rfl rfl rfl
      simp [Upstream.outstanding, Upstream.queued, hc, Consumer.held, Queue.pop_some hpop,
        Entry.ticket?]
    · rename_i q hpop
      refine .quiet ?_ rfl rfl rfl
      simp only [Upstream.outstanding, Upstream.queued, Queue.pop_some hpop]
      rw [List.filterMap_cons_none rfl]
  · exact .quiet rfl rfl rfl rfl

/-- The consumer's message is the first outstanding one. -/
theorem outstanding_held {s : Upstream} {t : Ticket} (h : s.consumer.held = [t]) :
    s.outstanding = t :: s.queued := by
  rw [Upstream.outstanding, h]
  rfl

theorem finishSend_moves {s s₀ : Upstream} {t : Ticket} {r : SendResult} {reached : List Nat}
    (step : Step) (h : s₀.consumer = .holding t) (hr : reached = [] ∨ reached = [t.id])
    (hpub : r = .pubError → reached = [t.id])
    (hs : s = { s₀ with published := s₀.published ++ reached }) :
    Moves s₀ (finishSend r t s) step := by
  subst hs
  have hout : s₀.outstanding = t :: s₀.queued := outstanding_held (by rw [h]; rfl)
  unfold finishSend
  dsimp only
  split
  · rename_i hretry
    rw [hpub hretry.1]
    exact .retry t { t with exchange.maxSendCount := t.exchange.maxSendCount - 1 }
      s₀.queued hout rfl rfl rfl rfl rfl rfl
  · exact .finish t s₀.queued reached r.error hout rfl rfl hr rfl rfl

theorem publish_moves (s : Upstream) (r : SendResult) (step : Step) :
    Moves s (consumerPublish r s) step := by
  unfold consumerPublish
  split
  · rename_i t hc
    split
    · rename_i e
      exact finishSend_moves step hc (.inl rfl) (fun h => nomatch h) (by simp)
    · exact finishSend_moves step hc (.inr rfl) (fun _ => rfl) rfl
  · exact .quiet rfl rfl rfl rfl

theorem pushBack_moves (s : Upstream) (alloc : Bool) :
    Moves s (consumerPushBack alloc s) (.pushBack alloc) := by
  unfold consumerPushBack
  split
  · rename_i t hc
    have hout : s.outstanding = t :: s.queued := outstanding_held (by rw [hc]; rfl)
    have hback : (s.queue.pushHead alloc (.exchange t)).2.elems = .exchange t :: s.queue.elems →
        ((s.queue.pushHead alloc (.exchange t)).2.elems.filterMap Entry.ticket?) =
          s.outstanding := by
      intro helems
      rw [helems, hout]
      rfl
    by_cases hroom : (Step.pushBack alloc).Harmless s
    · obtain ⟨hfull, halloc⟩ := hroom (by simp [hc])
      exact .quiet (hback (Queue.pushHead_elems hfull halloc)) rfl rfl rfl
    · rcases s.queue.pushHead_cases alloc (.exchange t) with helems | hsame
      · exact .quiet (hback helems) rfl rfl rfl
      · refine .drop t hroom ?_ rfl rfl rfl
        rw [hout, hsame]
        rfl
  · exact .quiet rfl rfl rfl rfl

/-- Everything a step can do to the messages. -/
theorem apply_moves (s : Upstream) (step : Step) : Moves s (step.apply s) step := by
  cases step with
  | send p alloc pubmsg =>
      change Moves s (sendPrepare p alloc pubmsg s) _
      unfold sendPrepare
      split <;> exact .quiet rfl rfl rfl rfl
  | push p alloc => exact push_moves s p alloc _
  | pushAgain p alloc => exact pushAgain_moves s p alloc _
  | pop => exact pop_moves s _
  | publish r => exact publish_moves s r _
  | pushBack alloc => exact pushBack_moves s alloc

/-! ## Order -/

/-- Every number in the list that is smaller than an earlier one has occurred
before that one: first occurrences are in increasing order. -/
def FirstsInOrder (l : List Nat) : Prop :=
  ∀ pre j post, l = pre ++ j :: post → ∀ i, i < j → i ∈ post → i ∈ pre

theorem FirstsInOrder.concat {l : List Nat} {n : Nat} (h : FirstsInOrder l)
    (hmax : ∀ m ∈ l, m ≤ n) : FirstsInOrder (l ++ [n]) := by
  intro pre j post heq i hij hi
  rcases List.eq_nil_or_concat post with rfl | ⟨post', x, rfl⟩
  · simp at hi
  · have hsplit : l ++ [n] = (pre ++ j :: post') ++ [x] := by simpa using heq
    rcases List.append_inj' hsplit rfl with ⟨hl, hx⟩
    cases hx
    rw [List.concat_eq_append] at hi
    rcases List.mem_append.mp hi with hold | hnew
    · exact h pre j post' hl i hij hold
    · rw [List.mem_singleton] at hnew
      subst hnew
      have hle := hmax j (by rw [hl]; simp)
      omega

/-- What holds of the messages whatever the queue does. -/
structure InOrder (s : Upstream) : Prop where
  sorted : s.outstanding.Pairwise (·.id < ·.id)
  known : ∀ t ∈ s.outstanding, s.accepted[t.id]? = some t.exchange.msg
  passed : ∀ p ∈ s.published, p < s.accepted.length ∧ ∀ t ∈ s.outstanding, p ≤ t.id
  firsts : FirstsInOrder s.published
  acks : ∀ a ∈ s.acks, ∃ m e, s.accepted[a.1]? = some m ∧ a.2 = publishAck e m

theorem inOrder_init (maxSize : UInt16) : InOrder (.init maxSize) where
  sorted := List.Pairwise.nil
  known := by simp [Upstream.init, Upstream.outstanding, Upstream.queued, Consumer.held, Queue.init]
  passed := by simp [Upstream.init]
  firsts := by
    intro pre j post heq
    simp [Upstream.init] at heq
  acks := by simp [Upstream.init]

theorem lt_of_known {α : Type} {l : List α} {i : Nat} {a : α} (h : l[i]? = some a) :
    i < l.length := (List.getElem?_eq_some_iff.mp h).choose

theorem mem_of_rest {s : Upstream} {t u : Ticket} {rest : List Ticket}
    (hout : s.outstanding = t :: rest) (hu : u ∈ rest) : u ∈ s.outstanding := by
  rw [hout]
  exact List.mem_cons_of_mem t hu

theorem mem_of_head {s : Upstream} {t : Ticket} {rest : List Ticket}
    (hout : s.outstanding = t :: rest) : t ∈ s.outstanding := by
  rw [hout]
  exact List.mem_cons_self

theorem InOrder.ordered {s : Upstream} {t : Ticket} {rest : List Ticket} (h : InOrder s)
    (hout : s.outstanding = t :: rest) :
    (∀ u ∈ rest, t.id < u.id) ∧ rest.Pairwise (·.id < ·.id) := by
  have hsorted := h.sorted
  rwa [hout, List.pairwise_cons] at hsorted

/-- Only the oldest message is published, and it may be published again. -/
theorem InOrder.publish {s : Upstream} {t : Ticket} {rest : List Ticket} (h : InOrder s)
    (hout : s.outstanding = t :: rest) :
    (∀ p ∈ s.published ++ [t.id], p < s.accepted.length ∧ ∀ u ∈ s.outstanding, p ≤ u.id) ∧
      FirstsInOrder (s.published ++ [t.id]) := by
  constructor
  · intro p hp
    rw [List.mem_append, List.mem_singleton] at hp
    rcases hp with hold | rfl
    · exact h.passed p hold
    · refine ⟨lt_of_known (h.known t (mem_of_head hout)), fun u hu => ?_⟩
      rw [hout] at hu
      rcases List.mem_cons.mp hu with rfl | hrest
      · exact Nat.le_refl _
      · exact ((h.ordered hout).1 u hrest).le
  · exact h.firsts.concat fun p hp => (h.passed p hp).2 t (mem_of_head hout)

theorem InOrder.move {s s' : Upstream} {step : Step} (h : InOrder s) (hm : Moves s s' step) :
    InOrder s' := by
  cases hm with
  | quiet hout hacc hpub hack =>
      constructor
      · rw [hout]; exact h.sorted
      · rw [hout, hacc]; exact h.known
      · rw [hout, hacc, hpub]; exact h.passed
      · rw [hpub]; exact h.firsts
      · rw [hack, hacc]; exact h.acks
  | accept e hout hacc hpub hack =>
      have hgrow : ∀ {i : Nat} {m : PubmsgV3}, s.accepted[i]? = some m →
          s'.accepted[i]? = some m := by
        intro i m hget
        rw [hacc, List.getElem?_append_left (lt_of_known hget), hget]
      constructor
      · rw [hout, List.pairwise_append]
        refine ⟨h.sorted, List.pairwise_singleton _ _, ?_⟩
        intro t ht t' ht'
        rw [List.mem_singleton] at ht'
        subst ht'
        exact lt_of_known (h.known t ht)
      · intro t ht
        rw [hout, List.mem_append, List.mem_singleton] at ht
        rcases ht with hold | rfl
        · exact hgrow (h.known t hold)
        · rw [hacc]
          simp
      · rw [hpub]
        intro p hp
        rcases h.passed p hp with ⟨hlt, hle⟩
        refine ⟨by rw [hacc, List.length_append]; omega, fun t ht => ?_⟩
        rw [hout, List.mem_append, List.mem_singleton] at ht
        rcases ht with hold | rfl
        · exact hle t hold
        · exact hlt.le
      · rw [hpub]; exact h.firsts
      · rw [hack]
        intro a ha
        obtain ⟨m, err, hget, hmsg⟩ := h.acks a ha
        exact ⟨m, err, hgrow hget, hmsg⟩
  | retry t t' rest hout hout' hid hmsg hacc hpub hack =>
      obtain ⟨hpassed, hfirsts⟩ := h.publish hout
      constructor
      · rw [hout', List.pairwise_cons, hid]; exact h.ordered hout
      · intro u hu
        rw [hout'] at hu
        rcases List.mem_cons.mp hu with rfl | hrest
        · rw [hid, hmsg, hacc]; exact h.known t (mem_of_head hout)
        · rw [hacc]; exact h.known u (mem_of_rest hout hrest)
      · rw [hpub, hout', hacc]
        intro p hp
        refine ⟨(hpassed p hp).1, fun u hu => ?_⟩
        rcases List.mem_cons.mp hu with rfl | hrest
        · rw [hid]; exact (hpassed p hp).2 t (mem_of_head hout)
        · exact (hpassed p hp).2 u (mem_of_rest hout hrest)
      · rw [hpub]; exact hfirsts
      · rw [hack, hacc]; exact h.acks
  | finish t rest reached err hout hout' hacc hreached hpub hack =>
      obtain ⟨hpassed, hfirsts⟩ := h.publish hout
      constructor
      · rw [hout']; exact (h.ordered hout).2
      · rw [hout', hacc]; exact fun u hu => h.known u (mem_of_rest hout hu)
      · rw [hpub, hout', hacc]
        intro p hp
        -- a message that did not reach the broker is finished without being published
        have hp' : p ∈ s.published ++ [t.id] := by
          rcases hreached with rfl | rfl
          · rw [List.append_nil] at hp
            exact List.mem_append_left _ hp
          · exact hp
        exact ⟨(hpassed p hp').1, fun u hu => (hpassed p hp').2 u (mem_of_rest hout hu)⟩
      · rw [hpub]
        rcases hreached with rfl | rfl
        · simpa using h.firsts
        · exact hfirsts
      · rw [hack, hacc]
        intro a ha
        rw [List.mem_append, List.mem_singleton] at ha
        rcases ha with hold | rfl
        · exact h.acks a hold
        · exact ⟨_, err, h.known t (mem_of_head hout), rfl⟩
  | drop t _ hout hacc hpub hack =>
      constructor
      · exact (h.ordered hout).2
      · rw [hacc]; exact fun u hu => h.known u (mem_of_rest hout hu)
      · rw [hpub, hacc]
        exact fun p hp =>
          ⟨(h.passed p hp).1, fun u hu => (h.passed p hp).2 u (mem_of_rest hout hu)⟩
      · rw [hpub]; exact h.firsts
      · rw [hack, hacc]; exact h.acks

/-! ## Conservation -/

/-- Every accepted message is outstanding or acknowledged, exactly once. -/
def Conserved (s : Upstream) : Prop :=
  (s.acks.map (·.1) ++ s.outstanding.map (·.id)).Perm (List.range s.accepted.length)

theorem Conserved.move {s s' : Upstream} {step : Step} (h : Conserved s)
    (hroom : step.Harmless s) (hm : Moves s s' step) : Conserved s' := by
  unfold Conserved at *
  cases hm with
  | quiet hout hacc _ hack => rwa [hout, hacc, hack]
  | accept e hout hacc _ hack =>
      rw [hout, hacc, hack, List.map_append, ← List.append_assoc, List.length_append,
        List.length_singleton, List.range_succ]
      exact h.append_right _
  | retry t t' rest hout hout' hid _ hacc _ hack =>
      rw [hout', hacc, hack, List.map_cons, hid]
      rwa [hout, List.map_cons] at h
  | finish t rest reached err hout hout' hacc _ _ hack =>
      rw [hout', hacc, hack, List.map_append, List.append_assoc]
      rwa [hout, List.map_cons] at h
  | drop t hno _ _ _ _ => exact absurd hroom hno

/-! ## Freed exchanges -/

/-- No freed exchange is in the queue, and none was taken from it. -/
def Intact (s : Upstream) : Prop := Entry.freed ∉ s.queue.elems ∧ s.readFreed = false

theorem Intact.sendPush {s : Upstream} (h : Intact s) (p : Nat) (alloc : Bool) :
    Intact (sendPush p alloc s) := by
  unfold Kernel.sendPush
  split
  · rename_i e hp
    have hfree : Entry.freed ∉
        (s.queue.push alloc (.exchange ⟨s.accepted.length, e⟩)).2.elems := by
      rcases s.queue.push_cases alloc (.exchange ⟨s.accepted.length, e⟩) with
        ⟨-, helems⟩ | ⟨-, hsame⟩
      · simpa [helems] using h.1
      · rw [hsame]
        exact h.1
    split <;> rename_i hq <;> rw [hq] at hfree <;> exact ⟨hfree, h.2⟩
  · exact h

theorem Intact.sendPushAgain {s : Upstream} (h : Intact s) {p : Nat} {alloc : Bool}
    (hfails : (Step.pushAgain p alloc).Harmless s) : Intact (sendPushAgain p alloc s) := by
  unfold Kernel.sendPushAgain
  split
  · rename_i e hp
    rw [Queue.push_refused (hfails ⟨e, hp⟩)]
    exact h
  · exact h

theorem Intact.consumerPop {s : Upstream} (h : Intact s) : Intact (consumerPop s) := by
  unfold Kernel.consumerPop
  split
  · split
    · exact h
    · rename_i hpop
      exact ⟨fun hmem => h.1 (Queue.pop_some hpop ▸ List.mem_cons_of_mem _ hmem), h.2⟩
    · rename_i hpop
      exact absurd (Queue.pop_some hpop ▸ List.mem_cons_self) h.1
  · exact h

theorem Intact.consumerPublish {s : Upstream} (h : Intact s) (r : SendResult) :
    Intact (consumerPublish r s) := by
  unfold Kernel.consumerPublish finishSend
  split
  · split <;> dsimp only <;> split <;> exact h
  · exact h

theorem Intact.consumerPushBack {s : Upstream} (h : Intact s) (alloc : Bool) :
    Intact (consumerPushBack alloc s) := by
  unfold Kernel.consumerPushBack
  split
  · rename_i t hc
    rcases s.queue.pushHead_cases alloc (.exchange t) with helems | hsame
    · exact ⟨by simpa [helems] using h.1, h.2⟩
    · exact ⟨by simpa [hsame] using h.1, h.2⟩
  · exact h

theorem Intact.apply {s : Upstream} {step : Step} (h : Intact s) (hstep : step.Harmless s) :
    Intact (step.apply s) := by
  cases step with
  | send p alloc pubmsg =>
      change Intact (sendPrepare p alloc pubmsg s)
      unfold sendPrepare
      split <;> exact h
  | push p alloc => exact h.sendPush p alloc
  | pushAgain p alloc => exact h.sendPushAgain hstep
  | pop => exact h.consumerPop
  | publish r => exact h.consumerPublish r
  | pushBack alloc => exact h.consumerPushBack alloc

/-! ## Runs -/

section Runs

variable (maxSize : UInt16) (run : List Step)

/-- The system before step `n`. -/
abbrev upstreamAt (n : Nat) : Upstream := stateAt Step.apply (.init maxSize) run n

/-- Every push-back of the run finds room, and no push that failed is made good by the
log line. -/
def RoomyRun : Prop :=
  ∀ (n : Nat) (step : Step), run[n]? = some step → step.Harmless (upstreamAt maxSize run n)

/-- The promise about accepted messages, at one moment. -/
structure Delivered (s : Upstream) : Prop where
  /-- message `i` is in the queue once, held by the consumer, or acknowledged once -/
  once : ∀ i, i < s.accepted.length →
    (s.queued.map (·.id)).count i + (s.consumer.held.map (·.id)).count i +
      (s.acks.map (·.1)).count i = 1
  /-- the consumer works on accepted messages only, not on freed memory -/
  intact : s.readFreed = false
  /-- an acknowledgement carries the number and the names of its message -/
  acks : ∀ a ∈ s.acks, ∃ m e, s.accepted[a.1]? = some m ∧ a.2 = publishAck e m
  /-- messages reach `MQTTPublish` for the first time in the order of acceptance -/
  order : FirstsInOrder s.published

/-- The promise over a whole run. -/
def DeliveredRun : Prop := ∀ n, n ≤ run.length → Delivered (upstreamAt maxSize run n)

variable {maxSize run}

theorem inOrder_upstreamAt {n : Nat} (hn : n ≤ run.length) :
    InOrder (upstreamAt maxSize run n) := by
  refine stateAt_induction Step.apply (I := fun _ s => InOrder s) (inOrder_init maxSize) ?_ n hn
  exact fun m step _ h => h.move (apply_moves _ step)

theorem conserved_upstreamAt (hroom : RoomyRun maxSize run) {n : Nat} (hn : n ≤ run.length) :
    Conserved (upstreamAt maxSize run n) := by
  have hinit : Conserved (.init maxSize) := List.Perm.refl []
  refine stateAt_induction Step.apply (I := fun _ s => Conserved s) hinit ?_ n hn
  exact fun m step hget h => h.move (hroom m step hget) (apply_moves _ step)

theorem intact_upstreamAt (hroom : RoomyRun maxSize run) {n : Nat} (hn : n ≤ run.length) :
    Intact (upstreamAt maxSize run n) := by
  have hinit : Intact (.init maxSize) := ⟨List.not_mem_nil, rfl⟩
  refine stateAt_induction Step.apply (I := fun _ s => Intact s) hinit ?_ n hn
  exact fun m step hget h => h.apply (hroom m step hget)

theorem Conserved.once {s : Upstream} (h : Conserved s) {i : Nat} (hi : i < s.accepted.length) :
    (s.queued.map (·.id)).count i + (s.consumer.held.map (·.id)).count i +
      (s.acks.map (·.1)).count i = 1 := by
  have hcount := h.count_eq i
  rw [List.count_eq_one_of_mem List.nodup_range (List.mem_range.mpr hi), List.count_append,
    Upstream.outstanding, List.map_append, List.count_append] at hcount
  omega

/-- No accepted message is lost, duplicated or overtaken, in every run whose
push-backs find room in the queue and whose failed pushes fail again. -/
theorem delivered_of_room (maxSize : UInt16) (run : List Step) (hroom : RoomyRun maxSize run) :
    DeliveredRun maxSize run := by
  intro n hn
  have horder : InOrder (upstreamAt maxSize run n) := inOrder_upstreamAt hn
  exact ⟨fun i hi => (conserved_upstreamAt hroom hn).once hi, (intact_upstreamAt hroom hn).2,
    horder.acks, horder.firsts⟩

end Runs

/-! ### A retried message, a lost one and a freed one -/

def sampleMessage : PubmsgV3 where
  msgResponse := false
  msgQos := .t1
  msgSeq := 0
  msgBody := ascii "1"
  resourceId := .strncpy (.lit "0")
  resourceType := .strncpy (.lit "Video")
  module := .strncpy (.lit "basic")
  method := .strncpy (.lit "shadow")
  msgType := .strncpy (.lit "report")
  subSerial := .strncpy (.lit "SUB1")
  extMsg := .strncpy (.lit "")

/-- A producer sends the sample message and it is accepted. -/
def sendSample : List Step := [.send 0 ⟨true, true⟩ (some sampleMessage), .push 0 true]

/-- The first attempt fails, the second one is published. -/
def retriedRun : List Step :=
  sendSample ++ [.pop, .publish .pubError, .pushBack true, .pop, .publish .published]

theorem retriedRun_delivered : DeliveredRun 64 retriedRun :=
  delivered_of_room _ _ (by
    intro n step hget
    match n with
    | 4 =>
        cases hget
        exact fun _ => by decide
    | 0 | 1 | 2 | 3 | 5 | 6 =>
        cases hget
        trivial
    | _ + 7 => cases hget)

/-- While the first message is being published, 64 further ones fill the queue. -/
def lostMessageRun : List Step :=
  sendSample ++ [.pop, .publish .pubError] ++ (List.replicate 64 sendSample).flatten ++
    [.pushBack true]

theorem lostMessageRun_not_delivered : ¬ DeliveredRun 64 lostMessageRun := by
  intro h
  have honce := (h lostMessageRun.length (Nat.le_refl _)).once 0 (by decide +kernel)
  revert honce
  decide +kernel

/-- An element cannot be allocated; the push in the log line gets one. -/
def repeatedPushRun : List Step :=
  [.send 0 ⟨true, true⟩ (some sampleMessage), .push 0 false, .pushAgain 0 true, .pop]

theorem repeatedPushRun_not_delivered : ¬ DeliveredRun 64 repeatedPushRun := fun h =>
  Bool.false_ne_true (h 4 (Nat.le_refl _)).intact.symm

end EzIot.Kernel
