import EzIot.Kernel.Queue
import EzIot.Lib.Links
import EzIot.Lib.Run

/-! # The queues as linked elements

The macros keep a queue as elements that are linked from the head to the tail, beside a
16-bit count. What it is meant for is a list of messages with a bound.
-/

namespace EzIot.Kernel

open Links Run

/-! ## The linked elements -/

/-- `queque_element_##MSGTYPE`. -/
structure QueueElement (α μ : Type) where
  msg : μ
  next : Option α

/-- `queque_##MSGTYPE` and the elements that are allocated. -/
structure LinkedQueue (α μ : Type) where
  maxsize : UInt16
  size : UInt16
  head : Option α
  tail : Option α
  element : α → Option (QueueElement α μ)

inductive QueueOp (μ : Type)
  | push (submsg : μ)
  | pushHead (submsg : μ)
  | pop
  | get

namespace LinkedQueue

variable {α μ : Type}

/-- `QUEUE_INIT`, in a memory of elements. -/
def init (maxSize : UInt16) (element : α → Option (QueueElement α μ)) : LinkedQueue α μ :=
  ⟨maxSize, 0, none, none, element⟩

/-- The link behind an element. -/
def link (q : LinkedQueue α μ) (a : α) : Option α := (q.element a).bind QueueElement.next

def msgAt (q : LinkedQueue α μ) (a : α) : Option μ := (q.element a).map QueueElement.msg

variable [DecidableEq α]

def store (q : LinkedQueue α μ) (a : α) (e : Option (QueueElement α μ)) : LinkedQueue α μ :=
  { q with element := Function.update q.element a e }

@[simp] theorem store_maxsize (q : LinkedQueue α μ) (a : α) (e : Option (QueueElement α μ)) :
    (q.store a e).maxsize = q.maxsize := rfl

@[simp] theorem store_size (q : LinkedQueue α μ) (a : α) (e : Option (QueueElement α μ)) :
    (q.store a e).size = q.size := rfl

@[simp] theorem store_head (q : LinkedQueue α μ) (a : α) (e : Option (QueueElement α μ)) :
    (q.store a e).head = q.head := rfl

@[simp] theorem store_tail (q : LinkedQueue α μ) (a : α) (e : Option (QueueElement α μ)) :
    (q.store a e).tail = q.tail := rfl

theorem store_link (q : LinkedQueue α μ) (a : α) (e : Option (QueueElement α μ)) :
    (q.store a e).link = Function.update q.link a (e.bind QueueElement.next) := by
  funext x
  by_cases hx : x = a
  · subst hx
    simp [link, store]
  · simp [link, store, Function.update_of_ne hx]

theorem store_msgAt (q : LinkedQueue α μ) (a : α) (e : Option (QueueElement α μ)) :
    (q.store a e).msgAt = Function.update q.msgAt a (e.map QueueElement.msg) := by
  funext x
  by_cases hx : x = a
  · subst hx
    simp [msgAt, store]
  · simp [msgAt, store, Function.update_of_ne hx]

/-- `tail->next = ..`; there is no result where nothing is allocated there. -/
def setNext (q : LinkedQueue α μ) (a : α) (v : Option α) : Option (LinkedQueue α μ) :=
  (q.element a).map fun e => q.store a (some { e with next := v })

def push (alloc : Option α) (submsg : μ) (q : LinkedQueue α μ) :
    Option (MkernelError × LinkedQueue α μ) :=
  if q.maxsize ≤ q.size then some (.queueFull, q)
  else
    match alloc with
    | none => some (.mallocError, q)
    | some element =>
        let q := q.store element (some ⟨submsg, none⟩)
        match q.tail, q.head with
        | some tail, some _ =>
            (q.setNext tail (some element)).map fun q =>
              (.succ, { q with tail := some element, size := q.size + 1 })
        | _, _ =>
            some (.succ, { q with head := some element, tail := some element, size := q.size + 1 })

def pushHead (alloc : Option α) (submsg : μ) (q : LinkedQueue α μ) :
    Option (MkernelError × LinkedQueue α μ) :=
  if q.maxsize ≤ q.size then some (.queueFull, q)
  else
    match alloc with
    | none => some (.mallocError, q)
    | some element =>
        let q := q.store element (some ⟨submsg, none⟩)
        match q.tail, q.head with
        | some _, some head =>
            (q.setNext element (some head)).map fun q =>
              (.succ, { q with head := some element, size := q.size + 1 })
        | _, _ =>
            some (.succ, { q with head := some element, tail := some element, size := q.size + 1 })

def reset (q : LinkedQueue α μ) : LinkedQueue α μ := { q with tail := none, size := 0 }

def pop (q : LinkedQueue α μ) : Option (MkernelError × Option μ × LinkedQueue α μ) :=
  match q.head with
  | none => some (.queueEmpty, none, q.reset)
  | some element =>
      (q.element element).map fun e =>
        let q := { q with head := e.next }
        let q := if q.head.isNone then q.reset else { q with size := q.size - 1 }
        (.succ, some e.msg, q.store element none)

def get (q : LinkedQueue α μ) : Option (MkernelError × Option μ × LinkedQueue α μ) :=
  match q.head with
  | none => some (.queueEmpty, none, q.reset)
  | some element => (q.element element).map fun e => (.succ, some e.msg, q)

/-- An operation: its result and its message. -/
def run (alloc : Option α) (q : LinkedQueue α μ) :
    QueueOp μ → Option ((MkernelError × Option μ) × LinkedQueue α μ)
  | .push submsg => (q.push alloc submsg).map fun r => ((r.1, none), r.2)
  | .pushHead submsg => (q.pushHead alloc submsg).map fun r => ((r.1, none), r.2)
  | .pop => q.pop.map fun r => ((r.1, r.2.1), r.2.2)
  | .get => q.get.map fun r => ((r.1, r.2.1), r.2.2)

end LinkedQueue

/-! ## The bounded list of messages -/

/-- An operation on the list: its result, its message and what is left. -/
def QueueOp.meant {μ : Type} (maxSize : Nat) (alloc : Bool) (msgs : List μ) :
    QueueOp μ → (MkernelError × Option μ) × List μ
  | .push submsg =>
      if maxSize ≤ msgs.length then ((.queueFull, none), msgs)
      else if alloc then ((.succ, none), msgs ++ [submsg])
      else ((.mallocError, none), msgs)
  | .pushHead submsg =>
      if maxSize ≤ msgs.length then ((.queueFull, none), msgs)
      else if alloc then ((.succ, none), submsg :: msgs)
      else ((.mallocError, none), msgs)
  | .pop =>
      match msgs with
      | [] => ((.queueEmpty, none), [])
      | submsg :: rest => ((.succ, some submsg), rest)
  | .get =>
      match msgs with
      | [] => ((.queueEmpty, none), [])
      | submsg :: rest => ((.succ, some submsg), submsg :: rest)

/-- The elements from the head to the tail hold the messages, and are counted. -/
structure LinkedQueue.Holds {α μ : Type} (q : LinkedQueue α μ) (addrs : List α) (msgs : List μ) :
    Prop where
  chain : Chain q.link q.head addrs none
  distinct : addrs.Nodup
  tail : q.tail = addrs.getLast?
  messages : addrs.map q.msgAt = msgs.map some
  size : q.size.toNat = msgs.length
  bounded : q.size ≤ q.maxsize

namespace LinkedQueue.Holds

variable {α μ : Type} {q : LinkedQueue α μ} {addrs : List α} {msgs : List μ} {a x : α} {m : μ}

theorem length (h : q.Holds addrs msgs) : addrs.length = msgs.length := by
  have hlength := congrArg List.length h.messages
  rwa [List.length_map, List.length_map] at hlength

theorem head (h : q.Holds addrs msgs) : q.head = addrs.head? := h.chain.head

theorem eq_nil_iff (h : q.Holds addrs msgs) : addrs = [] ↔ msgs = [] := by
  rw [List.eq_nil_iff_length_eq_zero, h.length, ← List.eq_nil_iff_length_eq_zero]

theorem allocated (h : q.Holds addrs msgs) (hx : x ∈ addrs) : ∃ e, q.element x = some e := by
  have hmem : q.msgAt x ∈ msgs.map some := h.messages ▸ List.mem_map_of_mem hx
  obtain ⟨m, -, hm⟩ := List.mem_map.mp hmem
  obtain ⟨e, he, -⟩ := Option.map_eq_some_iff.mp hm.symm
  exact ⟨e, he⟩

theorem fresh (h : q.Holds addrs msgs) (ha : q.element a = none) : a ∉ addrs := by
  intro hmem
  obtain ⟨e, he⟩ := h.allocated hmem
  rw [ha] at he
  cases he

theorem map_update_of_notMem {f : α → Option μ} [DecidableEq α] (hx : x ∉ addrs)
    (v : Option μ) : addrs.map (Function.update f x v) = addrs.map f := by
  refine List.map_congr_left fun y hy => ?_
  have hne : y ≠ x := fun heq => hx (heq ▸ hy)
  exact Function.update_of_ne hne v f

theorem room (h : q.Holds addrs msgs) (hfull : ¬ q.maxsize ≤ q.size) :
    (q.size + 1).toNat = msgs.length + 1 ∧ q.size + 1 ≤ q.maxsize := by
  have hlt : q.size < q.maxsize := UInt16.not_le.mp hfull
  have hsucc := Queue.toNat_succ hlt
  have hbound := UInt16.lt_iff_toNat_lt.mp hlt
  rw [hsucc, h.size, UInt16.le_iff_toNat_le, hsucc]
  exact ⟨rfl, hbound⟩

theorem distinct_concat (h : q.Holds addrs msgs) (hnew : a ∉ addrs) : (addrs ++ [a]).Nodup :=
  List.nodup_append.mpr ⟨h.distinct, List.nodup_singleton a, fun x hx y hy heq => by
    rw [List.mem_singleton.mp hy] at heq
    exact hnew (heq ▸ hx)⟩

theorem reset (h : q.Holds [] []) : q.reset = q := by
  have htail : q.tail = none := h.tail
  have hsize : q.size = 0 := UInt16.toNat_inj.mp h.size
  unfold LinkedQueue.reset
  rw [← htail, ← hsize]

theorem first (h : q.Holds (x :: addrs) (m :: msgs)) :
    ∃ e, q.element x = some e ∧ e.msg = m ∧ e.next = addrs.head? := by
  obtain ⟨e, he⟩ := h.allocated (x := x) List.mem_cons_self
  have hmessages := h.messages
  rw [List.map_cons, List.map_cons, List.cons.injEq] at hmessages
  have hmsg : q.msgAt x = some e.msg := by rw [msgAt, he]; rfl
  have hlink : q.link x = e.next := by rw [link, he]; rfl
  refine ⟨e, he, Option.some_inj.mp (hmsg.symm.trans hmessages.1), ?_⟩
  rw [← hlink]
  exact h.chain.2.head

variable [DecidableEq α]

theorem single (h : q.Holds [] []) (hfull : ¬ q.maxsize ≤ q.size) :
    Holds { q.store a (some ⟨m, none⟩) with
      head := some a, tail := some a, size := q.size + 1 } [a] [m] := by
  have hroom := h.room hfull
  refine ⟨⟨rfl, ?_⟩, List.nodup_singleton a, rfl, ?_, hroom.1, hroom.2⟩
  · show (q.store a (some ⟨m, none⟩)).link a = none
    rw [store_link, Function.update_self]
    rfl
  · show [(q.store a (some ⟨m, none⟩)).msgAt a] = _
    rw [store_msgAt, Function.update_self]
    rfl

theorem push (h : q.Holds addrs msgs) (hfull : ¬ q.maxsize ≤ q.size) (ha : q.element a = none) :
    ∃ q', q.push (some a) m = some (.succ, q') ∧ q'.Holds (addrs ++ [a]) (msgs ++ [m]) := by
  have hroom := h.room hfull
  have hnew := h.fresh ha
  have hdistinct := h.distinct_concat hnew
  rcases List.eq_nil_or_concat' addrs with rfl | ⟨front, t, rfl⟩
  · obtain rfl : msgs = [] := h.eq_nil_iff.mp rfl
    have htail : q.tail = none := h.tail
    refine ⟨_, ?_, h.single hfull⟩
    simp [LinkedQueue.push, hfull, htail]
  · have hta : t ≠ a := fun heq => hnew (by simp [heq])
    have htf : t ∉ front := fun hmem => (List.nodup_append.mp h.distinct).2.2 t hmem t (by simp) rfl
    have htail : q.tail = some t := by rw [h.tail, List.getLast?_concat]
    obtain ⟨x, hhead⟩ : ∃ x, q.head = some x := by
      rw [h.head]
      cases front <;> simp
    obtain ⟨e, he⟩ := h.allocated (x := t) (by simp)
    have hstored : (q.store a (some ⟨m, none⟩)).element t = some e := by
      simp [store, Function.update_of_ne hta, he]
    have hpush : q.push (some a) m = some (.succ,
        { (q.store a (some ⟨m, none⟩)).store t (some { e with next := some a }) with
          tail := some a, size := q.size + 1 }) := by
      simp [LinkedQueue.push, hfull, htail, hhead, setNext, hstored]
    refine ⟨_, hpush, ?_, hdistinct, ?_, ?_, ?_, hroom.2⟩
    · show Chain ((q.store a _).store t _).link q.head _ none
      have hchain := (h.chain.update hnew none).redirect htf (some a)
      rw [store_link, store_link]
      refine chain_append_cons.mpr ⟨hchain, ?_⟩
      rw [Function.update_of_ne hta.symm, Function.update_self]
      rfl
    · exact (List.getLast?_concat).symm
    · -- the message of the last element stays while its link is written
      have hmsg : Function.update q.msgAt a (some m) t = some e.msg := by
        rw [Function.update_of_ne hta, msgAt, he]
        rfl
      show List.map ((q.store a _).store t _).msgAt _ = _
      rw [store_msgAt, store_msgAt, Option.map_some, Option.map_some, ← hmsg,
        Function.update_eq_self, List.map_append, map_update_of_notMem hnew, h.messages,
        List.map_singleton, Function.update_self, List.map_append, List.map_singleton]
    · rw [List.length_append, List.length_singleton]
      exact hroom.1

theorem pushHead (h : q.Holds addrs msgs) (hfull : ¬ q.maxsize ≤ q.size)
    (ha : q.element a = none) :
    ∃ q', q.pushHead (some a) m = some (.succ, q') ∧ q'.Holds (a :: addrs) (m :: msgs) := by
  have hroom := h.room hfull
  have hnew := h.fresh ha
  rcases List.eq_nil_or_concat' addrs with rfl | ⟨front, t, rfl⟩
  · obtain rfl : msgs = [] := h.eq_nil_iff.mp rfl
    have htail : q.tail = none := h.tail
    refine ⟨_, ?_, h.single hfull⟩
    simp [LinkedQueue.pushHead, hfull, htail]
  · have htail : q.tail = some t := by rw [h.tail, List.getLast?_concat]
    obtain ⟨x, hhead⟩ : ∃ x, q.head = some x := by
      rw [h.head]
      cases front <;> simp
    have hstored : (q.store a (some ⟨m, none⟩)).element a = some ⟨m, none⟩ :=
      Function.update_self a _ _
    have hpush : q.pushHead (some a) m = some (.succ,
        { (q.store a (some ⟨m, none⟩)).store a (some ⟨m, some x⟩) with
          head := some a, size := q.size + 1 }) := by
      simp [LinkedQueue.pushHead, hfull, htail, hhead, setNext, hstored]
    refine ⟨_, hpush, ⟨rfl, ?_⟩, List.nodup_cons.mpr ⟨hnew, h.distinct⟩, ?_, ?_, ?_, hroom.2⟩
    · show Chain ((q.store a _).store a _).link (((q.store a _).store a _).link a) _ none
      have hchain := (h.chain.update hnew none).update hnew (some x)
      rw [store_link, store_link, Function.update_self]
      rwa [hhead] at hchain
    · show q.tail = _
      rw [h.tail, ← List.cons_append, List.getLast?_concat, List.getLast?_concat]
    · show List.map ((q.store a _).store a _).msgAt _ = _
      rw [store_msgAt, store_msgAt, List.map_cons, Function.update_self, map_update_of_notMem hnew,
        map_update_of_notMem hnew, h.messages]
      rfl
    · exact hroom.1

theorem pop (h : q.Holds (x :: addrs) (m :: msgs)) :
    ∃ q', q.pop = some (.succ, some m, q') ∧ q'.Holds addrs msgs := by
  obtain ⟨e, he, hmsg, hnext⟩ := h.first
  subst hmsg
  obtain ⟨hx, hdistinct⟩ := List.nodup_cons.mp h.distinct
  have hhead : q.head = some x := h.head
  have hchain : Chain (Function.update q.link x none) addrs.head? addrs none := by
    have hrest := h.chain.2
    rw [hrest.head] at hrest
    exact hrest.update hx none
  have hmessages : addrs.map (Function.update q.msgAt x none) = msgs.map some := by
    have hall := h.messages
    rw [List.map_cons, List.map_cons, List.cons.injEq] at hall
    rw [map_update_of_notMem hx]
    exact hall.2
  cases addrs with
  | nil =>
      obtain rfl : msgs = [] := List.eq_nil_of_length_eq_zero (by simpa using h.length.symm)
      have hpop : q.pop = some (.succ, some e.msg,
          ({ q with head := none, tail := none, size := 0 } : LinkedQueue α μ).store x none) := by
        simp [LinkedQueue.pop, hhead, he, hnext, LinkedQueue.reset]
      exact ⟨_, hpop, rfl, .nil, rfl, rfl, rfl, UInt16.le_iff_toNat_le.mpr (Nat.zero_le _)⟩
  | cons y addrs =>
      have hpop : q.pop = some (.succ, some e.msg,
          ({ q with head := some y, size := q.size - 1 } : LinkedQueue α μ).store x none) := by
        simp [LinkedQueue.pop, hhead, he, hnext]
      have hsize := h.size
      rw [List.length_cons] at hsize
      have hpred : (q.size - 1).toNat = q.size.toNat - 1 := Queue.toNat_pred (by omega)
      have hbound := UInt16.le_iff_toNat_le.mp h.bounded
      refine ⟨_, hpop, ?_, hdistinct, ?_, ?_, ?_, UInt16.le_iff_toNat_le.mpr ?_⟩
      · show Chain (LinkedQueue.store _ x none).link (some y) _ none
        rw [store_link]
        exact hchain
      · show q.tail = _
        rw [h.tail, List.getLast?_cons_cons]
      · rw [store_msgAt]
        exact hmessages
      · show (q.size - 1).toNat = _
        omega
      · show (q.size - 1).toNat ≤ q.maxsize.toNat
        omega

omit [DecidableEq α] in
theorem get (h : q.Holds (x :: addrs) (m :: msgs)) : q.get = some (.succ, some m, q) := by
  obtain ⟨e, he, hmsg, -⟩ := h.first
  have hhead : q.head = some x := h.head
  simp [LinkedQueue.get, hhead, he, hmsg]

end LinkedQueue.Holds

/-! ## Runs -/

section Runs

variable {α μ : Type} [DecidableEq α]

/-- A queue beside the list that it is meant to be. -/
structure Deque (α μ : Type) where
  queue : LinkedQueue α μ
  msgs : List μ

/-- Nothing is allocated where an element is in use. -/
def Fresh (d : Deque α μ) (i : QueueOp μ × Option α) : Prop :=
  ∀ a, i.2 = some a → d.queue.element a = none

def Deque.step (d : Deque α μ) (i : QueueOp μ × Option α) : Option (Deque α μ) :=
  (d.queue.run i.2 i.1).map fun r =>
    ⟨r.2, (i.1.meant d.queue.maxsize.toNat i.2.isSome d.msgs).2⟩

theorem LinkedQueue.maxsize_of_run {q q' : LinkedQueue α μ} {alloc : Option α} {op : QueueOp μ}
    {out : MkernelError × Option μ} (h : q.run alloc op = some (out, q')) :
    q'.maxsize = q.maxsize := by
  have hset {q q' : LinkedQueue α μ} {a : α} {v : Option α} (h : q.setNext a v = some q') :
      q'.maxsize = q.maxsize := by
    obtain ⟨e, -, hq⟩ := Option.map_eq_some_iff.mp h
    rw [← hq, store_maxsize]
  cases op with
  | push submsg =>
      obtain ⟨r, hr, hq⟩ := Option.map_eq_some_iff.mp h
      cases hq
      unfold LinkedQueue.push at hr
      split at hr
      · cases hr
        rfl
      split at hr
      · cases hr
        rfl
      dsimp only at hr
      split at hr
      · obtain ⟨q₁, hq₁, hr⟩ := Option.map_eq_some_iff.mp hr
        cases hr
        have hkept := hset hq₁
        rwa [store_maxsize] at hkept
      · cases hr
        rfl
  | pushHead submsg =>
      obtain ⟨r, hr, hq⟩ := Option.map_eq_some_iff.mp h
      cases hq
      unfold LinkedQueue.pushHead at hr
      split at hr
      · cases hr
        rfl
      split at hr
      · cases hr
        rfl
      dsimp only at hr
      split at hr
      · obtain ⟨q₁, hq₁, hr⟩ := Option.map_eq_some_iff.mp hr
        cases hr
        have hkept := hset hq₁
        rwa [store_maxsize] at hkept
      · cases hr
        rfl
  | pop =>
      obtain ⟨r, hr, hq⟩ := Option.map_eq_some_iff.mp h
      cases hq
      unfold LinkedQueue.pop at hr
      split at hr
      · cases hr
        rfl
      obtain ⟨e, -, hr⟩ := Option.map_eq_some_iff.mp hr
      cases hr
      dsimp only
      split <;> rfl
  | get =>
      obtain ⟨r, hr, hq⟩ := Option.map_eq_some_iff.mp h
      cases hq
      unfold LinkedQueue.get at hr
      split at hr
      · cases hr
        rfl
      obtain ⟨e, -, hr⟩ := Option.map_eq_some_iff.mp hr
      cases hr
      rfl

/-- The queue holds the list, and its next operation is that of the list. -/
structure Deque.Refined (maxSize : UInt16) (d : Deque α μ) : Prop where
  maxsize : d.queue.maxsize = maxSize
  holds : ∃ addrs, d.queue.Holds addrs d.msgs
  empty : (d.queue.head = none ↔ d.msgs = []) ∧ (d.queue.tail = none ↔ d.msgs = [])
  steps : ∀ i, Fresh d i → ∃ q', d.queue.run i.2 i.1 =
    some ((i.1.meant maxSize.toNat i.2.isSome d.msgs).1, q') ∧
      d.step i = some ⟨q', (i.1.meant maxSize.toNat i.2.isSome d.msgs).2⟩

theorem LinkedQueue.Holds.run {q : LinkedQueue α μ} {addrs : List α} {msgs : List μ}
    (h : q.Holds addrs msgs) (op : QueueOp μ) {alloc : Option α}
    (hfresh : ∀ a, alloc = some a → q.element a = none) :
    ∃ q' addrs', q.run alloc op = some ((op.meant q.maxsize.toNat alloc.isSome msgs).1, q') ∧
      q'.Holds addrs' (op.meant q.maxsize.toNat alloc.isSome msgs).2 := by
  have hfull : q.maxsize ≤ q.size ↔ q.maxsize.toNat ≤ msgs.length := by
    rw [UInt16.le_iff_toNat_le, h.size]
  cases op with
  | push submsg =>
      by_cases hle : q.maxsize.toNat ≤ msgs.length
      · simp only [LinkedQueue.run, QueueOp.meant, if_pos hle]
        refine ⟨q, addrs, ?_, h⟩
        unfold LinkedQueue.push
        rw [if_pos (hfull.mpr hle)]
        rfl
      · simp only [LinkedQueue.run, QueueOp.meant, if_neg hle]
        cases alloc with
        | none =>
            refine ⟨q, addrs, ?_, h⟩
            unfold LinkedQueue.push
            rw [if_neg (mt hfull.mp hle)]
            rfl
        | some a =>
            obtain ⟨q', hpush, hholds⟩ := h.push (m := submsg) (mt hfull.mp hle) (hfresh a rfl)
            refine ⟨q', addrs ++ [a], ?_, hholds⟩
            rw [hpush]
            rfl
  | pushHead submsg =>
      by_cases hle : q.maxsize.toNat ≤ msgs.length
      · simp only [LinkedQueue.run, QueueOp.meant, if_pos hle]
        refine ⟨q, addrs, ?_, h⟩
        unfold LinkedQueue.pushHead
        rw [if_pos (hfull.mpr hle)]
        rfl
      · simp only [LinkedQueue.run, QueueOp.meant, if_neg hle]
        cases alloc with
        | none =>
            refine ⟨q, addrs, ?_, h⟩
            unfold LinkedQueue.pushHead
            rw [if_neg (mt hfull.mp hle)]
            rfl
        | some a =>
            obtain ⟨q', hpush, hholds⟩ := h.pushHead (m := submsg) (mt hfull.mp hle) (hfresh a rfl)
            refine ⟨q', a :: addrs, ?_, hholds⟩
            rw [hpush]
            rfl
  | pop =>
      cases msgs with
      | nil =>
          obtain rfl : addrs = [] := h.eq_nil_iff.mpr rfl
          have hhead : q.head = none := h.head
          refine ⟨q, [], ?_, h⟩
          simp [LinkedQueue.run, LinkedQueue.pop, hhead, h.reset, QueueOp.meant]
      | cons m msgs =>
          obtain ⟨x, addrs, rfl⟩ : ∃ x rest, addrs = x :: rest :=
            List.exists_cons_of_length_pos (by rw [h.length]; simp)
          obtain ⟨q', hpop, hholds⟩ := h.pop
          refine ⟨q', addrs, ?_, hholds⟩
          rw [LinkedQueue.run, hpop]
          rfl
  | get =>
      cases msgs with
      | nil =>
          obtain rfl : addrs = [] := h.eq_nil_iff.mpr rfl
          have hhead : q.head = none := h.head
          refine ⟨q, [], ?_, h⟩
          simp [LinkedQueue.run, LinkedQueue.get, hhead, h.reset, QueueOp.meant]
      | cons m msgs =>
          obtain ⟨x, addrs, rfl⟩ : ∃ x rest, addrs = x :: rest :=
            List.exists_cons_of_length_pos (by rw [h.length]; simp)
          refine ⟨q, x :: addrs, ?_, h⟩
          rw [LinkedQueue.run, h.get]
          rfl

/-- The queue of the other functions is the same list. -/
theorem Queue.push_meant (q : Queue μ) (alloc : Bool) (submsg : μ) :
    ((q.push alloc submsg).1, (q.push alloc submsg).2.elems) =
      (((QueueOp.push submsg).meant q.maxsize.toNat alloc q.elems).1.1,
        ((QueueOp.push submsg).meant q.maxsize.toNat alloc q.elems).2) := by
  have hfull : q.full = true ↔ q.maxsize.toNat ≤ q.elems.length := by
    rw [Queue.full, decide_eq_true_iff, UInt16.le_iff_toNat_le, q.sized]
  unfold Queue.push QueueOp.meant
  by_cases hle : q.maxsize.toNat ≤ q.elems.length
  · simp [hfull.mpr hle, hle]
  · cases alloc <;> simp [mt hfull.mp hle, hle]

theorem Queue.pushHead_meant (q : Queue μ) (alloc : Bool) (submsg : μ) :
    ((q.pushHead alloc submsg).1, (q.pushHead alloc submsg).2.elems) =
      (((QueueOp.pushHead submsg).meant q.maxsize.toNat alloc q.elems).1.1,
        ((QueueOp.pushHead submsg).meant q.maxsize.toNat alloc q.elems).2) := by
  have hfull : q.full = true ↔ q.maxsize.toNat ≤ q.elems.length := by
    rw [Queue.full, decide_eq_true_iff, UInt16.le_iff_toNat_le, q.sized]
  unfold Queue.pushHead QueueOp.meant
  by_cases hle : q.maxsize.toNat ≤ q.elems.length
  · simp [hfull.mpr hle, hle]
  · cases alloc <;> simp [mt hfull.mp hle, hle]

theorem Queue.pop_meant {q q' : Queue μ} {m : μ} (h : q.pop = some (m, q')) (alloc : Bool) :
    QueueOp.pop.meant q.maxsize.toNat alloc q.elems = ((.succ, some m), q'.elems) := by
  rw [Queue.pop_some h]
  rfl

/-- Whatever is pushed and popped, the queue is the bounded list of its messages. -/
theorem linked_queue_refines {maxSize : UInt16} {element : α → Option (QueueElement α μ)}
    {d : Deque α μ} (h : Reach Deque.step Fresh ⟨.init maxSize element, []⟩ d) :
    d.Refined maxSize := by
  obtain ⟨hmax, addrs, hholds⟩ := h.invariant
    (I := fun d => d.queue.maxsize = maxSize ∧ ∃ addrs, d.queue.Holds addrs d.msgs)
    ⟨rfl, [], rfl, .nil, rfl, rfl, rfl, UInt16.le_iff_toNat_le.mpr (Nat.zero_le _)⟩
    fun d i d' hd hfresh hstep => by
      obtain ⟨hmax, addrs, hholds⟩ := hd
      obtain ⟨q', addrs', hrun, hholds'⟩ := hholds.run i.1 hfresh
      unfold Deque.step at hstep
      rw [hrun] at hstep
      cases hstep
      exact ⟨(LinkedQueue.maxsize_of_run hrun).trans hmax, addrs', hholds'⟩
  have hhead : d.queue.head = none ↔ d.msgs = [] := by
    rw [hholds.head, List.head?_eq_none_iff, hholds.eq_nil_iff]
  have htail : d.queue.tail = none ↔ d.msgs = [] := by
    rw [hholds.tail, List.getLast?_eq_none_iff, hholds.eq_nil_iff]
  refine ⟨hmax, ⟨addrs, hholds⟩, ⟨hhead, htail⟩, fun i hfresh => ?_⟩
  obtain ⟨q', -, hrun, -⟩ := hholds.run i.1 hfresh
  rw [hmax] at hrun
  refine ⟨q', hrun, ?_⟩
  unfold Deque.step
  rw [hrun, hmax]
  rfl

end Runs

def sampleDeque : Deque Nat Nat := ⟨.init 2 fun _ => none, []⟩

/-- One message in a queue for two. -/
theorem linked_queue_refines_single : (⟨{
      maxsize := 2, size := 1, head := some 5, tail := some 5
      element := Function.update (fun _ => none) 5 (some ⟨9, none⟩) }, [9]⟩ :
        Deque Nat Nat).Refined 2 := by
  have hfresh : Fresh sampleDeque (.push 9, some 5) := fun _ _ => rfl
  exact linked_queue_refines (.next .start hfresh rfl)

end EzIot.Kernel
