import EzIot.Kernel.Message

/-! # Internal errors and the bounded queues

The queue macros are generic in the message type. A queue is its maximum, the
size it keeps and its linked elements from head to tail; that the size is the
number of elements is part of the type.
-/

namespace EzIot.Kernel

/-- The values of `mkernel_internal_error` that the modelled functions produce. -/
inductive MkernelError
  | succ
  | dasNeedReconnect
  | mallocError
  | jsonParseError
  | jsonFormatError
  | revInvalidPacket
  | msgLenOverrange
  | callMqttPubError
  | callMqttBufferTooShort
  | extendFull
  | extendReady
  | aesInputLen
  | casllMbedtlsSetdeckeyError
  | casllMbedtlsCryptError
  | aesPaddingUnmatched
  | queueEmpty
  | queueFull
  | platformAppointError
deriving DecidableEq

inductive EzErr
  | succ
  | notInit
  | paramInvalid
  | general
  | memory
  | outRange
  | net
deriving DecidableEq

/-- The numbers of `ez_core_err_e`. -/
def EzErr.code : EzErr → Int32
  | .succ => 0
  | .notInit => 1
  | .paramInvalid => 3
  | .general => 4
  | .memory => 5
  | .outRange => 8
  | .net => 11

def mkiE2ezE : MkernelError → EzErr
  | .succ => .succ
  | .callMqttBufferTooShort => .outRange
  | .mallocError | .queueFull => .memory
  | .dasNeedReconnect | .revInvalidPacket | .callMqttPubError => .net
  | _ => .general

/-! ## Queues -/

structure Queue (α : Type) where
  maxsize : UInt16
  size : UInt16
  elems : List α
  sized : size.toNat = elems.length

namespace Queue

variable {α : Type}

/-- `QUEUE_INIT`. -/
def init (maxSize : UInt16) : Queue α := ⟨maxSize, 0, [], rfl⟩

theorem toNat_succ {n m : UInt16} (h : n < m) : (n + 1).toNat = n.toNat + 1 := by
  have hlt := UInt16.lt_iff_toNat_lt.mp h
  have hm := m.toNat_lt
  rw [UInt16.toNat_add, UInt16.toNat_one]
  omega

theorem toNat_pred {n : UInt16} (h : 0 < n.toNat) : (n - 1).toNat = n.toNat - 1 := by
  have hle : (1 : UInt16) ≤ n := UInt16.le_iff_toNat_le.mpr h
  rw [UInt16.toNat_sub_of_le _ _ hle, UInt16.toNat_one]

/-- The queue takes no further element. -/
def full (q : Queue α) : Bool := q.maxsize ≤ q.size

theorem not_full {q : Queue α} (h : ¬ q.full = true) : q.size < q.maxsize := by
  simpa [full] using h

/-- `QUEUE_PUSH`; `alloc` says whether the element can be allocated. -/
def push (alloc : Bool) (m : α) (q : Queue α) : MkernelError × Queue α :=
  if h : q.full then (.queueFull, q)
  else if alloc = false then (.mallocError, q)
  else (.succ, ⟨q.maxsize, q.size + 1, q.elems ++ [m], by
    rw [toNat_succ (not_full h), q.sized, List.length_append, List.length_singleton]⟩)

def pushHead (alloc : Bool) (m : α) (q : Queue α) : MkernelError × Queue α :=
  if h : q.full then (.queueFull, q)
  else if alloc = false then (.mallocError, q)
  else (.succ, ⟨q.maxsize, q.size + 1, m :: q.elems, by
    rw [toNat_succ (not_full h), q.sized, List.length_cons]⟩)

/-- `QUEUE_POP`: `none` when the queue is empty. The size is set to zero with the
last element and counted down otherwise, which is the same. -/
def pop (q : Queue α) : Option (α × Queue α) :=
  match h : q.elems with
  | [] => none
  | m :: rest => some (m, ⟨q.maxsize, q.size - 1, rest, by
      have hsize : q.size.toNat = rest.length + 1 := by rw [q.sized, h, List.length_cons]
      rw [toNat_pred (by omega), hsize, Nat.add_sub_cancel]⟩)

theorem push_cases (alloc : Bool) (m : α) (q : Queue α) :
    ((q.push alloc m).1 = .succ ∧ (q.push alloc m).2.elems = q.elems ++ [m]) ∨
      ((q.push alloc m).1 ≠ .succ ∧ (q.push alloc m).2 = q) := by
  unfold push
  split
  · exact .inr ⟨by simp, rfl⟩
  · split
    · exact .inr ⟨by simp, rfl⟩
    · exact .inl ⟨rfl, rfl⟩

theorem push_refused {alloc : Bool} {m : α} {q : Queue α} (h : q.full = true ∨ alloc = false) :
    (q.push alloc m).2 = q := by
  unfold push
  rcases h with hfull | halloc
  · rw [dif_pos hfull]
  · subst halloc
    split <;> rfl

theorem pushHead_elems {alloc : Bool} {m : α} {q : Queue α} (hroom : q.full = false)
    (halloc : alloc = true) : (q.pushHead alloc m).2.elems = m :: q.elems := by
  subst halloc
  unfold pushHead
  rw [dif_neg (by simp [hroom])]
  rfl

theorem pushHead_cases (alloc : Bool) (m : α) (q : Queue α) :
    (q.pushHead alloc m).2.elems = m :: q.elems ∨ (q.pushHead alloc m).2 = q := by
  unfold pushHead
  split
  · exact .inr rfl
  · split
    · exact .inr rfl
    · exact .inl rfl

theorem pop_some {q q' : Queue α} {m : α} (h : q.pop = some (m, q')) :
    q.elems = m :: q'.elems := by
  unfold pop at h
  split at h
  · simp at h
  · rename_i heq
    cases h
    exact heq

end Queue

end EzIot.Kernel
