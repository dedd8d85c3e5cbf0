import Mathlib.Logic.Function.Basic
import EzIot.Lib.CText

/-! # The key-value store

The interface of the platform to a store that behaves as a map. A key that is missing
reads like one with an empty value; deleting it is an error.
-/

namespace EzIot.Kv

open CText

abbrev Store := CString → Option Bytes

namespace Store

def kvBufSizeDefault : Nat := 8192

def value (kv : Store) (key : CString) : Bytes := (kv key).getD []

/-- `ezos_kv_raw_get` without a buffer: as much as a buffer of `length` takes. -/
def rawLength (kv : Store) (key : CString) (length : Nat) : Nat :=
  min (if length = 0 then kvBufSizeDefault else length) (kv.value key).length

/-- `ezos_kv_raw_get` into a buffer. -/
def rawGet (kv : Store) (key : CString) (length : Nat) : Bytes := (kv.value key).take length

/-- `ezos_kv_raw_set`. -/
def rawSet (kv : Store) (key : CString) (value : Bytes) : Store :=
  Function.update kv key (some value)

/-- `ezos_kv_del`. -/
def del (kv : Store) (key : CString) : Option Store :=
  if (kv key).isSome then some (Function.update kv key none) else none

/-- `ezos_kv_del_by_prefix`. -/
def delByPrefix (kv : Store) (keyPrefix : Bytes) : Store :=
  fun key => if keyPrefix <+: key.val then none else kv key

section Laws

variable {kv : Store} {key : CString} {v : Bytes} {length : Nat}

theorem value_of_eq_some (h : kv key = some v) : kv.value key = v := by simp [value, h]

theorem value_of_eq_none (h : kv key = none) : kv.value key = [] := by simp [value, h]

theorem rawGet_rawLength (h : (kv.value key).length ≤ length) :
    kv.rawGet key (kv.rawLength key length) = kv.value key := by
  rw [rawGet, rawLength]
  refine List.take_of_length_le ?_
  split <;> omega

theorem rawGet_rawLength_zero (h : (kv.value key).length ≤ kvBufSizeDefault) :
    kv.rawGet key (kv.rawLength key 0) = kv.value key := by
  rw [rawGet, rawLength]
  refine List.take_of_length_le ?_
  rw [if_pos rfl, Nat.min_eq_right h]

theorem rawLength_eq_zero (h : kv.value key = []) : kv.rawLength key length = 0 := by
  simp [rawLength, h]

theorem rawLength_ne_zero (h : kv.value key ≠ []) : kv.rawLength key length ≠ 0 := by
  have hpos := List.length_pos_iff.mpr h
  unfold rawLength kvBufSizeDefault
  split <;> omega

@[simp] theorem rawSet_self : (kv.rawSet key v) key = some v := Function.update_self ..

theorem rawSet_of_ne {key' : CString} (h : key' ≠ key) : (kv.rawSet key v) key' = kv key' :=
  Function.update_of_ne h ..

theorem del_of_ne {kv' : Store} {key' : CString} (hdel : kv.del key = some kv') (h : key' ≠ key) :
    kv' key' = kv key' := by
  unfold del at hdel
  split at hdel
  · cases hdel
    exact Function.update_of_ne h ..
  · cases hdel

theorem del_of_eq_some (h : kv key = some v) :
    kv.del key = some (Function.update kv key none) := by
  simp [del, h]

end Laws

end Store

end EzIot.Kv
