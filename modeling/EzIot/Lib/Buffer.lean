import EzIot.Lib.CText

/-! # Block operations on a buffer

The memory of one allocation is the list of its bytes. An operation that would
leave the allocation has no result.
-/

namespace EzIot.CText

def memcpy (buf : Bytes) (pos : Nat) (src : Bytes) : Option Bytes :=
  if pos + src.length ≤ buf.length then
    some (buf.take pos ++ src ++ buf.drop (pos + src.length))
  else none

def memset (buf : Bytes) (pos : Nat) (b : UInt8) (n : Nat) : Option Bytes :=
  memcpy buf pos (List.replicate n b)

def memmove (buf : Bytes) (dst src n : Nat) : Option Bytes :=
  if src + n ≤ buf.length then memcpy buf dst ((buf.drop src).take n) else none

theorem memcpy_append {a b src : Bytes} {pos : Nat} (hpos : pos = a.length)
    (hlen : src.length = b.length) (c : Bytes) :
    memcpy (a ++ (b ++ c)) pos src = some (a ++ (src ++ c)) := by
  have hdrop : (a ++ (b ++ c)).drop (a.length + src.length) = c := by
    rw [hlen, ← List.length_append, ← List.append_assoc, List.drop_left]
  unfold memcpy
  rw [hpos, if_pos (by simp only [List.length_append]; omega), List.take_left, hdrop,
    List.append_assoc]

theorem memset_append {a b : Bytes} {pos n : Nat} (x : UInt8) (hpos : pos = a.length)
    (hlen : n = b.length) (c : Bytes) :
    memset (a ++ (b ++ c)) pos x n = some (a ++ (List.replicate n x ++ c)) :=
  memcpy_append hpos (by rw [List.length_replicate, hlen]) c

theorem memmove_append (a b c : Bytes) :
    memmove (a ++ (b ++ c)) 0 a.length b.length =
      some (b ++ (a ++ (b ++ c)).drop b.length) := by
  have hle : a.length + b.length ≤ (a ++ (b ++ c)).length := by
    simp only [List.length_append]
    omega
  unfold memmove memcpy
  rw [if_pos hle, List.drop_left, List.take_left, if_pos (by omega)]
  simp

theorem memmove_eq_none {buf : Bytes} {dst src n : Nat} (h : buf.length < src + n) :
    memmove buf dst src n = none :=
  if_neg (Nat.not_le.mpr h)

theorem memcpy_eq_some_iff {buf buf' src : Bytes} {pos : Nat} :
    memcpy buf pos src = some buf' ↔ pos + src.length ≤ buf.length ∧
      buf' = buf.take pos ++ src ++ buf.drop (pos + src.length) := by
  rw [memcpy, Option.ite_none_right_eq_some, Option.some.injEq, eq_comm (a := buf')]

theorem length_of_memcpy {buf buf' src : Bytes} {pos : Nat} (h : memcpy buf pos src = some buf') :
    buf'.length = buf.length := by
  obtain ⟨hfits, rfl⟩ := memcpy_eq_some_iff.mp h
  simp only [List.length_append, List.length_take, List.length_drop]
  omega

theorem length_append_drop {front buf : Bytes} {n : Nat} (hfront : front.length = n)
    (hfits : n ≤ buf.length) : (front ++ buf.drop n).length = buf.length := by
  rw [List.length_append, List.length_drop, hfront]
  omega

theorem getElem?_of_memcpy {buf buf' src : Bytes} {pos k : Nat}
    (h : memcpy buf pos src = some buf') (hk : k < pos) : buf'[k]? = buf[k]? := by
  obtain ⟨hfits, rfl⟩ := memcpy_eq_some_iff.mp h
  rw [List.append_assoc, List.getElem?_append_left (by rw [List.length_take]; omega),
    List.getElem?_take_of_lt hk]

end EzIot.CText
