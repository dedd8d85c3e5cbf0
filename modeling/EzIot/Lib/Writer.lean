import EzIot.Lib.Buffer
import Mathlib.Data.List.Forall2

/-! # Writing through a pointer that moves

A writer is a buffer and the place in it where the next bytes go. Writing a list of
bytes has no result where it would leave the buffer, so writing two lists one after the
other and writing them together are the same.
-/

namespace EzIot.CText

/-- Copying to the place behind the front of a buffer. -/
theorem memcpy_behind {front old src : Bytes} {pos : Nat} (hpos : pos = front.length)
    (h : src.length ≤ old.length) :
    memcpy (front ++ old) pos src = some (front ++ (src ++ old.drop src.length)) := by
  have hlen : src.length = (old.take src.length).length := by
    rw [List.length_take]
    omega
  have hcopy := memcpy_append hpos hlen (old.drop src.length)
  rwa [List.take_append_drop] at hcopy

structure Writer where
  mem : Bytes
  ptr : Nat
deriving DecidableEq

namespace Writer

/-- The start of a buffer. -/
def start (buf : Bytes) : Writer := ⟨buf, 0⟩

def put (w : Writer) (bs : Bytes) : Option Writer :=
  (memcpy w.mem w.ptr bs).map fun mem => ⟨mem, w.ptr + bs.length⟩

theorem put_eq_some_iff {w w' : Writer} {bs : Bytes} :
    w.put bs = some w' ↔ w.ptr + bs.length ≤ w.mem.length ∧
      w'.mem = w.mem.take w.ptr ++ bs ++ w.mem.drop (w.ptr + bs.length) ∧
        w'.ptr = w.ptr + bs.length := by
  unfold put
  rw [Option.map_eq_some_iff]
  constructor
  · rintro ⟨mem, hmem, rfl⟩
    obtain ⟨hfits, rfl⟩ := memcpy_eq_some_iff.mp hmem
    exact ⟨hfits, rfl, rfl⟩
  · rintro ⟨hfits, hmem, hptr⟩
    refine ⟨w'.mem, memcpy_eq_some_iff.mpr ⟨hfits, hmem⟩, ?_⟩
    rw [← hptr]

theorem put_eq_none_iff {w : Writer} {bs : Bytes} :
    w.put bs = none ↔ w.mem.length < w.ptr + bs.length := by
  unfold put memcpy
  split
  next h => simpa using h
  next h => simpa using h

theorem length_of_put {w w' : Writer} {bs : Bytes} (h : w.put bs = some w') :
    w'.mem.length = w.mem.length := by
  obtain ⟨hfits, hmem, -⟩ := put_eq_some_iff.mp h
  rw [hmem]
  simp only [List.length_append, List.length_take, List.length_drop]
  omega

theorem put_put (w : Writer) (a b : Bytes) :
    ((w.put a).bind fun w' => w'.put b) = w.put (a ++ b) := by
  cases ha : w.put a with
  | none =>
      have hshort := put_eq_none_iff.mp ha
      rw [Option.bind_none, eq_comm, put_eq_none_iff, List.length_append]
      omega
  | some w' =>
      have hlen := length_of_put ha
      obtain ⟨hfits, hmem, hptr⟩ := put_eq_some_iff.mp ha
      rw [Option.bind_some]
      cases hb : w'.put b with
      | none =>
          have hshort := put_eq_none_iff.mp hb
          rw [eq_comm, put_eq_none_iff, List.length_append]
          omega
      | some w'' =>
          obtain ⟨hfits', hmem', hptr'⟩ := put_eq_some_iff.mp hb
          have hpos : w'.ptr = (w.mem.take w.ptr ++ a).length := by
            rw [List.length_append, List.length_take, hptr]
            omega
          rw [eq_comm, put_eq_some_iff, List.length_append]
          refine ⟨by omega, ?_, by omega⟩
          rw [hmem', hmem, hpos, List.take_left, List.drop_length_add_append, List.drop_drop]
          simp only [List.append_assoc, Nat.add_assoc]

theorem put_bind {α : Type} (w : Writer) (a b : Bytes) (k : Writer → Option α) :
    (w.put a >>= fun w' => w'.put b >>= k) = w.put (a ++ b) >>= k := by
  rw [← put_put, Option.bind_eq_bind, Option.bind_assoc]

theorem foldlM_put {α β : Type} {write : Writer → α → Option Writer} {xs : List α}
    {parts : List Bytes} (h : List.Forall₂ (fun x bs => ∀ w, write w x = w.put bs) xs parts)
    (w : Writer) (a : Bytes) (k : Writer → Option β) :
    (w.put a >>= fun w => xs.foldlM write w >>= k) = w.put (a ++ parts.flatten) >>= k := by
  induction h generalizing w a with
  | nil => simp
  | cons hx _ ih =>
      simp only [List.foldlM_cons, hx, bind_assoc, put_bind, ih, List.flatten_cons]

/-- What a buffer that is long enough holds afterwards. -/
theorem start_put {buf bs : Bytes} (h : bs.length ≤ buf.length) :
    (start buf).put bs = some ⟨bs ++ buf.drop bs.length, bs.length⟩ := by
  rw [put_eq_some_iff]
  exact ⟨by simpa [start] using h, by simp [start], by simp [start]⟩

end Writer

end EzIot.CText
