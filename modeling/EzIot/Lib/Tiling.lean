import Mathlib.Data.List.Basic

/-! # Blocks that tile a range

A block is its position and its length. Blocks tile a range when each starts where
the one before it ends, so that every position of the range is in one of them.
-/

namespace EzIot.Tiling

/-- The blocks tile the positions from `a` to `b`, in this order. -/
def Tiles (a : Nat) : List (Nat × Nat) → Nat → Prop
  | [], b => a = b
  | x :: l, b => x.1 = a ∧ 0 < x.2 ∧ Tiles (a + x.2) l b

section Tiles

variable {a b c : Nat} {x : Nat × Nat} {l l' : List (Nat × Nat)}

@[simp] theorem tiles_nil : Tiles a [] b ↔ a = b := Iff.rfl

@[simp] theorem tiles_cons :
    Tiles a (x :: l) b ↔ x.1 = a ∧ 0 < x.2 ∧ Tiles (a + x.2) l b := Iff.rfl

/-- What follows blocks that tile starts at their end. -/
theorem Tiles.append_iff (h : Tiles a l b) : Tiles a (l ++ l') c ↔ Tiles b l' c := by
  induction l generalizing a with
  | nil =>
      cases h
      rfl
  | cons x l ih =>
      obtain ⟨hstart, hpos, hrest⟩ := h
      rw [List.cons_append, tiles_cons, ih hrest]
      exact ⟨fun h' => h'.2.2, fun h' => ⟨hstart, hpos, h'⟩⟩

end Tiles

end EzIot.Tiling
