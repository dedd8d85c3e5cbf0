import EzIot.Lib.CText
import Mathlib.Data.List.Basic

/-! # Numbers in base 128

A field of bytes that ends with the first byte whose highest bit is clear. The
lower seven bits of its bytes are the digits of a number, the smallest first.
-/

namespace EzIot.Base128

open CText

/-- The field ends here. -/
def Last (b : UInt8) : Prop := b &&& 0x80 = 0

instance (b : UInt8) : Decidable (Last b) := inferInstanceAs (Decidable (b &&& 0x80 = 0))

def digit (b : UInt8) : Nat := (b &&& 0x7F).toNat

inductive IsField : Bytes → Prop
  | last {b : UInt8} (h : Last b) : IsField [b]
  | more {b : UInt8} {bs : Bytes} (h : ¬ Last b) (hbs : IsField bs) : IsField (b :: bs)

def value : Bytes → Nat
  | [] => 0
  | b :: bs => digit b + 128 * value bs

theorem digit_lt (b : UInt8) : digit b < 128 := by
  unfold digit
  rw [UInt8.toNat_and]
  exact Nat.lt_of_le_of_lt Nat.and_le_right (show (0x7F : UInt8).toNat < 128 by decide)

theorem value_lt (bs : Bytes) : value bs < 128 ^ bs.length := by
  induction bs with
  | nil => exact Nat.one_pos
  | cons b bs ih =>
      have hb := digit_lt b
      rw [List.length_cons, Nat.pow_succ]
      change digit b + 128 * value bs < _
      omega

theorem IsField.last_mem {bs : Bytes} (h : IsField bs) : ∃ b ∈ bs, Last b := by
  induction h with
  | @last b h => exact ⟨b, List.mem_singleton_self b, h⟩
  | more h hbs ih =>
      rcases ih with ⟨c, hc, hlast⟩
      exact ⟨c, List.mem_cons_of_mem _ hc, hlast⟩

/-! ## Writing digits -/

theorem digit_facts : ∀ d : Fin 128,
    (digit d.val.toUInt8 = d ∧ Last d.val.toUInt8) ∧
      digit (d.val.toUInt8 ||| 0x80) = d ∧ ¬ Last (d.val.toUInt8 ||| 0x80) := by
  decide +kernel

theorem last_digit {d : Nat} (hd : d < 128) : digit d.toUInt8 = d ∧ Last d.toUInt8 :=
  (digit_facts ⟨d, hd⟩).1

theorem more_digit {d : Nat} (hd : d < 128) :
    digit (d.toUInt8 ||| 0x80) = d ∧ ¬ Last (d.toUInt8 ||| 0x80) :=
  (digit_facts ⟨d, hd⟩).2

end EzIot.Base128
