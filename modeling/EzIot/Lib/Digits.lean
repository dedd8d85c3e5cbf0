import Mathlib.Tactic.Linarith
import Mathlib.Tactic.Ring

/-! # Numbers of two digits

A number to a base is kept as a low digit and as the rest. Sums carry and differences borrow
one between them; the sign of a number can be read off its digits.
-/

namespace EzIot.Digits

/-- A number to the base `b`; the high part is any number. -/
structure TwoDigits (b : Int) where
  high : Int
  low : Int
  low_nonneg : 0 ≤ low
  low_lt : low < b

namespace TwoDigits

variable {b : Int} (x y : TwoDigits b)

def value : Int := x.high * b + x.low

def add : TwoDigits b :=
  if h : b ≤ x.low + y.low then
    ⟨x.high + y.high + 1, x.low + y.low - b, by omega, by
      have hx := x.low_lt
      have hy := y.low_lt
      omega⟩
  else
    ⟨x.high + y.high, x.low + y.low, by
      have hx := x.low_nonneg
      have hy := y.low_nonneg
      omega, by omega⟩

def sub : TwoDigits b :=
  if h : x.low - y.low < 0 then
    ⟨x.high - y.high - 1, x.low - y.low + b, by
      have hx := x.low_nonneg
      have hy := y.low_lt
      omega, by omega⟩
  else
    ⟨x.high - y.high, x.low - y.low, by omega, by
      have hx := x.low_lt
      have hy := y.low_nonneg
      omega⟩

/-- What is carried leaves the sum. -/
@[simp] theorem value_add : (x.add y).value = x.value + y.value := by
  unfold add value
  split
  · ring
  · ring

/-- What is borrowed leaves the difference. -/
@[simp] theorem value_sub : (x.sub y).value = x.value - y.value := by
  unfold sub value
  split
  · ring
  · ring

theorem value_nonpos_iff : x.value ≤ 0 ↔ x.high < 0 ∨ x.high = 0 ∧ x.low ≤ 0 := by
  have hnonneg := x.low_nonneg
  have hlt := x.low_lt
  unfold value
  constructor
  · intro h
    by_contra hpos
    by_cases hzero : x.high = 0
    · rw [hzero] at h
      omega
    · have hone : 1 ≤ x.high := by omega
      nlinarith
  · rintro (hneg | ⟨hzero, hlow⟩)
    · have hone : x.high ≤ -1 := by omega
      nlinarith
    · rw [hzero]
      omega

theorem high_eq : x.high = x.value / b := by
  have hlt := x.low_lt
  have hne : b ≠ 0 := by
    have hnonneg := x.low_nonneg
    omega
  unfold value
  rw [Int.add_comm, Int.add_mul_ediv_right _ _ hne, Int.ediv_eq_zero_of_lt x.low_nonneg hlt,
    Int.zero_add]

end TwoDigits

end EzIot.Digits
