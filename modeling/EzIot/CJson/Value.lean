import EzIot.Lib.CText
import Mathlib.Algebra.Ring.Rat

/-! # The value tree of cJSON

Numbers carry the binary64 value `valuedouble` as the rational it denotes, or an
infinity when `strtod` overflowed; `valueint` is derived from it the way the
library fills that member, by truncation with saturation. Names and strings are
C texts, so an escaped zero byte ends them.
-/

namespace EzIot.CJson

open CText

/-- The value of a `double`, without NaN: no number token reads as one. -/
inductive Dbl where
  | fin (q : Rat)
  | inf (neg : Bool)
deriving DecidableEq

def intMax : Int := 2147483647
def intMin : Int := -2147483648

/-- `(int)number` with saturation at the ends of `int`. -/
def saturate (q : Rat) : Int :=
  if (intMax : Rat) ≤ q then intMax
  else if q ≤ (intMin : Rat) then intMin
  else q.num.tdiv q.den

/-- The `valueint` member that belongs to a `valuedouble`. -/
def Dbl.valueint : Dbl → Int
  | .inf true => intMin
  | .inf false => intMax
  | .fin q => saturate q

/-- `(double)i`, exact for every integer that the code converts. -/
def Dbl.ofInt (i : Int) : Dbl := .fin i

theorem Dbl.valueint_ofInt (i : Int) :
    (Dbl.ofInt i).valueint = max intMin (min intMax i) := by
  change saturate i = _
  unfold saturate
  simp only [Rat.intCast_le_intCast, Rat.num_intCast, Rat.den_intCast]
  unfold intMax intMin
  split
  · omega
  · split
    · omega
    · rw [Int.natCast_one, Int.tdiv_one]
      omega

def Dbl.le : Dbl → Dbl → Prop
  | .inf true, _ => True
  | _, .inf false => True
  | .fin a, .fin b => a ≤ b
  | _, _ => False

instance : LE Dbl := ⟨Dbl.le⟩

instance : LT Dbl := ⟨fun a b => ¬ b ≤ a⟩

instance : DecidableLE Dbl := fun a b =>
  match a, b with
  | .inf true, _ => .isTrue trivial
  | .inf false, .inf false => .isTrue trivial
  | .fin _, .inf false => .isTrue trivial
  | .fin a, .fin b => inferInstanceAs (Decidable (a ≤ b))
  | .inf false, .inf true => .isFalse id
  | .fin _, .inf true => .isFalse id
  | .inf false, .fin _ => .isFalse id

instance : DecidableLT Dbl := fun a b => inferInstanceAs (Decidable (¬ b ≤ a))

theorem Dbl.ofInt_le_ofInt {a b : Int} : Dbl.ofInt a ≤ Dbl.ofInt b ↔ a ≤ b :=
  Rat.intCast_le_intCast

theorem Dbl.ofInt_lt_ofInt {a b : Int} : Dbl.ofInt a < Dbl.ofInt b ↔ a < b :=
  (not_congr Dbl.ofInt_le_ofInt).trans Int.not_le

theorem Dbl.ofInt_inj {a b : Int} : Dbl.ofInt a = Dbl.ofInt b ↔ a = b := by
  simp [Dbl.ofInt]

/-- Round a positive quotient to the nearest integer, ties to even. -/
def roundHalfEven (num den : Nat) : Nat :=
  let q := num / den
  let r := num % den
  if den < 2 * r ∨ (den = 2 * r ∧ q % 2 = 1) then q + 1 else q

/-- The binary64 value nearest to a rational. Small integers are themselves. -/
def binary64 (q : Rat) : Dbl :=
  if q.den = 1 ∧ q.num.natAbs < 2 ^ 53 then .fin q
  else
    let n := q.num.natAbs
    let e : Int := n.log2 - q.den.log2
    -- `e` is the exponent of the leading bit, or one more
    let low := if e < 0 then n * 2 ^ (-e).toNat < q.den else n < q.den * 2 ^ e.toNat
    let k := max ((if low then e - 1 else e) - 52) (-1074)
    let m := if k < 0 then roundHalfEven (n * 2 ^ (-k).toNat) q.den
      else roundHalfEven n (q.den * 2 ^ k.toNat)
    let sign : Int := if q.num < 0 then -1 else 1
    if k < 0 then .fin (mkRat (sign * m) (2 ^ (-k).toNat))
    else if 2 ^ 1024 ≤ m * 2 ^ k.toNat then .inf (q.num < 0)
    else .fin (sign * (m * 2 ^ k.toNat : Nat) : Int)

theorem binary64_intCast {i : Int} (h : i.natAbs < 2 ^ 53) : binary64 i = .ofInt i := by
  unfold binary64 Dbl.ofInt
  rw [if_pos ⟨Rat.den_intCast i, by rwa [Rat.num_intCast]⟩]

inductive Value where
  | null
  | bool (b : Bool)
  | number (d : Dbl)
  | string (s : Bytes)
  | array (items : List Value)
  | object (members : List (Bytes × Value))

mutual

def Value.beq : Value → Value → Bool
  | .null, .null => true
  | .bool a, .bool b => a == b
  | .number a, .number b => a == b
  | .string a, .string b => a == b
  | .array a, .array b => beqItems a b
  | .object a, .object b => beqMembers a b
  | _, _ => false

def Value.beqItems : List Value → List Value → Bool
  | [], [] => true
  | a :: s, b :: t => a.beq b && beqItems s t
  | _, _ => false

def Value.beqMembers : List (Bytes × Value) → List (Bytes × Value) → Bool
  | [], [] => true
  | a :: s, b :: t => a.1 == b.1 && a.2.beq b.2 && beqMembers s t
  | _, _ => false

end

mutual

theorem Value.beq_iff (a b : Value) : a.beq b = true ↔ a = b := by
  cases a with
  | null => cases b <;> simp [Value.beq]
  | bool _ => cases b <;> simp [Value.beq]
  | number _ => cases b <;> simp [Value.beq]
  | string _ => cases b <;> simp [Value.beq]
  | array s => cases b <;> simp [Value.beq, Value.beqItems_iff s]
  | object s => cases b <;> simp [Value.beq, Value.beqMembers_iff s]

theorem Value.beqItems_iff (s t : List Value) : Value.beqItems s t = true ↔ s = t := by
  cases s with
  | nil => cases t <;> simp [Value.beqItems]
  | cons a s => cases t <;> simp [Value.beqItems, Value.beq_iff a, Value.beqItems_iff s]

theorem Value.beqMembers_iff (s t : List (Bytes × Value)) :
    Value.beqMembers s t = true ↔ s = t := by
  cases s with
  | nil => cases t <;> simp [Value.beqMembers]
  | cons a s =>
      cases t <;>
        simp [Value.beqMembers, Value.beq_iff a.2, Value.beqMembers_iff s, Prod.ext_iff]

end

instance : DecidableEq Value := fun a b => decidable_of_iff _ (Value.beq_iff a b)

/-- `tolower` of the C locale. -/
def tolower (b : UInt8) : UInt8 := if 65 ≤ b ∧ b ≤ 90 then b + 32 else b

/-- Equality as `case_insensitive_strcmp` sees it. -/
def sameName (a b : Bytes) : Bool := a.map tolower == b.map tolower

/-- `cJSON_GetObjectItem`: the first member of that name, ignoring case. Array
elements have no name, so only objects have members. -/
def Value.getObjectItem (name : Bytes) : Value → Option Value
  | .object members => (members.find? fun m => sameName name m.1).map (·.2)
  | _ => none

end EzIot.CJson
