import EzIot.Lib.CText
import Mathlib.Data.List.Basic

/-! # Bytes as text in base 64

Three bytes make four digits. The last digits stand for the one or two bytes that are left,
and padding fills them up to four.
-/

namespace EzIot.Base64

open CText

def encMap (n : Nat) : UInt8 :=
  if n < 26 then (65 + n).toUInt8
  else if n < 52 then (71 + n).toUInt8
  else if n < 62 then (n - 4).toUInt8
  else if n = 62 then 43
  else 47

/-- The padding, `=`. -/
def pad : UInt8 := 61

/-- `mbedtls_base64_encode`. -/
def encode : Bytes → Bytes
  | [] => []
  | [a] => [encMap (a.toNat / 4), encMap (a.toNat % 4 * 16), pad, pad]
  | [a, b] =>
      [encMap (a.toNat / 4), encMap (a.toNat % 4 * 16 + b.toNat / 16),
        encMap (b.toNat % 16 * 4), pad]
  | a :: b :: c :: t =>
      encMap (a.toNat / 4) :: encMap (a.toNat % 4 * 16 + b.toNat / 16) ::
        encMap (b.toNat % 16 * 4 + c.toNat / 64) :: encMap (c.toNat % 64) :: encode t

/-! ## Digits -/

theorem encMap_facts : ∀ m n : Fin 64, encMap m = encMap n → m = n := by decide +kernel

theorem encMap_inj {m n : Nat} (hm : m < 64) (hn : n < 64) (h : encMap m = encMap n) : m = n :=
  congrArg Fin.val (encMap_facts ⟨m, hm⟩ ⟨n, hn⟩ h)

/-- A digit prints as itself and is not the padding. -/
theorem encMap_plain {n : Nat} (hn : n < 64) :
    encMap n ≠ pad ∧ 31 < encMap n ∧ encMap n ≠ 34 ∧ encMap n ≠ 92 := by
  have hall : ∀ n : Fin 64, encMap n ≠ pad ∧ 31 < encMap n ∧ encMap n ≠ 34 ∧ encMap n ≠ 92 := by
    decide +kernel
  exact hall ⟨n, hn⟩

theorem toNat_lt (a : UInt8) : a.toNat < 256 := a.toNat_lt

/-! ## Texts -/

theorem length_encode (t : Bytes) : (encode t).length = 4 * ((t.length + 2) / 3) := by
  induction t using encode.induct with
  | case1 => rfl
  | case2 => simp [encode]
  | case3 => simp [encode]
  | case4 a b c t ih =>
      simp only [encode, List.length_cons, ih]
      omega

/-- No character of a text is escaped in JSON. -/
theorem encode_plain (t : Bytes) : ∀ x ∈ encode t, 31 < x ∧ x ≠ 34 ∧ x ≠ 92 := by
  have hpad : 31 < pad ∧ pad ≠ 34 ∧ pad ≠ 92 := by decide
  induction t using encode.induct with
  | case1 => simp [encode]
  | case2 a =>
      have ha := toNat_lt a
      simp only [encode, List.forall_mem_cons]
      exact ⟨(encMap_plain (by omega)).2, (encMap_plain (by omega)).2, hpad, hpad, by simp⟩
  | case3 a b =>
      have ha := toNat_lt a
      have hb := toNat_lt b
      simp only [encode, List.forall_mem_cons]
      exact ⟨(encMap_plain (by omega)).2, (encMap_plain (by omega)).2,
        (encMap_plain (by omega)).2, hpad, by simp⟩
  | case4 a b c t ih =>
      have ha := toNat_lt a
      have hb := toNat_lt b
      have hc := toNat_lt c
      simp only [encode, List.forall_mem_cons]
      exact ⟨(encMap_plain (by omega)).2, (encMap_plain (by omega)).2,
        (encMap_plain (by omega)).2, (encMap_plain (by omega)).2, ih⟩

theorem group_inj {a b c a' b' c' : UInt8} (hfirst : encMap (a.toNat / 4) = encMap (a'.toNat / 4))
    (hsecond : encMap (a.toNat % 4 * 16 + b.toNat / 16) =
      encMap (a'.toNat % 4 * 16 + b'.toNat / 16))
    (hthird : encMap (b.toNat % 16 * 4 + c.toNat / 64) =
      encMap (b'.toNat % 16 * 4 + c'.toNat / 64))
    (hlast : encMap (c.toNat % 64) = encMap (c'.toNat % 64)) : a = a' ∧ b = b' ∧ c = c' := by
  have ha := toNat_lt a
  have hb := toNat_lt b
  have hc := toNat_lt c
  have ha' := toNat_lt a'
  have hb' := toNat_lt b'
  have hc' := toNat_lt c'
  have h₁ := encMap_inj (by omega) (by omega) hfirst
  have h₂ := encMap_inj (by omega) (by omega) hsecond
  have h₃ := encMap_inj (by omega) (by omega) hthird
  have h₄ := encMap_inj (by omega) (by omega) hlast
  exact ⟨UInt8.toNat_inj.mp (by omega), UInt8.toNat_inj.mp (by omega),
    UInt8.toNat_inj.mp (by omega)⟩

/-- Different bytes have different texts. A group that is not full is one of zero bytes
behind. -/
theorem encode_inj {s t : Bytes} (hlen : s.length = t.length) (h : encode s = encode t) :
    s = t := by
  induction s using encode.induct generalizing t with
  | case1 => exact (List.length_eq_zero_iff.mp hlen.symm).symm
  | case2 a =>
      obtain ⟨a', rfl⟩ := List.length_eq_one_iff.mp hlen.symm
      simp only [encode, List.cons.injEq] at h
      have hgroup : a = a' ∧ (0 : UInt8) = 0 ∧ (0 : UInt8) = 0 := group_inj h.1 h.2.1 rfl rfl
      rw [hgroup.1]
  | case3 a b =>
      obtain ⟨a', b', rfl⟩ := List.length_eq_two.mp hlen.symm
      simp only [encode, List.cons.injEq] at h
      have hgroup : a = a' ∧ b = b' ∧ (0 : UInt8) = 0 := group_inj h.1 h.2.1 h.2.2.1 rfl
      rw [hgroup.1, hgroup.2.1]
  | case4 a b c s ih =>
      rcases t with - | ⟨a', - | ⟨b', - | ⟨c', t⟩⟩⟩
      · cases hlen
      · cases hlen
      · cases hlen
      · simp only [encode, List.cons.injEq] at h
        have hgroup := group_inj h.1 h.2.1 h.2.2.1 h.2.2.2.1
        have hrest := ih (by simpa using hlen) h.2.2.2.2
        rw [hgroup.1, hgroup.2.1, hgroup.2.2, hrest]

end EzIot.Base64
