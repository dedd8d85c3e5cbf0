import EzIot.Lib.Buffer
import EzIot.Kernel.Queue
import Mathlib.Data.List.GetD
import Mathlib.Logic.Equiv.Basic

/-! # Padded AES-128-CBC

`aes_support.c`. The block cipher itself is that of mbedTLS and enters as a
`Cipher`: what its CBC mode does under the session key and the fixed initial
vector. With a key of 128 bits and whole blocks the library reports no error.
-/

namespace EzIot.Das

open CText Kernel

structure Cipher where
  enc : Bytes → Bytes
  dec : Bytes → Bytes
  length_enc : ∀ t, 16 ∣ t.length → (enc t).length = t.length
  length_dec : ∀ t, 16 ∣ t.length → (dec t).length = t.length
  dec_enc : ∀ t, 16 ∣ t.length → dec (enc t) = t

def calculatePaddingLen (len : UInt32) : UInt32 := 0x10 - (len &&& 0x0F) + len

/-- `aes_cbc_128_enc_padding`; no result when the padding leaves the buffer. -/
def aesCbc128EncPadding (cipher : Cipher) (inputBuf : Bytes)
    (inputLength inputLengthPadding : UInt32) : Option Bytes :=
  let paddingChar := (inputLengthPadding - inputLength).toUInt8
  let n := inputLengthPadding.toNat - inputLength.toNat
  match memset inputBuf inputLength.toNat paddingChar n with
  | none => none
  | some buf => some (cipher.enc (buf.take inputLengthPadding.toNat))

/-- `aes_cbc_128_dec_padding`: the content of the output buffer and the length
without the padding. -/
def aesCbc128DecPadding (cipher : Cipher) (input : Bytes) :
    Except MkernelError (Bytes × UInt32) :=
  if input.length = 0 ∨ input.length % 16 ≠ 0 then .error .aesInputLen
  else
    let output := cipher.dec input
    let paddingChar := output.getD (input.length - 1) 0
    if 16 < paddingChar ∨ paddingChar ≤ 0 then .error .aesPaddingUnmatched
    else if (List.range paddingChar.toNat).all fun i =>
        output.getD (input.length - (i + 1)) 0 == paddingChar then
      .ok (output, (input.length - paddingChar.toNat).toUInt32)
    else .error .aesPaddingUnmatched

theorem toNat_toUInt32 {n : Nat} (h : n < 2 ^ 32) : n.toUInt32.toNat = n := by
  show (UInt32.ofNat n).toNat = n
  rw [UInt32.toNat_ofNat', Nat.mod_eq_of_lt h]

/-- The padding of a text. -/
def padding (data : Bytes) : Bytes :=
  List.replicate (16 - data.length % 16) (16 - data.length % 16).toUInt8

theorem length_padding (data : Bytes) : (padding data).length = 16 - data.length % 16 :=
  List.length_replicate

theorem dvd_length_padded (data : Bytes) : 16 ∣ (data ++ padding data).length := by
  rw [List.length_append, length_padding]
  omega

/-- A loop over the last bytes of a buffer that finds one value. -/
theorem drop_eq_replicate {buf : Bytes} {n : Nat} {b : UInt8} (hn : n ≤ buf.length)
    (hall : ∀ i < n, buf.getD (buf.length - (i + 1)) 0 = b) :
    buf.drop (buf.length - n) = List.replicate n b := by
  rw [List.eq_replicate_iff]
  refine ⟨by rw [List.length_drop]; omega, ?_⟩
  intro x hx
  obtain ⟨j, hj, rfl⟩ := List.getElem_of_mem hx
  rw [List.length_drop] at hj
  have hget := hall (n - 1 - j) (by omega)
  have hindex : buf.length - (n - 1 - j + 1) = buf.length - n + j := by omega
  rw [hindex, List.getD_eq_getElem _ _ (by omega)] at hget
  rw [List.getElem_drop]
  exact hget

/-- A buffer that was decrypted is a text and its padding. -/
theorem aesCbc128DecPadding_eq_ok {cipher : Cipher} {input plain : Bytes} {len : UInt32}
    (h : aesCbc128DecPadding cipher input = .ok (plain, len)) (hsize : input.length < 2 ^ 32) :
    plain.length = input.length ∧
      ∃ data, plain = data ++ padding data ∧ len.toNat = data.length := by
  unfold aesCbc128DecPadding at h
  split at h
  · cases h
  · next hlen =>
      dsimp only at h
      split at h
      · cases h
      · next hpad =>
          split at h
          · next hall =>
              cases h
              have hblocks : 16 ∣ input.length := Nat.dvd_of_mod_eq_zero (by omega)
              have hout := cipher.length_dec input hblocks
              generalize hchar : (cipher.dec input).getD (input.length - 1) 0 = char at *
              have hpos : 0 < char.toNat ∧ char.toNat ≤ 16 := by
                rw [not_or, UInt8.not_le, UInt8.not_lt, UInt8.lt_iff_toNat_lt,
                  UInt8.le_iff_toNat_le] at hpad
                exact hpad.symm
              refine ⟨hout, (cipher.dec input).take (input.length - char.toNat), ?_, ?_⟩
              · have hlast : (cipher.dec input).drop (input.length - char.toNat) =
                    List.replicate char.toNat char := by
                  rw [← hout] at hall ⊢
                  refine drop_eq_replicate (by omega) fun i hi => ?_
                  exact eq_of_beq (List.all_eq_true.mp hall i (List.mem_range.mpr hi))
                have hlen' : ((cipher.dec input).take (input.length - char.toNat)).length =
                    input.length - char.toNat := by
                  rw [List.length_take]
                  omega
                have hcount : 16 - (input.length - char.toNat) % 16 = char.toNat := by omega
                rw [padding, hlen', hcount]
                show _ = _ ++ List.replicate char.toNat (UInt8.ofNat char.toNat)
                rw [UInt8.ofNat_toNat, ← hlast, List.take_append_drop]
              · rw [toNat_toUInt32 (by omega), List.length_take, hout]
                omega
          · cases h

theorem aesCbc128DecPadding_bounds {cipher : Cipher} {input plain : Bytes} {len : UInt32}
    (h : aesCbc128DecPadding cipher input = .ok (plain, len)) (hsize : input.length < 2 ^ 32) :
    plain.length = input.length ∧ len.toNat < plain.length := by
  rcases aesCbc128DecPadding_eq_ok h hsize with ⟨hplain, data, hdata, hlen⟩
  have hpad := length_padding data
  refine ⟨hplain, ?_⟩
  rw [hdata, hlen, List.length_append]
  omega

theorem getD_padded (data : Bytes) {i : Nat} (hi : i < 16 - data.length % 16) :
    (data ++ padding data).getD ((data ++ padding data).length - (i + 1)) 0 =
      (16 - data.length % 16).toUInt8 := by
  have hlen := length_padding data
  have hge : data.length ≤ (data ++ padding data).length - (i + 1) := by
    rw [List.length_append]
    omega
  have hlt : (data ++ padding data).length - (i + 1) - data.length < 16 - data.length % 16 := by
    rw [List.length_append]
    omega
  rw [List.getD_append_right _ _ _ _ hge]
  exact List.getD_replicate _ hlt

theorem aesCbc128DecPadding_enc (cipher : Cipher) (data : Bytes)
    (hsize : data.length + 16 < 2 ^ 32) :
    aesCbc128DecPadding cipher (cipher.enc (data ++ padding data)) =
      .ok (data ++ padding data, data.length.toUInt32) := by
  have hblocks := dvd_length_padded data
  have hlen : (data ++ padding data).length = data.length + (16 - data.length % 16) := by
    rw [List.length_append, length_padding]
  have hmod : (data ++ padding data).length % 16 = 0 := Nat.mod_eq_zero_of_dvd hblocks
  have hchar : (16 - data.length % 16).toUInt8.toNat = 16 - data.length % 16 := by
    show (UInt8.ofNat _).toNat = _
    rw [UInt8.toNat_ofNat']
    omega
  unfold aesCbc128DecPadding
  simp only [cipher.length_enc _ hblocks, cipher.dec_enc _ hblocks]
  rw [if_neg (by omega), getD_padded data (by omega), if_neg, if_pos]
  · rw [hchar, hlen, Nat.add_sub_cancel]
  · rw [List.all_eq_true]
    intro i hi
    rw [hchar, List.mem_range] at hi
    rw [getD_padded data hi, beq_self_eq_true]
  · rw [not_or, UInt8.not_lt, UInt8.not_le, UInt8.le_iff_toNat_le, UInt8.lt_iff_toNat_lt, hchar]
    exact ⟨Nat.sub_le 16 _, by show 0 < _; omega⟩

/-! ## A cipher from a table

Whole blocks and their encryptions, exchanged pairwise; everything else stays as
it is.
-/

def swapAll : List (Bytes × Bytes) → Equiv.Perm Bytes
  | [] => Equiv.refl Bytes
  | (p, c) :: table => (Equiv.swap p c).trans (swapAll table)

theorem length_swapAll {table : List (Bytes × Bytes)}
    (h : ∀ x ∈ table, x.1.length = x.2.length) (t : Bytes) :
    (swapAll table t).length = t.length := by
  induction table generalizing t with
  | nil => rfl
  | cons x table ih =>
      rcases x with ⟨p, c⟩
      have hswap : (Equiv.swap p c t).length = t.length := by
        have hpc : p.length = c.length := h (p, c) List.mem_cons_self
        rw [Equiv.swap_apply_def]
        split
        · next hp => rw [hp, hpc]
        · split
          · next hc => rw [hc, hpc]
          · rfl
      have hrest := ih (fun y hy => h y (List.mem_cons_of_mem _ hy)) (Equiv.swap p c t)
      exact hrest.trans hswap

theorem length_swapAll_symm {table : List (Bytes × Bytes)}
    (h : ∀ x ∈ table, x.1.length = x.2.length) (t : Bytes) :
    ((swapAll table).symm t).length = t.length := by
  have hlen := length_swapAll h ((swapAll table).symm t)
  rw [Equiv.apply_symm_apply] at hlen
  exact hlen.symm

def Cipher.ofTable (table : List (Bytes × Bytes)) (h : ∀ x ∈ table, x.1.length = x.2.length) :
    Cipher where
  enc := swapAll table
  dec := (swapAll table).symm
  length_enc := fun t _ => length_swapAll h t
  length_dec := fun t _ => length_swapAll_symm h t
  dec_enc := fun t _ => Equiv.symm_apply_apply _ t

/-- What AES-128-CBC under the zero key does to the frames of the examples. -/
def sampleCipher : Cipher :=
  .ofTable [
    ([0, 10, 123, 34, 83, 101, 113, 34, 58, 49, 125, 5, 5, 5, 5, 5],
     [14, 173, 92, 24, 211, 111, 188, 15, 31, 27, 124, 12, 50, 31, 152, 237]),
    ([0, 7, 123, 34, 83, 101, 113, 34, 58, 49, 125, 5, 5, 5, 5, 5],
     [246, 106, 128, 2, 252, 200, 232, 96, 84, 158, 8, 147, 151, 125, 65, 21]),
    ([0, 7, 123, 34, 83, 101, 113, 34, 58, 50, 125, 5, 5, 5, 5, 5],
     [249, 33, 121, 167, 234, 80, 78, 235, 19, 205, 173, 173, 82, 91, 28, 1]),
    ([0, 9, 123, 34, 83, 101, 113, 34, 58, 49, 125, 104, 105, 3, 3, 3],
     [40, 104, 230, 163, 229, 201, 26, 87, 243, 159, 251, 142, 64, 159, 177, 144]),
    ([0, 35, 123, 34, 67, 109, 100, 86, 101, 114, 34, 58, 34, 118, 49, 34, 44, 34, 83, 101, 113,
      34, 58, 49, 44, 34, 77, 115, 103, 84, 121, 112, 101, 34, 58, 49, 125, 104, 105, 9, 9, 9, 9,
      9, 9, 9, 9, 9],
     [149, 70, 219, 177, 207, 250, 75, 125, 205, 191, 159, 109, 22, 144, 79, 150, 233, 75, 6,
      180, 144, 236, 234, 221, 36, 116, 99, 192, 121, 44, 185, 151, 246, 138, 115, 9, 180, 235,
      201, 147, 109, 206, 117, 112, 180, 159, 134, 24]),
    ([0, 18, 123, 34, 83, 101, 113, 34, 58, 50, 49, 52, 55, 52, 56, 51, 54, 52, 56, 125, 104,
      105, 10, 10, 10, 10, 10, 10, 10, 10, 10, 10],
     [174, 156, 210, 249, 215, 77, 50, 179, 150, 250, 33, 96, 2, 103, 149, 76, 132, 148, 113,
      180, 173, 82, 204, 10, 68, 39, 61, 92, 184, 68, 116, 162])] (by decide)

end EzIot.Das
