import EzIot.Das.Send

/-! # The padding codec

What `aes_cbc_128_dec_padding` accepts, and that it accepts what
`aes_cbc_128_enc_padding` made, for every length and every content.
-/

namespace EzIot.Das

open CText Kernel

/-- A text whose last `k` bytes all have the value `k`. -/
def EndsInPadding (text : Bytes) (k : Nat) : Prop :=
  1 ≤ k ∧ k ≤ 16 ∧ ∃ data, text = data ++ List.replicate k k.toUInt8

theorem toNat_paddingChar {k : Nat} (hk : k ≤ 16) : k.toUInt8.toNat = k := by
  change (UInt8.ofNat k).toNat = k
  rw [UInt8.toNat_ofNat']
  omega

theorem padding_endsInPadding (data : Bytes) :
    EndsInPadding (data ++ padding data) (16 - data.length % 16) := by
  have hmod := Nat.mod_lt data.length (show 0 < 16 by omega)
  exact ⟨by omega, by omega, data, rfl⟩

/-- Counted from the end, the padding bytes are the first ones. -/
theorem getD_of_endsInPadding {text : Bytes} {k : Nat} (h : EndsInPadding text k) {i : Nat}
    (hi : i < k) : text.getD (text.length - (i + 1)) 0 = k.toUInt8 := by
  rcases h with ⟨_, _, data, rfl⟩
  have hlen : (data ++ List.replicate k k.toUInt8).length = data.length + k := by
    rw [List.length_append, List.length_replicate]
  rw [hlen, List.getD_append_right _ _ _ _ (by omega)]
  exact List.getD_replicate _ (by omega)

/-- The converse of `aesCbc128DecPadding_eq_ok`: the check of the padding bytes
passes whenever they are there. -/
theorem aesCbc128DecPadding_of_endsInPadding {cipher : Cipher} {input : Bytes} {k : Nat}
    (hpos : 0 < input.length) (hblocks : 16 ∣ input.length)
    (hends : EndsInPadding (cipher.dec input) k) :
    aesCbc128DecPadding cipher input =
      .ok (cipher.dec input, (input.length - k).toUInt32) := by
  have hlen := cipher.length_dec input hblocks
  have hk1 := hends.1
  have hk := hends.2.1
  have hchar := toNat_paddingChar hk
  have hlast : (cipher.dec input).getD (input.length - 1) 0 = k.toUInt8 := by
    have h := getD_of_endsInPadding hends (i := 0) (by omega)
    rw [hlen] at h
    exact h
  have hmod : input.length % 16 = 0 := Nat.mod_eq_zero_of_dvd hblocks
  have hrange : ¬ (16 < k.toUInt8 ∨ k.toUInt8 ≤ 0) := by
    rw [UInt8.lt_iff_toNat_lt, UInt8.le_iff_toNat_le, hchar]
    change ¬ (16 < k ∨ k ≤ 0)
    omega
  have hall : ((List.range k.toUInt8.toNat).all fun i =>
      (cipher.dec input).getD (input.length - (i + 1)) 0 == k.toUInt8) = true := by
    rw [List.all_eq_true]
    intro i hi
    rw [hchar, List.mem_range] at hi
    have h := getD_of_endsInPadding hends hi
    rw [hlen] at h
    rw [h, beq_self_eq_true]
  unfold aesCbc128DecPadding
  rw [if_neg (by omega)]
  simp only [hlast]
  rw [if_neg hrange, if_pos hall, hchar]

/-- What is accepted is whole blocks that end in padding. -/
theorem endsInPadding_of_aesCbc128DecPadding {cipher : Cipher} {input output : Bytes}
    {len : UInt32} (hsize : input.length < 2 ^ 32)
    (h : aesCbc128DecPadding cipher input = .ok (output, len)) :
    0 < input.length ∧ 16 ∣ input.length ∧ ∃ k, EndsInPadding (cipher.dec input) k := by
  have hout : output = cipher.dec input ∧ ¬ (input.length = 0 ∨ input.length % 16 ≠ 0) := by
    unfold aesCbc128DecPadding at h
    split at h
    · cases h
    · next hlen =>
        dsimp only at h
        split at h
        · cases h
        · split at h
          · cases h
            exact ⟨rfl, hlen⟩
          · cases h
  have hbounds := aesCbc128DecPadding_eq_ok h hsize
  rcases hbounds.2 with ⟨data, hdata, _⟩
  have hblocks : 16 ∣ input.length := Nat.dvd_of_mod_eq_zero (by omega)
  have hpad := padding_endsInPadding data
  rw [← hdata, hout.1] at hpad
  exact ⟨by omega, hblocks, _, hpad⟩

/-- Decoding an encoded text gives the text and its length back, and exactly the
padded texts are decoded. -/
theorem padding_codec (cipher : Cipher) (data room input : Bytes)
    (hdata : data.length < 2 ^ 31 - 16)
    (hroom : (calculatePaddingLen data.length.toUInt32).toNat ≤ data.length + room.length)
    (hinput : input.length < 2 ^ 32) :
    (∃ encoded output len,
      aesCbc128EncPadding cipher (data ++ room) data.length.toUInt32
        (calculatePaddingLen data.length.toUInt32) = some encoded ∧
      aesCbc128DecPadding cipher encoded = .ok (output, len) ∧
      len.toNat = data.length ∧ output.take len.toNat = data) ∧
    ((∃ output len, aesCbc128DecPadding cipher input = .ok (output, len)) ↔
      0 < input.length ∧ 16 ∣ input.length ∧ ∃ k, EndsInPadding (cipher.dec input) k) ∧
    ∀ output len k, aesCbc128DecPadding cipher input = .ok (output, len) →
      EndsInPadding (cipher.dec input) k →
        output = cipher.dec input ∧ len.toNat = input.length - k := by
  refine ⟨?_, ⟨?_, ?_⟩, ?_⟩
  · have hlen := toNat_toUInt32 (n := data.length) (by omega)
    have henc := aesCbc128EncPadding_room cipher hlen (by omega) hroom
    have hdec := aesCbc128DecPadding_enc cipher data (by omega)
    exact ⟨_, _, _, henc, hdec, hlen, by rw [hlen, List.take_left]⟩
  · intro h
    rcases h with ⟨output, len, h⟩
    exact endsInPadding_of_aesCbc128DecPadding hinput h
  · intro h
    rcases h with ⟨hpos, hblocks, k, hends⟩
    exact ⟨_, _, aesCbc128DecPadding_of_endsInPadding hpos hblocks hends⟩
  · intro output len k h hends
    have haccepted := endsInPadding_of_aesCbc128DecPadding hinput h
    have hdec := aesCbc128DecPadding_of_endsInPadding haccepted.1 haccepted.2.1 hends
    rw [h] at hdec
    cases hdec
    exact ⟨rfl, toNat_toUInt32 (by omega)⟩

/-- The last bytes of a message, and what they become with their padding. -/
def sampleMessage : Bytes := [0, 10, 123, 34, 83, 101, 113, 34, 58, 49, 125]

def sampleBlock : Bytes :=
  [14, 173, 92, 24, 211, 111, 188, 15, 31, 27, 124, 12, 50, 31, 152, 237]

theorem padding_codec_message :
    (∃ encoded output len,
      aesCbc128EncPadding sampleCipher (sampleMessage ++ List.replicate 5 0) 11 16 = some encoded ∧
      aesCbc128DecPadding sampleCipher encoded = .ok (output, len) ∧
      len.toNat = 11 ∧ output.take len.toNat = sampleMessage) ∧
    (∃ output len, aesCbc128DecPadding sampleCipher sampleBlock = .ok (output, len)) ∧
    ∀ output len, aesCbc128DecPadding sampleCipher sampleBlock = .ok (output, len) →
      output = sampleMessage ++ List.replicate 5 5 ∧ len.toNat = 11 := by
  have hplain : sampleCipher.dec sampleBlock = sampleMessage ++ List.replicate 5 5 := by
    decide +kernel
  have hends : EndsInPadding (sampleCipher.dec sampleBlock) 5 :=
    ⟨by decide, by decide, sampleMessage, hplain⟩
  obtain ⟨hback, haccepted, hread⟩ := padding_codec sampleCipher sampleMessage (List.replicate 5 0)
    sampleBlock (by decide) (by decide) (by decide)
  refine ⟨hback, haccepted.mpr ⟨by decide, by decide, 5, hends⟩, fun output len hdec => ?_⟩
  rw [← hplain]
  exact hread output len 5 hdec hends

end EzIot.Das
