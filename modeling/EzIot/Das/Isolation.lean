import EzIot.Das.Frame

/-! # What a header depends on

The header is parsed in place, without a terminator behind it. A header that is a
complete object shields the parser from everything that follows; one that is not
can be completed by the body, by the padding or by the memory behind the buffer.
-/

namespace EzIot.Das

open CText Kernel CJson

structure HeaderBytes where
  val : Bytes
  short : val.length < 2 ^ 16

section Isolation

variable {H : Type}

/-- The decision about the header of a payload, and what is read from it. -/
def headerOf (kind : FrameKind H) (cipher : Cipher) (heap payload : Bytes) :
    Except MkernelError H :=
  (openHeader kind cipher heap payload).map (·.1)

/-- A payload decrypts to a frame with this header, in front of any body. -/
def Carries (cipher : Cipher) (payload : Bytes) (h : HeaderBytes) : Prop :=
  ∃ plain len, aesCbc128DecPadding cipher payload = .ok (plain, len) ∧
    (commonLen plain).toNat = h.val.length ∧ 2 + h.val.length ≤ len.toNat ∧
    (plain.drop 2).take h.val.length = h.val

/-- Any two frames with this header are treated alike, whatever their bodies,
their paddings and the memory behind them. -/
def HeaderIsolated (kind : FrameKind H) (cipher : Cipher) (h : HeaderBytes) : Prop :=
  ∀ (msg msg' : MqttMessage) (heap heap' : Bytes), Carries cipher msg.payload h →
    Carries cipher msg'.payload h →
      headerOf kind cipher heap msg.payload = headerOf kind cipher heap' msg'.payload

/-- A frame before it is padded. -/
def frameOf (h : HeaderBytes) (body : Bytes) : Bytes :=
  serializeShort h.val.length.toUInt16 ++ (h.val ++ body)

/-- The memory that can follow a header: a body, the padding, the heap. -/
def Follows (h : HeaderBytes) (mem : Bytes) : Prop :=
  ∃ body heap, (frameOf h body).length + 16 < 2 ^ 32 ∧
    mem = body ++ (padding (frameOf h body) ++ heap)

/-- The member that a header of the third version has. -/
def NamesSeq (v : Value) : Prop := ∃ d, v.getObjectItem seqName = some (.number d)

/-- The members that a header of the older versions has. -/
def NamesSeqAndVersion (v : Value) : Prop :=
  NamesSeq v ∧ ∃ s, v.getObjectItem cmdVerName = some (.string s)

/-- The header is a complete object, or nothing that can follow it makes it one with the
members. -/
def Closed (Members : Value → Prop) (h : HeaderBytes) : Prop :=
  (∃ ms, cJSONParse h.val = some (.object ms)) ∨
    ∀ mem, Follows h mem → ∀ v, cJSONParse (h.val ++ mem) = some v → ¬ Members v

/-! ## Frames with a given header -/

theorem length_frameOf (h : HeaderBytes) (body : Bytes) :
    (frameOf h body).length = 2 + h.val.length + body.length := by
  simp only [frameOf, serializeShort, List.length_append, List.length_cons, List.length_nil]
  omega

theorem commonLen_frameOf (h : HeaderBytes) (body rest : Bytes) :
    (commonLen (frameOf h body ++ rest)).toNat = h.val.length := by
  show (deserializeShort (h.val.length.toUInt16 / 256).toUInt8
    (h.val.length.toUInt16 % 256).toUInt8).toNat = _
  rw [deserializeShort_serializeShort, toNat_toUInt16 h.short]

theorem drop_frameOf (h : HeaderBytes) (body rest : Bytes) :
    (frameOf h body ++ rest).drop 2 = h.val ++ (body ++ rest) := by
  simp [frameOf, serializeShort]

theorem eq_frameOf {data rest : Bytes} {h : HeaderBytes} (hlen : 2 + h.val.length ≤ data.length)
    (hcommon : (commonLen (data ++ rest)).toNat = h.val.length)
    (htake : ((data ++ rest).drop 2).take h.val.length = h.val) :
    ∃ body, data = frameOf h body := by
  obtain ⟨b0, b1, tail, rfl⟩ : ∃ b0 b1 tail, data = b0 :: b1 :: tail := by
    rcases data with _ | ⟨b0, _ | ⟨b1, tail⟩⟩
    · rw [List.length_nil] at hlen
      omega
    · rw [List.length_singleton] at hlen
      omega
    · exact ⟨b0, b1, tail, rfl⟩
  rw [List.length_cons, List.length_cons] at hlen
  have hshort : h.val.length.toUInt16 = deserializeShort b0 b1 := by
    have hn : (deserializeShort b0 b1).toNat = h.val.length := hcommon
    rw [← hn]
    exact UInt16.ofNat_toNat
  have hval : tail.take h.val.length = h.val := by
    have hdrop : ((b0 :: b1 :: tail) ++ rest).drop 2 = tail ++ rest := rfl
    rw [hdrop, List.take_append_of_le_length (by omega)] at htake
    exact htake
  refine ⟨tail.drop h.val.length, ?_⟩
  have hsplit : h.val ++ tail.drop h.val.length = tail := by
    nth_rewrite 1 [← hval]
    exact List.take_append_drop _ _
  rw [frameOf, hshort, serializeShort_deserializeShort, hsplit]
  rfl

theorem Carries.exists_body {cipher : Cipher} {msg : MqttMessage} {h : HeaderBytes}
    (hcarries : Carries cipher msg.payload h) :
    ∃ body, (frameOf h body).length + 16 < 2 ^ 32 ∧
      aesCbc128DecPadding cipher msg.payload =
        .ok (frameOf h body ++ padding (frameOf h body), (frameOf h body).length.toUInt32) := by
  obtain ⟨plain, len, hdec, hcommon, hle, htake⟩ := hcarries
  rcases aesCbc128DecPadding_eq_ok hdec msg.payload_lt with ⟨hplain, data, rfl, hlen⟩
  rcases eq_frameOf (by omega) hcommon htake with ⟨body, rfl⟩
  have hlt := msg.payload_lt
  have hblocks := dvd_length_padded (frameOf h body)
  have hpad := length_padding (frameOf h body)
  rw [List.length_append] at hplain hblocks
  refine ⟨body, by omega, ?_⟩
  have hlen32 : len = (frameOf h body).length.toUInt32 := by
    rw [← hlen]
    exact UInt32.ofNat_toNat.symm
  rw [hdec, hlen32]

/-- Every body that fits stands behind the header in the payload of some message. -/
theorem exists_carries (cipher : Cipher) (h : HeaderBytes) {body : Bytes}
    (hfits : (frameOf h body).length + 16 < 2 ^ 32) :
    ∃ msg : MqttMessage, Carries cipher msg.payload h ∧
      aesCbc128DecPadding cipher msg.payload =
        .ok (frameOf h body ++ padding (frameOf h body), (frameOf h body).length.toUInt32) := by
  have hblocks := dvd_length_padded (frameOf h body)
  have hdec := aesCbc128DecPadding_enc cipher (frameOf h body) hfits
  have hlt : (cipher.enc (frameOf h body ++ padding (frameOf h body))).length < 2 ^ 32 := by
    rw [cipher.length_enc _ hblocks, List.length_append, length_padding]
    omega
  refine ⟨⟨[], _, hlt⟩, ⟨_, _, hdec, commonLen_frameOf h body _, ?_, ?_⟩, hdec⟩
  · rw [toNat_toUInt32 (by omega), length_frameOf]
    omega
  · rw [drop_frameOf, List.take_left]

/-- The header of a frame is read from the memory that starts with it. -/
theorem headerOf_eq {kind : FrameKind H} {cipher : Cipher} {payload heap body : Bytes}
    {h : HeaderBytes} (hfits : (frameOf h body).length + 16 < 2 ^ 32)
    (hdec : aesCbc128DecPadding cipher payload =
      .ok (frameOf h body ++ padding (frameOf h body), (frameOf h body).length.toUInt32)) :
    headerOf kind cipher heap payload =
      kind.deserialize (h.val ++ (body ++ (padding (frameOf h body) ++ heap))) := by
  have hlen : ¬ (frameOf h body).length.toUInt32.toNat ≤
      (commonLen (frameOf h body ++ padding (frameOf h body))).toNat := by
    rw [toNat_toUInt32 (by omega), commonLen_frameOf, length_frameOf]
    omega
  unfold headerOf openHeader
  simp only [hdec, if_neg hlen, drop_frameOf, List.append_assoc]
  cases kind.deserialize (h.val ++ (body ++ (padding (frameOf h body) ++ heap))) <;> rfl

/-! ## Isolation -/

/-- A header is read from the value that the parser finds, which has to have the
members. -/
structure ReadsMembers (kind : FrameKind H) (Members : Value → Prop) : Prop where
  congr : ∀ mem mem', cJSONParse mem = cJSONParse mem' →
    kind.deserialize mem = kind.deserialize mem'
  ok_iff : ∀ mem, (∃ header, kind.deserialize mem = .ok header) ↔
    ∃ v, cJSONParse mem = some v ∧ Members v
  error : ∀ mem e, kind.deserialize mem = .error e → e = .jsonParseError

theorem cJSONParse_zero (t mem : Bytes) : cJSONParse (t ++ 0 :: mem) = cJSONParse t := by
  have hcut : cstr (t ++ 0 :: mem) = cstr t := by
    by_cases hz : (0 : UInt8) ∈ t
    · exact cstr_append_of_zero hz _
    · rw [cstr_append_of_no_zero hz, cstr_of_no_zero hz]
      exact List.append_nil t
  unfold cJSONParse
  rw [hcut]

theorem exists_object_of_getObjectItem {item v : Value} {name : Bytes}
    (h : item.getObjectItem name = some v) : ∃ ms, item = .object ms := by
  cases item with
  | object ms => exact ⟨ms, rfl⟩
  | null | bool | number | string | array => cases h

theorem NamesSeq.object {v : Value} (h : NamesSeq v) : ∃ ms, v = .object ms := by
  obtain ⟨d, hseq⟩ := h
  exact exists_object_of_getObjectItem hseq

theorem ReadsMembers.isolated_iff {kind : FrameKind H} {Members : Value → Prop}
    (hkind : ReadsMembers kind Members) (hobject : ∀ v, Members v → NamesSeq v) (cipher : Cipher)
    (h : HeaderBytes) : HeaderIsolated kind cipher h ↔ Closed Members h := by
  constructor
  · intro hiso
    by_cases hcomplete : ∃ ms, cJSONParse h.val = some (.object ms)
    · exact .inl hcomplete
    · refine .inr ?_
      rintro mem ⟨body, heap, hfits, rfl⟩ v hparse hmembers
      have hshort := h.short
      -- the frame whose body is a zero byte ends the header text
      have hfits' : (frameOf h [0]).length + 16 < 2 ^ 32 := by
        rw [length_frameOf, List.length_singleton]
        omega
      obtain ⟨msg, hmsg, hdec⟩ := exists_carries cipher h hfits
      rcases exists_carries cipher h hfits' with ⟨msg', hmsg', hdec'⟩
      have hsame := hiso msg msg' heap [] hmsg hmsg'
      rw [headerOf_eq hfits hdec, headerOf_eq hfits' hdec'] at hsame
      obtain ⟨header, hread⟩ := (hkind.ok_iff _).mpr ⟨v, hparse, hmembers⟩
      rw [hread] at hsame
      obtain ⟨v', hparse', hmembers'⟩ := (hkind.ok_iff _).mp ⟨header, hsame.symm⟩
      rw [List.singleton_append, cJSONParse_zero] at hparse'
      obtain ⟨ms, rfl⟩ := (hobject v' hmembers').object
      exact hcomplete ⟨ms, hparse'⟩
  · intro hclosed msg msg' heap heap' hmsg hmsg'
    obtain ⟨body, hfits, hdec⟩ := hmsg.exists_body
    rcases hmsg'.exists_body with ⟨body', hfits', hdec'⟩
    rw [headerOf_eq hfits hdec, headerOf_eq hfits' hdec']
    rcases hclosed with ⟨ms, hms⟩ | hreject
    · apply hkind.congr
      rw [cJSONParse_append hms, cJSONParse_append hms]
    · have herror : ∀ mem, Follows h mem → kind.deserialize (h.val ++ mem) = .error .jsonParseError := by
        intro mem hfollows
        cases hresult : kind.deserialize (h.val ++ mem) with
        | error e => rw [hkind.error _ _ hresult]
        | ok header =>
            obtain ⟨v, hparse, hmembers⟩ := (hkind.ok_iff _).mp ⟨header, hresult⟩
            exact absurd hmembers (hreject mem hfollows v hparse)
      rw [herror _ ⟨body, heap, hfits, rfl⟩, herror _ ⟨body', heap', hfits', rfl⟩]

end Isolation

theorem readsMembers_kindV3 : ReadsMembers kindV3 NamesSeq where
  congr := by
    intro mem mem' h
    show deserializeCommonV3 mem = deserializeCommonV3 mem'
    unfold deserializeCommonV3
    rw [h]
  ok_iff := by
    intro mem
    show (∃ header, deserializeCommonV3 mem = .ok header) ↔ _
    unfold deserializeCommonV3 NamesSeq
    cases cJSONParse mem with
    | none => simp
    | some item =>
        cases hseq : item.getObjectItem seqName with
        | none => simp [hseq]
        | some x => cases x <;> simp [hseq]
  error := by
    intro mem e h
    change deserializeCommonV3 mem = .error e at h
    unfold deserializeCommonV3 at h
    split at h
    · cases h
      rfl
    · split at h <;> cases h
      rfl

/-- The older decoders share their reader. -/
theorem readsMembers_of_deserializeCommon {kind : FrameKind CommonHeader}
    (hkind : kind.deserialize = deserializeCommon) : ReadsMembers kind NamesSeqAndVersion where
  congr := by
    intro mem mem' h
    rw [hkind]
    unfold deserializeCommon
    rw [h]
  ok_iff := by
    intro mem
    rw [hkind]
    unfold deserializeCommon NamesSeqAndVersion NamesSeq
    cases cJSONParse mem with
    | none => simp
    | some item =>
        cases hseq : item.getObjectItem seqName with
        | none => simp [hseq]
        | some x =>
            cases hver : item.getObjectItem cmdVerName with
            | none => cases x <;> simp [hseq, hver]
            | some y => cases x <;> cases y <;> simp [hseq, hver]
  error := by
    intro mem e h
    rw [hkind] at h
    unfold deserializeCommon at h
    split at h
    · cases h
      rfl
    · split at h <;> cases h
      rfl

/-- For each of the three decoders, the header of a frame is read from its own
bytes alone exactly when it is closed. -/
theorem headers_isolated_iff_closed (cipher : Cipher) (h : HeaderBytes) :
    (HeaderIsolated kindV3 cipher h ↔ Closed NamesSeq h) ∧
    (HeaderIsolated kindEx cipher h ↔ Closed NamesSeqAndVersion h) ∧
    (HeaderIsolated kindV2 cipher h ↔ Closed NamesSeqAndVersion h) := by
  have hboth : ∀ v, NamesSeqAndVersion v → NamesSeq v := fun _ hv => hv.1
  exact ⟨readsMembers_kindV3.isolated_iff (fun _ hv => hv) cipher h,
    (readsMembers_of_deserializeCommon rfl).isolated_iff hboth cipher h,
    (readsMembers_of_deserializeCommon rfl).isolated_iff hboth cipher h⟩

/-- The seven bytes `{"Seq":`, to be completed by a body. -/
def openText : HeaderBytes := ⟨ascii "\x7b\"Seq\":", by decide⟩

/-- The encrypted frames `00 07 {"Seq":1}` and `00 07 {"Seq":2}`. -/
def completedByOne : MqttMessage where
  topicName := []
  payload := [246, 106, 128, 2, 252, 200, 232, 96, 84, 158, 8, 147, 151, 125, 65, 21]
  payload_lt := by decide

def completedByTwo : MqttMessage where
  topicName := []
  payload := [249, 33, 121, 167, 234, 80, 78, 235, 19, 205, 173, 173, 82, 91, 28, 1]
  payload_lt := by decide

theorem headerOf_completed {n : UInt32} (body : Bytes) {payload : Bytes}
    (hfits : (frameOf openText body).length + 16 < 2 ^ 32)
    (hdec : aesCbc128DecPadding sampleCipher payload =
      .ok (frameOf openText body ++ padding (frameOf openText body),
        (frameOf openText body).length.toUInt32))
    (hbody : openText.val ++ body = serializePayloadCommonV3 n) (hn : n.toNat < 2 ^ 31) :
    headerOf kindV3 sampleCipher [] payload = .ok n := by
  rw [headerOf_eq hfits hdec, ← List.append_assoc, hbody]
  show deserializeCommonV3 _ = _
  rw [deserializeCommonV3_serialize, (seqOf_eq_iff n).mpr hn]

theorem openText_not_isolated : ¬ HeaderIsolated kindV3 sampleCipher openText := by
  have hone : headerOf kindV3 sampleCipher [] completedByOne.payload = .ok 1 :=
    headerOf_completed (ascii "1\x7d") (by decide) (by rfl) (by decide) (by decide)
  have htwo : headerOf kindV3 sampleCipher [] completedByTwo.payload = .ok 2 :=
    headerOf_completed (ascii "2\x7d") (by decide) (by rfl) (by decide) (by decide)
  intro h
  have hsame := h completedByOne completedByTwo [] []
    ⟨_, _, rfl, by decide, by decide, by decide⟩ ⟨_, _, rfl, by decide, by decide, by decide⟩
  rw [hone, htwo] at hsame
  exact absurd hsame (by decide)

end EzIot.Das
