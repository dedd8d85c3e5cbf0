import EzIot.CJson.Tree
import EzIot.Shadow.Paths
import EzIot.Shadow.Route

/-! # The codec of shadow values

A value of the cloud becomes a tagged union and back. The length of a text in it tells
also that there is a value at all.
-/

namespace EzIot.Shadow

open CText CJson Nested

/-! ## Texts -/

/-- The text that a converted value points to. -/
def textOf (print : Value → Bytes) : Value → Option Bytes
  | .string s => some s
  | .array items => some (print (.array items))
  | .object members => some (print (.object members))
  | _ => none

/-- The text behind the pointer. -/
def ShadowData.text : ShadowData → Option Bytes
  | .string s => some s.val
  | .array mem => some (cstr mem)
  | .object mem => some (cstr mem)
  | _ => none

/-- A text has a length that is not 0 as an `ez_uint32_t`. -/
def Counted (text : Option Bytes) : Prop := ∀ t ∈ text, t.length % 4294967296 ≠ 0

theorem counted_some {t : Bytes} : Counted (some t) ↔ t.length.toUInt32 ≠ 0 := by
  have hnat : t.length.toUInt32.toNat = t.length % 4294967296 := UInt32.toNat_ofNat
  simp only [Counted, Option.mem_some_iff, forall_eq', ← hnat, Ne, ← UInt32.toNat_inj]
  rfl

theorem counted_none : Counted none := fun _ h => nomatch h

/-! ## From a JSON value and back -/

/-- The values that the codec is for: an array or an object is parsed back from its text. -/
def Codable (print : Value → Bytes) : Value → Prop
  | .null => False
  | .bool _ => True
  | .number d => ∃ i, intMin ≤ i ∧ i ≤ intMax ∧ d = .ofInt i
  | .string s => (0 : UInt8) ∉ s
  | .array items => cJSONParse (print (.array items)) = some (.array items)
  | .object members => cJSONParse (print (.object members)) = some (.object members)

theorem codable_printValue {printNumber : Rat → Bytes} {v : Value} (hv : v.isContainer = true)
    (hfits : Fits 0 v) (hprint : Each (Printable printNumber) v) :
    Codable (printValue printNumber) v := by
  have hback := cJSONParse_printValue hv hfits hprint
  cases v with
  | array items => exact hback
  | object members => exact hback
  | _ => cases hv

theorem valueint_of_fits {i : Int} (hmin : intMin ≤ i) (hmax : i ≤ intMax) :
    (Dbl.ofInt i).valueint = i := by
  rw [Dbl.valueint_ofInt]
  omega

theorem isDouble_ofInt {i : Int} (hmin : intMin ≤ i) (hmax : i ≤ intMax) :
    isDouble (.ofInt i) = false := by
  have hint : (Dbl.fin (i : Rat)).valueint = i := valueint_of_fits hmin hmax
  unfold isDouble Dbl.ofInt
  have hzero : (0 : Rat) ≤ mkRat 1 (2 ^ 52) := by decide +kernel
  simp only [hint, sub_self, Rat.intCast_le_intCast, hzero, hmin, hmax, decide_true, Bool.and_self,
    Bool.not_true]

/-- A value that is a text survives exactly if its length is not 0. -/
theorem keeps_text_iff {v : Value} {length : UInt32} {data : ShadowData}
    (hdata : length ≠ 0 → tlv2json ⟨length, data⟩ = some v) :
    (∃ tlv, some (ShadowValue.mk length data) = some tlv ∧ tlv2json tlv = some v) ↔ length ≠ 0 := by
  constructor
  · intro hcodec hzero
    rcases hcodec with ⟨tlv, hsome, hback⟩
    cases hsome
    rw [tlv2json, if_pos hzero] at hback
    cases hback
  · exact fun hne => ⟨_, rfl, hdata hne⟩

theorem codec_iff (print : Value → Bytes) {v : Value} (hv : Codable print v) :
    (∃ tlv, json2tlv print v = some tlv ∧ tlv2json tlv = some v) ↔ Counted (textOf print v) := by
  cases v with
  | null => exact absurd hv id
  | bool b =>
      refine iff_of_true ⟨_, rfl, ?_⟩ counted_none
      cases b <;> rfl
  | number d =>
      obtain ⟨i, hmin, hmax, rfl⟩ := hv
      refine iff_of_true ⟨_, rfl, ?_⟩ counted_none
      rw [isDouble_ofInt hmin hmax, valueint_of_fits hmin hmax]
      rfl
  | string s =>
      rw [textOf, counted_some]
      refine keeps_text_iff fun hne => ?_
      rw [tlv2json, if_neg hne]
      change some (Value.string (cstr s)) = _
      rw [cstr_of_no_zero hv]
  | array items =>
      rw [textOf, counted_some]
      refine keeps_text_iff fun hne => ?_
      rw [tlv2json, if_neg hne]
      exact hv
  | object members =>
      rw [textOf, counted_some]
      refine keeps_text_iff fun hne => ?_
      rw [tlv2json, if_neg hne]
      exact hv

/-! ## Pushed values -/

/-- A value of one of the types, with the length that `json2tlv` would give it. -/
def WellFormed (tlv : ShadowValue) : Prop :=
  match tlv.data with
  | .bool _ => tlv.length = 4
  | .int i => tlv.length = 4 ∧ intMin ≤ i ∧ i ≤ intMax
  | .string s => tlv.length = s.length.toUInt32
  | .array mem => tlv.length = (cstr mem).length.toUInt32 ∧ ∃ items, cJSONParse mem = some (.array items)
  | .object mem =>
      tlv.length = (cstr mem).length.toUInt32 ∧ ∃ members, cJSONParse mem = some (.object members)
  | _ => False

theorem tlv2json_isSome {tlv : ShadowValue} (h : tlv.length ≠ 0 → (tlv2json tlv).isSome) :
    (tlv2json tlv).isSome ↔ tlv.length ≠ 0 := by
  refine ⟨fun hsome hzero => ?_, h⟩
  rw [tlv2json, if_pos hzero] at hsome
  cases hsome

theorem tlv2json_isSome_iff {tlv : ShadowValue} (h : WellFormed tlv) :
    (tlv2json tlv).isSome ↔ Counted tlv.data.text := by
  obtain ⟨length, data⟩ := tlv
  cases data with
  | bool i =>
      cases (h : length = 4)
      exact iff_of_true rfl counted_none
  | int i =>
      cases (h.1 : length = 4)
      exact iff_of_true rfl counted_none
  | double d => exact absurd h id
  | string s =>
      cases (h : length = s.val.length.toUInt32)
      rw [ShadowData.text, counted_some]
      refine tlv2json_isSome fun hne => ?_
      rw [tlv2json, if_neg hne]
      rfl
  | array mem =>
      obtain ⟨hlength, items, hparse⟩ := h
      cases hlength
      rw [ShadowData.text, counted_some]
      refine tlv2json_isSome fun hne => ?_
      rw [tlv2json, if_neg hne]
      exact Option.isSome_of_eq_some hparse
  | object mem =>
      obtain ⟨hlength, members, hparse⟩ := h
      cases hlength
      rw [ShadowData.text, counted_some]
      refine tlv2json_isSome fun hne => ?_
      rw [tlv2json, if_neg hne]
      exact Option.isSome_of_eq_some hparse
  | max => exact absurd h id

/-- The key holds a pushed value, which the next report is made of. -/
def Holds (k : NodeKey) (tlv : ShadowValue) : Prop :=
  ∃ value, tlv2json tlv = some value ∧ k.jsonValue = some value ∧
    ∀ own v devSn resType index domain,
      k.pending own v devSn resType index domain = .json value

theorem holds_changed_iff {k : NodeKey} {tlv : ShadowValue} (h : WellFormed tlv) :
    Holds (k.changed (some tlv)) tlv ↔ Counted tlv.data.text := by
  rw [← tlv2json_isSome_iff h, Option.isSome_iff_exists]
  constructor
  · intro hback
    rcases hback with ⟨value, hvalue, -⟩
    exact ⟨value, hvalue⟩
  · intro hsome
    rcases hsome with ⟨value, hvalue⟩
    have hjson : (k.changed (some tlv)).jsonValue = some value := hvalue
    refine ⟨value, hvalue, hjson, fun own v devSn resType index domain => ?_⟩
    rw [NodeKey.pending, hjson]

theorem keyAt_push {own sn resType domainId pkey : CString} {index : Int16}
    {value : Option ShadowValue} {g : Modules} {q : KeyPath} {k : NodeKey}
    (h : findKeyNode g (devName own sn) resType index domainId pkey = .ok (q, k)) :
    keyAt (shadowCorePropertieChanged own sn resType index domainId pkey value g).2 q =
      some (k.changed value) := by
  rw [propertieChanged_eq, h, keyAt_pushAt, keyAt_of_findKeyNode h, Option.map_some]

/-! ## Nothing is lost -/

/-- The codec gives a value back, and a push keeps the value that was pushed, exactly if the
text in it is counted: it is not empty, nor as long as a multiple of 2^32. -/
theorem shadow_codec_iff (print : Value → Bytes) :
    (∀ v, Codable print v →
      ((∃ tlv, json2tlv print v = some tlv ∧ tlv2json tlv = some v) ↔ Counted (textOf print v))) ∧
    ∀ own sn resType index domainId pkey tlv g q k, WellFormed tlv →
      findKeyNode g (devName own sn) resType index domainId pkey = .ok (q, k) →
      ((shadowCorePropertieChanged own sn resType index domainId pkey (some tlv) g).1 = .succ ∧
        ∃ k', keyAt (shadowCorePropertieChanged own sn resType index domainId pkey (some tlv) g).2 q =
          some k' ∧ (Holds k' tlv ↔ Counted tlv.data.text)) := by
  refine ⟨fun v hv => codec_iff print hv, ?_⟩
  intro own sn resType index domainId pkey tlv g q k hwell hfind
  refine ⟨?_, _, keyAt_push hfind, holds_changed_iff hwell⟩
  rw [shadowCorePropertieChanged, hfind]

/-- A text comes back, and is kept when it is pushed. -/
theorem shadow_codec_iff_text :
    (∃ tlv, json2tlv sampleApp.print (.string (ascii "on")) = some tlv ∧
      tlv2json tlv = some (.string (ascii "on"))) ∧
      ∃ k, keyAt (shadowCorePropertieChanged (.lit "OWN") (.lit "SUB1") (.lit "Video") 0 (.lit "light")
        (.lit "power") (some ⟨2, .string (.lit "on")⟩)
        (shadowCoreModuleAddv3 (.lit "OWN") sampleRegistration []).2).2 (0, 0, 0, 0, 0, ()) = some k ∧
        Holds k ⟨2, .string (.lit "on")⟩ := by
  obtain ⟨hback, hpush⟩ := shadow_codec_iff sampleApp.print
  have hcounted : Counted (some (ascii "on")) := counted_some.mpr (by decide)
  have hzero : Codable sampleApp.print (.string (ascii "on")) :=
    show (0 : UInt8) ∉ ascii "on" by decide
  refine ⟨(hback _ hzero).mpr hcounted, ?_⟩
  obtain ⟨-, k, hkey, hholds⟩ := hpush (.lit "OWN") (.lit "SUB1") (.lit "Video") 0 (.lit "light")
    (.lit "power") ⟨2, .string (.lit "on")⟩ (shadowCoreModuleAddv3 (.lit "OWN") sampleRegistration []).2
    (0, 0, 0, 0, 0, ()) _ rfl rfl
  exact ⟨k, hkey, hholds.mpr hcounted⟩

/-- The empty string does not come back, and a push of it stores nothing. -/
theorem empty_string_lost :
    (¬ ∃ tlv, json2tlv sampleApp.print (.string []) = some tlv ∧ tlv2json tlv = some (.string [])) ∧
      WellFormed ⟨0, .string (.lit "")⟩ ∧
      ∃ k, keyAt (shadowCorePropertieChanged (.lit "OWN") (.lit "SUB1") (.lit "Video") 0 (.lit "light")
        (.lit "power") (some ⟨0, .string (.lit "")⟩)
        (shadowCoreModuleAddv3 (.lit "OWN") sampleRegistration []).2).2 (0, 0, 0, 0, 0, ()) = some k ∧
        k.needReport = true ∧ k.jsonValue.isNone := by
  refine ⟨?_, rfl, _, rfl, rfl, rfl⟩
  intro hcodec
  rcases hcodec with ⟨tlv, htlv, hback⟩
  cases htlv
  cases hback

end EzIot.Shadow
