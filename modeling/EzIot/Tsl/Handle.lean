import EzIot.Lib.Base64
import EzIot.Tsl.Storage

/-! # The handles of the profiles

A handle is made of the digest of a type and a version. The two texts are fed one behind the
other, and the digest does not tell where the first one ends.
-/

namespace EzIot.Tsl

open CText CJson Kv

/-! ## Handles -/

structure Md5 where
  digest : Bytes → Bytes
  length_digest : ∀ input, (digest input).length = 16

/-- What the digest of a model is taken of. -/
def md5Input (m : DevModel) : Bytes := m.1.val ++ m.2.val

theorem zero_not_mem_handle (b : Bytes) : (0 : UInt8) ∉ ascii "tslpf_" ++ Base64.encode b := by
  intro h
  rcases List.mem_append.mp h with hprefix | htext
  · exact absurd hprefix (by decide)
  · exact absurd (Base64.encode_plain b 0 htext).1 (by decide)

def storageDevinfo2index (md5 : Md5) (m : DevModel) : CField 32 :=
  .strncpy ⟨ascii "tslpf_" ++ Base64.encode (md5.digest (md5Input m)), zero_not_mem_handle _⟩

/-- The one is the other with an end of the type moved to the front of the version. -/
def Shifted (m m' : DevModel) : Prop :=
  ∃ moved : Bytes, moved ≠ [] ∧ m.1.val = m'.1.val ++ moved ∧ m'.2.val = moved ++ m.2.val

section Index

variable {md5 : Md5} {m m' : DevModel}

theorem length_handle (md5 : Md5) (m : DevModel) :
    (ascii "tslpf_" ++ Base64.encode (md5.digest (md5Input m))).length = 30 := by
  have hprefix : (ascii "tslpf_").length = 6 := by decide
  rw [List.length_append, Base64.length_encode, md5.length_digest, hprefix]

/-- A handle fits into its 32 characters. -/
theorem val_storageDevinfo2index (md5 : Md5) (m : DevModel) : (storageDevinfo2index md5 m).val =
    ascii "tslpf_" ++ Base64.encode (md5.digest (md5Input m)) := by
  have hlength := length_handle md5 m
  exact List.take_of_length_le (hlength.trans_le (by omega))

theorem storageDevinfo2index_eq_iff : storageDevinfo2index md5 m = storageDevinfo2index md5 m' ↔
    md5.digest (md5Input m) = md5.digest (md5Input m') := by
  constructor
  · intro h
    have hval := congrArg (fun f : CField 32 => f.val) h
    simp only [val_storageDevinfo2index] at hval
    refine Base64.encode_inj ?_ (List.append_cancel_left hval)
    rw [md5.length_digest, md5.length_digest]
  · intro h
    unfold storageDevinfo2index
    simp only [h]

theorem md5Input_eq_iff : md5Input m = md5Input m' ↔ m = m' ∨ Shifted m m' ∨ Shifted m' m := by
  obtain ⟨type, ver⟩ := m
  obtain ⟨type', ver'⟩ := m'
  unfold md5Input Shifted
  constructor
  · intro h
    rcases List.append_eq_append_iff.mp h with ⟨moved, htype, hver⟩ | ⟨moved, htype, hver⟩
    · by_cases hmoved : moved = []
      · subst hmoved
        rw [List.append_nil] at htype
        have hsame : type = type' := CString.ext htype.symm
        have hsame' : ver = ver' := CString.ext hver
        exact .inl (by rw [hsame, hsame'])
      · exact .inr (.inr ⟨moved, hmoved, htype, hver⟩)
    · by_cases hmoved : moved = []
      · subst hmoved
        rw [List.append_nil] at htype
        have hsame : type = type' := CString.ext htype
        have hsame' : ver = ver' := CString.ext hver.symm
        exact .inl (by rw [hsame, hsame'])
      · exact .inr (.inl ⟨moved, hmoved, htype, hver⟩)
  · rintro (h | ⟨moved, -, htype, hver⟩ | ⟨moved, -, htype, hver⟩)
    · rw [h]
    · dsimp only at htype hver
      rw [htype, hver, List.append_assoc]
    · dsimp only at htype hver
      rw [htype, hver, List.append_assoc]

theorem Shifted.ne (h : Shifted m m') : m ≠ m' := by
  rintro rfl
  obtain ⟨moved, hne, htype, -⟩ := h
  exact hne (List.self_eq_append_right.mp htype)

theorem Shifted.type_begins (h : Shifted m m') : m'.1.val <+: m.1.val := by
  obtain ⟨moved, -, htype, -⟩ := h
  exact ⟨moved, htype.symm⟩

end Index

/-! ## Storages with these handles -/

section Sharing

variable {known : Set DevModel}

/-- The storage with handles that tell the known models apart. -/
def md5Config (md5 : Md5) (mapSize profileSize : Nat) (printNumber : Rat → Bytes)
    (h : Set.InjOn (storageDevinfo2index md5) known) : StorageConfig known where
  mapSize := mapSize
  profileSize := profileSize
  printNumber := printNumber
  handles :=
    { index := storageDevinfo2index md5
      tslpf := by
        intro m
        rw [val_storageDevinfo2index]
        exact ⟨[95] ++ Base64.encode (md5.digest (md5Input m)), rfl⟩
      injOn := h }

/-- The handle under which `tsl_storage_load` looks for the profile of a device. -/
def handleOf (c : StorageConfig known) (devSn : CString) (kv : Store) : Option (CField 32) :=
  (cJSONParse (kv.rawGet tslmapKey (kv.rawLength tslmapKey c.mapSize))).bind fun root =>
    (findDevBySn devSn root.children).bind fun found =>
      found.bind fun index =>
        (root.children[index]?.bind jsonToTslmapMetadata).map TslmapMetadata.handle

/-- What a call of `tsl_storage_save` finds: the index is the text of devices with their
models. -/
def IndexOf (c : StorageConfig known) (kv : Store) (devices : List (CField 48 × DevModel)) : Prop :=
  (kv tslmapKey = some (printTslmap c (devices.map fun d =>
    tslmapMetadataToJson ⟨d.1, c.handles.index d.2⟩)) ∨ devices = [] ∧ kv tslmapKey = none) ∧
    (kv.value tslmapKey).length ≤ c.mapSize

/-- A device that is saved for a known model has the handle of another one only if that has
the same model. -/
def NeverShared (c : StorageConfig (∅ : Set DevModel)) (known : Set DevModel) : Prop :=
  ∀ (kv kv' : Store) (devices : List (CField 48 × DevModel)) (devSn other : CString)
    (m m' : DevModel) (buf : Bytes), m ∈ known → m' ∈ known → (∀ d ∈ devices, d.2 ∈ known) →
      IndexOf c kv devices → tslStorageSave c devSn m buf kv = some (0, kv') →
        WithinSizes c devSn kv' → handleOf c other kv' = some (c.handles.index m') →
          handleOf c devSn kv' = handleOf c other kv' → m = m'

/-! ## The entry of the device that is saved -/

theorem find?_split {α : Type*} {p : α → Bool} {pre : List α} {x : α} (post : List α)
    (hpre : ∀ y ∈ pre, p y = false) (hx : p x = true) : (pre ++ x :: post).find? p = some x :=
  List.find?_eq_some_iff_append.mpr ⟨hx, pre, post, rfl, fun y hy => by simp [hpre y hy]⟩

variable {c : StorageConfig known} {kv kv' : Store} {entries : List (TslEntry known)}
  {devSn : CString}

theorem Listed.handleOf (h : Listed c kv entries) (devSn : CString) :
    Tsl.handleOf c devSn kv =
      (entries.find? (TslEntry.isOf devSn)).map fun e => c.handles.index e.model := by
  unfold Tsl.handleOf
  by_cases hnil : kv.value tslmapKey = []
  · rw [(h.eq_nil hnil).1, Store.rawLength_eq_zero hnil]
    rfl
  · rw [Store.rawGet_rawLength h.mapFits, h.parse hnil]
    simp only [Option.bind_some, children_array, findDevBySn_map]
    cases hfind : entries.findIdx? (TslEntry.isOf devSn) with
    | none =>
        have hnone : entries.find? (TslEntry.isOf devSn) = none := by
          rw [List.find?_eq_bind_findIdx?_getElem?, hfind]
          rfl
        rw [hnone]
        rfl
    | some i =>
        obtain ⟨pre, e, post, rfl, rfl, he, hpre⟩ := findIdx?_eq_some_split hfind
        rw [find?_split post hpre he]
        simp only [Option.bind_some, getElem?_entries, jsonToTslmapMetadata_entry,
          Option.map_some]

/-- However a save ends, the index has an entry of the device with the new model. -/
theorem Listed.save (h : Listed c kv entries) (model : known) (buf : Bytes)
    (hsave : tslStorageSave c devSn model buf kv = some (0, kv'))
    (hsizes : WithinSizes c devSn kv') : ∃ entries' e, Listed c kv' entries' ∧
      entries'.find? (TslEntry.isOf devSn) = some e ∧ e.model = model := by
  have hlisted {kv₀ : Store} {entries' : List (TslEntry known)}
      (hmap : kv₀ tslmapKey = some (printTslmap c (entries'.map (TslEntry.toJson c))))
      (hend : kv' = kv₀.rawSet (c.handles.index model).toCString buf) : Listed c kv' entries' := by
    refine ⟨.inl ?_, hsizes.2.1⟩
    rw [hend, Store.rawSet_of_ne (index_ne_tslmapKey model.1).symm]
    exact hmap
  have hnew (entries₀ : List (TslEntry known)) {kv₀ : Store}
      (hnone : ∀ e ∈ entries₀, e.isOf devSn = false)
      (hsave : saveIndexed c devSn (c.handles.index model) buf
        (entries₀.map (TslEntry.toJson c)) none kv₀ = some (0, kv')) :
      ∃ entries' e, Listed c kv' entries' ∧
        entries'.find? (TslEntry.isOf devSn) = some e ∧ e.model = model := by
    rw [saveIndexed_new] at hsave
    dsimp only at hsave
    split at hsave
    next => cases hsave
    next =>
      have hself : TslEntry.isOf devSn (⟨.strncpy devSn, model⟩ : TslEntry known) = true :=
        isOf_iff.mpr (CField.strncpy_of_fits hsizes.1)
      refine ⟨_, _, hlisted Store.rawSet_self (Prod.mk.inj (Option.some.inj hsave)).2.symm,
        find?_split [] hnone hself, rfl⟩
  unfold tslStorageSave at hsave
  split at hsave
  next => cases hsave
  next =>
    by_cases hnil : kv.value tslmapKey = []
    · simp only [Store.rawLength_eq_zero hnil, if_true] at hsave
      exact hnew [] (fun e he => absurd he List.not_mem_nil) hsave
    · simp only [Store.rawLength_ne_zero hnil, if_false, Store.rawGet_rawLength h.mapFits,
        h.parse hnil, findDevBySn_map] at hsave
      cases hfind : entries.findIdx? (TslEntry.isOf devSn) with
      | none =>
          rw [hfind] at hsave
          exact hnew entries (List.findIdx?_eq_none_iff.mp hfind) hsave
      | some i =>
          rw [hfind] at hsave
          obtain ⟨pre, e, post, rfl, rfl, he, hpre⟩ := findIdx?_eq_some_split hfind
          by_cases hmodel : e.model = model
          · rw [saveIndexed_same hmodel] at hsave
            have htext := h.tslmap.resolve_right fun hnone => by simp at hnone
            exact ⟨_, e, hlisted htext (Prod.mk.inj (Option.some.inj hsave)).2.symm,
              find?_split post hpre he, hmodel⟩
          · rw [saveIndexed_other hmodel] at hsave
            exact ⟨_, ⟨e.sn, model⟩, hlisted Store.rawSet_self
              (Prod.mk.inj (Option.some.inj hsave)).2.symm, find?_split post hpre he, rfl⟩

end Sharing

/-! ## When they are apart -/

/-- The handles of known models are different, and no device comes to share a profile with
one of another model. -/
structure HandlesApart (md5 : Md5) (known : Set DevModel) : Prop where
  different : ∀ m ∈ known, ∀ m' ∈ known,
    storageDevinfo2index md5 m = storageDevinfo2index md5 m' → m = m'
  unshared : ∀ mapSize profileSize printNumber,
    NeverShared (md5Config md5 mapSize profileSize printNumber (Set.injOn_empty _)) known

/-- Where the handles are different, the devices of an index can be told apart by models. -/
theorem neverShared_of_injOn {md5 : Md5} {known : Set DevModel}
    (h : Set.InjOn (storageDevinfo2index md5) known) (mapSize profileSize : Nat)
    (printNumber : Rat → Bytes) :
    NeverShared (md5Config md5 mapSize profileSize printNumber (Set.injOn_empty _)) known := by
  intro kv kv' devices devSn other m m' buf hm hm' hdevices hindex hsave hsizes hother hshared
  let c := md5Config md5 mapSize profileSize printNumber h
  let entries : List (TslEntry known) :=
    devices.attach.map fun d => ⟨d.1.1, d.1.2, hdevices d.1 d.2⟩
  have hentries : entries.map (TslEntry.toJson c) = devices.map fun d =>
      tslmapMetadataToJson ⟨d.1, storageDevinfo2index md5 d.2⟩ := by
    rw [List.map_map]
    exact List.attach_map_val (f := fun d : CField 48 × DevModel =>
      tslmapMetadataToJson ⟨d.1, storageDevinfo2index md5 d.2⟩)
  have hlisted : Listed c kv entries := by
    refine ⟨?_, hindex.2⟩
    rw [hentries]
    rcases hindex.1 with hmap | ⟨hnil, hnone⟩
    · exact .inl hmap
    · subst hnil
      exact .inr ⟨rfl, hnone⟩
  obtain ⟨entries', e, hlisted', hfind, hmodel⟩ :=
    hlisted.save ⟨m, hm⟩ buf hsave hsizes
  have hself := hlisted'.handleOf devSn
  rw [hfind, Option.map_some, hmodel] at hself
  have hself' : some (storageDevinfo2index md5 m) = some (storageDevinfo2index md5 m') :=
    hself.symm.trans (hshared.trans hother)
  exact h hm hm' (Option.some.inj hself')

/-- Two known models have the same handle exactly if the one is the other with the boundary
moved. -/
theorem handles_apart_iff {md5 : Md5} {known : Set DevModel}
    (hmd5 : Set.InjOn md5.digest (Set.image md5Input known)) :
    HandlesApart md5 known ↔ ∀ m ∈ known, ∀ m' ∈ known, ¬ Shifted m m' := by
  constructor
  · intro h m hm m' hm' hshifted
    have hinput := md5Input_eq_iff.mpr (.inr (.inl hshifted))
    exact hshifted.ne (h.different m hm m' hm'
      (storageDevinfo2index_eq_iff.mpr (congrArg md5.digest hinput)))
  · intro h
    have hinj : Set.InjOn (storageDevinfo2index md5) known := by
      intro m hm m' hm' heq
      have hinput := hmd5 (Set.mem_image_of_mem _ hm) (Set.mem_image_of_mem _ hm')
        (storageDevinfo2index_eq_iff.mp heq)
      rcases md5Input_eq_iff.mp hinput with hsame | hshifted | hshifted
      · exact hsame
      · exact absurd hshifted (h m hm m' hm')
      · exact absurd hshifted (h m' hm' m hm)
    exact ⟨fun m hm m' hm' heq => hinj hm hm' heq, neverShared_of_injOn hinj⟩

/-- The digests of the two texts below. -/
def sampleMd5 : Md5 where
  digest input :=
    if input = ascii "TV1" then
      [170, 169, 114, 84, 147, 25, 161, 148, 11, 53, 162, 106, 21, 249, 99, 170]
    else if input = ascii "ABC" then
      [144, 47, 189, 210, 177, 223, 12, 79, 112, 180, 165, 210, 53, 37, 233, 50]
    else List.replicate 16 0
  length_digest := by
    intro input
    split
    · rfl
    · split
      · rfl
      · rfl

theorem handles_apart_two : HandlesApart sampleMd5 {sampleModel, (.lit "AB", .lit "C")} := by
  refine (handles_apart_iff ?_).mpr ?_
  · rw [Set.image_pair, Set.injOn_pair]
    exact fun h => absurd h (by decide +kernel)
  · intro m hm m' hm' hshifted
    rcases hm with rfl | rfl <;> rcases hm' with rfl | rfl
    · exact hshifted.ne rfl
    · exact absurd hshifted.type_begins (by decide)
    · exact absurd hshifted.type_begins (by decide)
    · exact hshifted.ne rfl

/-- Type `AB` with version `C` and type `A` with version `BC` have one handle. -/
theorem boundary_moved : ¬ ∀ (md5 : Md5) (known : Set DevModel),
    Set.InjOn md5.digest (Set.image md5Input known) → HandlesApart md5 known := by
  intro h
  have hinj : Set.InjOn sampleMd5.digest
      (Set.image md5Input {(.lit "AB", .lit "C"), (.lit "A", .lit "BC")}) := by
    have hone : Set.image md5Input {(.lit "AB", .lit "C"), (.lit "A", .lit "BC")} =
        {ascii "ABC"} := by
      rw [Set.image_pair]
      exact Set.pair_eq_singleton (ascii "ABC")
    rw [hone]
    exact Set.injOn_singleton _ _
  have hsame := (h _ _ hinj).different _ (.inl rfl) _ (.inr rfl) (by decide +kernel)
  exact absurd hsame (by decide)

end EzIot.Tsl
