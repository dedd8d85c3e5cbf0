import Mathlib.Data.Set.Function
import Mathlib.Data.List.Nodup
import EzIot.CJson.Edit
import EzIot.Kv.Store
import EzIot.Lib.Run
import EzIot.Tsl.Profile

/-! # The storage of profiles

Profiles are stored once for a type and version, under a handle. An index, the text of
an array, keeps the handle of every device.
-/

namespace EzIot.Tsl

open CText CJson Kv Run

/-! ## The index -/

abbrev DevModel := CString × CString

structure TslmapMetadata where
  sn : CField 48
  handle : CField 32

/-- `storage_devinfo2index`; `known` are the models that it tells apart. -/
structure HandleFunction (known : Set DevModel) where
  index : DevModel → CField 32
  tslpf : ∀ m, ascii "tslpf" <+: (index m).val
  injOn : Set.InjOn index known

structure StorageConfig (known : Set DevModel) where
  mapSize : Nat
  profileSize : Nat
  printNumber : Rat → Bytes
  handles : HandleFunction known

def tslmapMetadataToJson (m : TslmapMetadata) : Value :=
  .object [(ascii "sn", .string m.sn.val), (ascii "handle", .string m.handle.val)]

def jsonToTslmapMetadata (v : Value) : Option TslmapMetadata :=
  match v.stringElement "sn", v.stringElement "handle" with
  | some sn, some handle => some ⟨.strncpy sn, .strncpy handle⟩
  | _, _ => none

def findDevBySn (sn : CString) (items : List Value) : Option (Option Nat) :=
  findByText "sn" sn items

/-- `get_tsl_handle_count`: the loop ends at the first hit. -/
def getTslHandleCount (handle : CString) (items : List Value) : Option Nat :=
  (findByText "handle" handle items).map fun i => if i.isSome then 1 else 0

namespace Err

def kvName : Int := 5
def kvSavedFull : Int := 7

end Err

/-- `EZ_KV_DEFALUT_KEY_TSLMAP`. -/
def tslmapKey : CString := .lit "tslmap"

section Storage

variable {known : Set DevModel} (c : StorageConfig known)

def printTslmap (items : List Value) : Bytes := printValue c.printNumber (.array items)

/-- `tsl_storage_load`: the profile, or a return code. -/
def tslStorageLoad (devSn : CString) (kv : Store) : Option (Except Int Bytes) :=
  let tslmapLen := kv.rawLength tslmapKey c.mapSize
  if tslmapLen = 0 then some (.error Err.kvName)
  else
    match cJSONParse (kv.rawGet tslmapKey tslmapLen) with
    | none => some (.error (-1))
    | some root =>
        match findDevBySn devSn root.children with
        | none => none
        | some none => some (.error Err.kvName)
        | some (some index) =>
            match root.children[index]?.bind jsonToTslmapMetadata with
            | none => none
            | some tslMetadata =>
                let handle := tslMetadata.handle.toCString
                some (.ok (kv.rawGet handle (kv.rawLength handle c.profileSize)))

def saveProfile (handleCurr : CField 32) (buf : Bytes) (items : List Value) (kv : Store) :
    Option (Int × Store) :=
  (getTslHandleCount handleCurr.toCString items).map fun count =>
    (0, if count = 1 then kv.rawSet handleCurr.toCString buf else kv)

def saveIndexed (devSn : CString) (handleCurr : CField 32) (buf : Bytes) (items : List Value)
    (index : Option Nat) (kv : Store) : Option (Int × Store) :=
  match index with
  | none =>
      let items := items ++ [tslmapMetadataToJson ⟨.strncpy devSn, handleCurr⟩]
      if (printTslmap c items).length > c.mapSize then some (Err.kvSavedFull, kv)
      else saveProfile handleCurr buf items (kv.rawSet tslmapKey (printTslmap c items))
  | some index =>
      match items[index]? with
      | none => none
      | some item =>
          match jsonToTslmapMetadata item with
          | none => none
          | some tslMetadata =>
              if tslMetadata.handle = handleCurr then saveProfile handleCurr buf items kv
              else
                match getTslHandleCount tslMetadata.handle.toCString items with
                | none => none
                | some count =>
                    let kv := if count = 1 then (kv.del tslMetadata.handle.toCString).getD kv else kv
                    let items := items.set index
                      (item.replaceItemInObject "handle" (.string handleCurr.val))
                    saveProfile handleCurr buf items (kv.rawSet tslmapKey (printTslmap c items))

/-- `tsl_storage_save`. There is no result where the index was written by somebody
else: no array, or an element without texts. -/
def tslStorageSave (devSn : CString) (model : DevModel) (buf : Bytes) (kv : Store) :
    Option (Int × Store) :=
  if buf.length > c.profileSize then some (Err.kvSavedFull, kv)
  else
    let handleCurr := c.handles.index model
    let tslmapLen := kv.rawLength tslmapKey c.mapSize
    if tslmapLen = 0 then
      saveIndexed c devSn handleCurr buf [] none (kv.delByPrefix (ascii "tslpf"))
    else
      match cJSONParse (kv.rawGet tslmapKey tslmapLen) with
      | none => some (-1, kv)
      | some (.array items) =>
          match findDevBySn devSn items with
          | none => none
          | some index => saveIndexed c devSn handleCurr buf items index kv
      | some _ => none

def delIndexed (items : List Value) (index : Nat) (kv : Store) : Option (Int × Store) :=
  match items[index]?.bind jsonToTslmapMetadata with
  | none => none
  | some tslMetadata =>
      match getTslHandleCount tslMetadata.handle.toCString items with
      | none => none
      | some count =>
          let left := if count = 1 then kv.del tslMetadata.handle.toCString else some kv
          match left with
          -- `ez_false` is the code of a success
          | none => some (0, kv)
          | some kv => some (0, kv.rawSet tslmapKey (printTslmap c (items.eraseIdx index)))

def tslStorageDel (devSn : CString) (kv : Store) : Option (Int × Store) :=
  let tslmapLen := kv.rawLength tslmapKey 0
  if tslmapLen = 0 then some (0, kv)
  else
    match cJSONParse (kv.rawGet tslmapKey tslmapLen) with
    | none => some (-1, kv)
    | some (.array items) =>
        match findDevBySn devSn items with
        | none => none
        | some none => some (-1, kv)
        | some (some index) => delIndexed c items index kv
    | some _ => none

/-! ## Sequences of calls -/

/-- The store beside the model that each device was saved for and not deleted since. -/
structure Stored (known : Set DevModel) where
  kv : Store
  saved : CString → Option known

def Stored.empty (known : Set DevModel) : Stored known := ⟨fun _ => none, fun _ => none⟩

inductive StorageCall (known : Set DevModel)
  | save (devSn : CString) (model : known)
  | del (devSn : CString)

/-- The serial of a device fits its field, and the index the buffers it is read into. -/
def WithinSizes (devSn : CString) (kv : Store) : Prop :=
  devSn.length ≤ 47 ∧ (kv.value tslmapKey).length ≤ c.mapSize ∧
    (kv.value tslmapKey).length ≤ Store.kvBufSizeDefault

instance (devSn : CString) (kv : Store) : Decidable (WithinSizes c devSn kv) :=
  inferInstanceAs (Decidable (_ ∧ _ ∧ _))

section Calls

/- The text that is downloaded for a model. -/
variable (profile : DevModel → Bytes)

/-- A call that succeeds and stays within the sizes. -/
def Stored.step (s : Stored known) : StorageCall known → Option (Stored known)
  | .save devSn model =>
      (tslStorageSave c devSn model (profile model) s.kv).bind fun r =>
        if r.1 = 0 ∧ WithinSizes c devSn r.2 then
          some ⟨r.2, Function.update s.saved devSn (some model)⟩
        else none
  | .del devSn =>
      (tslStorageDel c devSn s.kv).bind fun r =>
        if r.1 = 0 then some ⟨r.2, Function.update s.saved devSn none⟩ else none

/-- What is loaded is what was saved last. -/
def StorageSound (s : Stored known) : Prop :=
  ∀ devSn, tslStorageLoad c devSn s.kv = some (
    match s.saved devSn with
    | some model => .ok (profile model)
    | none => .error Err.kvName)

end Calls

/-- A device that leaves a model is the only one that has it. -/
def LeavesAlone (s : Stored known) : StorageCall known → Prop
  | .save devSn model => ∀ old, s.saved devSn = some old → old ≠ model →
      ∀ other, s.saved other = some old → other = devSn
  | .del devSn => ∀ old, s.saved devSn = some old →
      ∀ other, s.saved other = some old → other = devSn

/-! ## The index as a list of entries -/

/-- An element of the index. -/
structure TslEntry (known : Set DevModel) where
  sn : CField 48
  model : known

variable {c}

def TslEntry.toJson (c : StorageConfig known) (e : TslEntry known) : Value :=
  tslmapMetadataToJson ⟨e.sn, c.handles.index e.model⟩

def TslEntry.isOf (devSn : CString) (e : TslEntry known) : Bool := decide (e.sn.toCString = devSn)

structure Listed (c : StorageConfig known) (kv : Store) (entries : List (TslEntry known)) :
    Prop where
  tslmap : kv tslmapKey = some (printTslmap c (entries.map (TslEntry.toJson c))) ∨
    entries = [] ∧ kv tslmapKey = none
  mapFits : (kv.value tslmapKey).length ≤ c.mapSize

/-- The store keeps these entries and their profiles. -/
structure Indexed (c : StorageConfig known) (profile : DevModel → Bytes) (kv : Store)
    (entries : List (TslEntry known)) : Prop where
  tslmap : kv tslmapKey = some (printTslmap c (entries.map (TslEntry.toJson c))) ∨
    entries = [] ∧ kv tslmapKey = none
  mapFits : (kv.value tslmapKey).length ≤ c.mapSize
  bufFits : (kv.value tslmapKey).length ≤ Store.kvBufSizeDefault
  nodup : (entries.map fun e => e.sn.toCString).Nodup
  profiles : ∀ e ∈ entries, kv (c.handles.index e.model).toCString = some (profile e.model) ∧
    (profile e.model).length ≤ c.profileSize

section Entries

variable {profile : DevModel → Bytes} {kv : Store} {entries : List (TslEntry known)}
  {devSn : CString}

theorem isRecord_toJson (e : TslEntry known) : IsRecord c.printNumber (e.toJson c) := by
  refine ⟨_, rfl, ?_, ?_⟩
  · simp only [List.forall_mem_cons]
    exact ⟨by decide, by decide, fun _ h => absurd h List.not_mem_nil⟩
  · simp only [List.forall_mem_cons]
    exact ⟨⟨rfl, rfl, e.sn.noNul⟩, ⟨rfl, rfl, (c.handles.index e.model).noNul⟩,
      fun _ h => absurd h List.not_mem_nil⟩

theorem jsonToTslmapMetadata_toJson (m : TslmapMetadata) :
    jsonToTslmapMetadata (tslmapMetadataToJson m) = some m := by
  have hsn : (tslmapMetadataToJson m).stringElement "sn" = some m.sn.toCString :=
    valuestring_string m.sn.toCString
  have hhandle : (tslmapMetadataToJson m).stringElement "handle" = some m.handle.toCString :=
    valuestring_string m.handle.toCString
  unfold jsonToTslmapMetadata
  rw [hsn, hhandle]
  simp only [CField.strncpy_toCString]

theorem findDevBySn_map : findDevBySn devSn (entries.map (TslEntry.toJson c)) =
    some (entries.findIdx? (TslEntry.isOf devSn)) :=
  findByText_map (TslEntry.toJson c) (fun e => e.sn.toCString) (fun _ => rfl) devSn entries

theorem getTslHandleCount_map (handle : CString) :
    getTslHandleCount handle (entries.map (TslEntry.toJson c)) =
      some (if ∃ e ∈ entries, (c.handles.index e.model).toCString = handle then 1 else 0) := by
  unfold getTslHandleCount
  rw [findByText_map (TslEntry.toJson c) (fun e => (c.handles.index e.model).toCString) fun _ => rfl]
  simp [List.findIdx?_isSome]

/-- No handle is the key of the index. -/
theorem index_ne_tslmapKey (m : DevModel) : (c.handles.index m).toCString ≠ tslmapKey := by
  intro h
  have hpre := c.handles.tslpf m
  rw [h] at hpre
  exact absurd hpre (by decide)

theorem Indexed.listed (h : Indexed c profile kv entries) : Listed c kv entries :=
  ⟨h.tslmap, h.mapFits⟩

theorem Listed.parse (h : Listed c kv entries) (hne : kv.value tslmapKey ≠ []) :
    cJSONParse (kv.value tslmapKey) = some (.array (entries.map (TslEntry.toJson c))) := by
  rcases h.tslmap with htext | ⟨-, hnone⟩
  · rw [Store.value_of_eq_some htext]
    refine cJSONParse_printRecords fun v hv => ?_
    obtain ⟨e, -, rfl⟩ := List.mem_map.mp hv
    exact isRecord_toJson e
  · exact absurd (Store.value_of_eq_none hnone) hne

theorem Listed.eq_nil (h : Listed c kv entries) (hnil : kv.value tslmapKey = []) :
    entries = [] ∧ kv tslmapKey = none := by
  rcases h.tslmap with htext | hnone
  · rw [Store.value_of_eq_some htext] at hnil
    exact absurd hnil (printArray_ne_nil _)
  · exact hnone

theorem index_ne {m m' : known} (h : m ≠ m') :
    (c.handles.index m).toCString ≠ (c.handles.index m').toCString := by
  intro heq
  exact h (Subtype.ext (c.handles.injOn m.2 m'.2 (CField.ext heq)))

theorem isOf_iff {e : TslEntry known} : e.isOf devSn = true ↔ e.sn.toCString = devSn :=
  decide_eq_true_iff

/-! ## The operations on the entries -/

/-- What is read for a device is kept under the handle of its first entry. -/
theorem Listed.load (h : Listed c kv entries) (devSn : CString) :
    tslStorageLoad c devSn kv = some (
      match entries.find? (TslEntry.isOf devSn) with
      | some e =>
          let handle := (c.handles.index e.model).toCString
          .ok (kv.rawGet handle (kv.rawLength handle c.profileSize))
      | none => .error Err.kvName) := by
  unfold tslStorageLoad
  by_cases hnil : kv.value tslmapKey = []
  · rw [Store.rawLength_eq_zero hnil, (h.eq_nil hnil).1]
    rfl
  · simp only [Store.rawLength_ne_zero hnil, if_false, Store.rawGet_rawLength h.mapFits,
      h.parse hnil, children_array, findDevBySn_map]
    rw [List.find?_eq_bind_findIdx?_getElem?]
    cases hfind : entries.findIdx? (TslEntry.isOf devSn) with
    | none => rfl
    | some i =>
        have hlt := (List.findIdx?_eq_some_iff_getElem.mp hfind).1
        have hfirst : entries[i]? = some entries[i] := List.getElem?_eq_getElem hlt
        have hitem : (entries.map (TslEntry.toJson c))[i]? = some (entries[i].toJson c) := by
          rw [List.getElem?_map, hfirst]
          rfl
        simp only [hitem, Option.bind_some, TslEntry.toJson, jsonToTslmapMetadata_toJson, hfirst]

theorem Indexed.load (h : Indexed c profile kv entries) (devSn : CString) :
    tslStorageLoad c devSn kv = some (
      match entries.find? (TslEntry.isOf devSn) with
      | some e => .ok (profile e.model)
      | none => .error Err.kvName) := by
  rw [h.listed.load]
  cases hfind : entries.find? (TslEntry.isOf devSn) with
  | none => rfl
  | some e =>
      obtain ⟨hstored, hsize⟩ := h.profiles e (List.mem_of_find?_eq_some hfind)
      have hread : kv.value (c.handles.index e.model).toCString = profile e.model :=
        Store.value_of_eq_some hstored
      show some (Except.ok (kv.rawGet _ (kv.rawLength _ c.profileSize))) = _
      rw [Store.rawGet_rawLength (by rwa [hread]), hread]

theorem Indexed.rawSet {model : known} (hmap : kv tslmapKey =
      some (printTslmap c (entries.map (TslEntry.toJson c))))
    (hsizes : WithinSizes c devSn
      (kv.rawSet (c.handles.index model).toCString (profile model)))
    (hnodup : (entries.map fun e => e.sn.toCString).Nodup)
    (hprofile : (profile model).length ≤ c.profileSize)
    (hothers : ∀ e ∈ entries, e.model ≠ model →
      kv (c.handles.index e.model).toCString = some (profile e.model) ∧
        (profile e.model).length ≤ c.profileSize) :
    Indexed c profile (kv.rawSet (c.handles.index model).toCString (profile model)) entries := by
  have hkey : (kv.rawSet (c.handles.index model).toCString (profile model)) tslmapKey =
      kv tslmapKey := Store.rawSet_of_ne (index_ne_tslmapKey model.1).symm
  refine ⟨.inl (hkey.trans hmap), hsizes.2.1, hsizes.2.2, hnodup, fun e he => ?_⟩
  by_cases hsame : e.model = model
  · rw [hsame]
    exact ⟨Store.rawSet_self, hprofile⟩
  · rw [Store.rawSet_of_ne (index_ne hsame)]
    exact hothers e he hsame

theorem saveProfile_map {model : known} (buf : Bytes) (h : ∃ e ∈ entries, e.model = model) :
    saveProfile (c.handles.index model) buf (entries.map (TslEntry.toJson c)) kv =
      some (0, kv.rawSet (c.handles.index model).toCString buf) := by
  obtain ⟨e, he, rfl⟩ := h
  unfold saveProfile
  rw [getTslHandleCount_map, if_pos ⟨e, he, rfl⟩]
  rfl

theorem saveIndexed_new (devSn : CString) (model : known) (buf : Bytes)
    (entries : List (TslEntry known)) (kv : Store) :
    saveIndexed c devSn (c.handles.index model) buf (entries.map (TslEntry.toJson c)) none kv = some (
      let text := printTslmap c
        ((entries ++ [(⟨.strncpy devSn, model⟩ : TslEntry known)]).map (TslEntry.toJson c))
      if text.length > c.mapSize then (Err.kvSavedFull, kv)
      else (0, (kv.rawSet tslmapKey text).rawSet (c.handles.index model).toCString buf)) := by
  have hitems : entries.map (TslEntry.toJson c) ++
      [tslmapMetadataToJson ⟨.strncpy devSn, c.handles.index model⟩] =
        (entries ++ [(⟨.strncpy devSn, model⟩ : TslEntry known)]).map (TslEntry.toJson c) := by
    rw [List.map_append]
    rfl
  have hlisted : ∃ e ∈ entries ++ [(⟨.strncpy devSn, model⟩ : TslEntry known)], e.model = model :=
    ⟨_, List.mem_append_cons_self, rfl⟩
  simp only [saveIndexed, hitems, saveProfile_map _ hlisted]
  split <;> rfl

section Found

variable {pre post : List (TslEntry known)} {e : TslEntry known}

theorem getElem?_entries :
    ((pre ++ e :: post).map (TslEntry.toJson c))[pre.length]? = some (e.toJson c) := by simp

theorem jsonToTslmapMetadata_entry :
    jsonToTslmapMetadata (e.toJson c) = some ⟨e.sn, c.handles.index e.model⟩ :=
  jsonToTslmapMetadata_toJson _

/-- However many use a handle, one is counted. -/
theorem getTslHandleCount_entry : getTslHandleCount (c.handles.index e.model).toCString
    ((pre ++ e :: post).map (TslEntry.toJson c)) = some 1 := by
  rw [getTslHandleCount_map, if_pos ⟨e, List.mem_append_cons_self, rfl⟩]

theorem saveIndexed_same {model : known} (hmodel : e.model = model) (devSn : CString) (buf : Bytes)
    (kv : Store) : saveIndexed c devSn (c.handles.index model) buf
      ((pre ++ e :: post).map (TslEntry.toJson c)) (some pre.length) kv =
        some (0, kv.rawSet (c.handles.index model).toCString buf) := by
  subst hmodel
  simp only [saveIndexed, getElem?_entries, jsonToTslmapMetadata_entry, if_true]
  exact saveProfile_map _ ⟨e, List.mem_append_cons_self, rfl⟩

theorem set_entries (model : known) : ((pre ++ e :: post).map (TslEntry.toJson c)).set pre.length
    ((e.toJson c).replaceItemInObject "handle" (.string (c.handles.index model).val)) =
      (pre ++ (⟨e.sn, model⟩ : TslEntry known) :: post).map (TslEntry.toJson c) := by
  rw [List.map_append, List.map_cons, List.map_append, List.map_cons,
    List.set_append_right _ _ (by simp)]
  simp only [List.length_map, Nat.sub_self, List.set_cons_zero]
  rfl

theorem saveIndexed_other {model : known} (hmodel : e.model ≠ model) (devSn : CString) (buf : Bytes)
    (kv : Store) : saveIndexed c devSn (c.handles.index model) buf
      ((pre ++ e :: post).map (TslEntry.toJson c)) (some pre.length) kv =
        some (0, ((((kv.del (c.handles.index e.model).toCString).getD kv).rawSet tslmapKey
          (printTslmap c ((pre ++ (⟨e.sn, model⟩ : TslEntry known) :: post).map
            (TslEntry.toJson c)))).rawSet (c.handles.index model).toCString buf)) := by
  have hhandle : c.handles.index e.model ≠ c.handles.index model := fun heq =>
    index_ne hmodel (congrArg CField.toCString heq)
  simp only [saveIndexed, getElem?_entries, jsonToTslmapMetadata_entry, if_neg hhandle,
    getTslHandleCount_entry, if_true, set_entries]
  exact saveProfile_map _ ⟨_, List.mem_append_cons_self, rfl⟩

theorem eraseIdx_entries : ((pre ++ e :: post).map (TslEntry.toJson c)).eraseIdx pre.length =
    (pre ++ post).map (TslEntry.toJson c) := by
  rw [List.map_append, List.map_cons, List.map_append,
    List.eraseIdx_append_of_length_le (by simp)]
  simp

theorem delIndexed_entries {kv kv' : Store}
    (hdel : kv.del (c.handles.index e.model).toCString = some kv') :
    delIndexed c ((pre ++ e :: post).map (TslEntry.toJson c)) pre.length kv =
      some (0, kv'.rawSet tslmapKey (printTslmap c ((pre ++ post).map (TslEntry.toJson c)))) := by
  simp only [delIndexed, getElem?_entries, Option.bind_some, jsonToTslmapMetadata_entry,
    getTslHandleCount_entry, if_true, hdel, eraseIdx_entries]

end Found

/-- The members of an index after a device was saved. -/
def SavedAs (devSn : CString) (model : known) (entries entries' : List (TslEntry known)) : Prop :=
  ∀ e, e ∈ entries' ↔ e = ⟨.strncpy devSn, model⟩ ∨ e ∈ entries ∧ e.isOf devSn = false

theorem Indexed.saveNew {model : known} {kv' : Store} (h : Indexed c profile kv entries)
    (hnew : ∀ e ∈ entries, e.isOf devSn = false) {kv₀ : Store}
    (hkept : ∀ e ∈ entries, kv₀ (c.handles.index e.model).toCString =
      kv (c.handles.index e.model).toCString)
    (hprofile : (profile model).length ≤ c.profileSize)
    (hsave : saveIndexed c devSn (c.handles.index model) (profile model)
      (entries.map (TslEntry.toJson c)) none kv₀ = some (0, kv'))
    (hsizes : WithinSizes c devSn kv') :
    ∃ entries', Indexed c profile kv' entries' ∧ SavedAs devSn model entries entries' := by
  have hsn : (CField.strncpy devSn : CField 48).toCString = devSn :=
    CField.strncpy_of_fits hsizes.1
  rw [saveIndexed_new] at hsave
  dsimp only at hsave
  split at hsave
  next => cases hsave
  next =>
    cases hsave
    refine ⟨entries ++ [⟨.strncpy devSn, model⟩], Indexed.rawSet Store.rawSet_self hsizes ?_
      hprofile fun e he hne => ?_, fun e => ?_⟩
    · rw [List.map_append, List.map_singleton, hsn, List.nodup_append]
      refine ⟨h.nodup, List.nodup_singleton _, fun a ha b hb heq => ?_⟩
      obtain ⟨e, he, rfl⟩ := List.mem_map.mp ha
      rw [List.mem_singleton.mp hb] at heq
      exact Bool.noConfusion ((hnew e he).symm.trans (isOf_iff.mpr heq))
    · rw [Store.rawSet_of_ne (index_ne_tslmapKey (c := c) e.model.1)]
      rcases List.mem_append.mp he with hold | hfresh
      · rw [hkept e hold]
        exact h.profiles e hold
      · rw [List.mem_singleton.mp hfresh] at hne
        exact absurd rfl hne
    · rw [List.mem_append, List.mem_singleton, or_comm]
      exact or_congr_right ⟨fun he => ⟨he, hnew e he⟩, fun he => he.1⟩

section Split

variable {pre post : List (TslEntry known)} {e : TslEntry known}

/-- The only entry of a device. -/
theorem Indexed.others_iff (h : Indexed c profile kv (pre ++ e :: post))
    (he : e.isOf devSn = true) (x : TslEntry known) :
    (x ∈ pre ++ e :: post ∧ x.isOf devSn = false) ↔ x ∈ pre ∨ x ∈ post := by
  have hnodup := h.nodup
  rw [List.map_append, List.map_cons, List.nodup_append, List.nodup_cons] at hnodup
  obtain ⟨-, ⟨hpost, -⟩, hpre⟩ := hnodup
  have hother : ∀ y, y ∈ pre ∨ y ∈ post → y.isOf devSn = false := by
    intro y hy
    refine Bool.eq_false_iff.mpr fun hself => ?_
    have hsn := (isOf_iff.mp hself).trans (isOf_iff.mp he).symm
    rcases hy with hy | hy
    · exact hpre _ (List.mem_map_of_mem hy) _ List.mem_cons_self hsn
    · exact hpost (hsn ▸ List.mem_map_of_mem (f := fun z => z.sn.toCString) hy)
  constructor
  · rintro ⟨hx, hnot⟩
    rcases List.mem_append.mp hx with hx | hx
    · exact .inl hx
    · rcases List.mem_cons.mp hx with rfl | hx
      · exact Bool.noConfusion (he.symm.trans hnot)
      · exact .inr hx
  · intro hx
    refine ⟨?_, hother x hx⟩
    rcases hx with hx | hx
    · exact List.mem_append_left _ hx
    · exact List.mem_append_right _ (List.mem_cons_of_mem _ hx)

theorem eq_strncpy_of_isOf {model : known} (he : e.isOf devSn = true) (hmodel : e.model = model) :
    e = ⟨.strncpy devSn, model⟩ := by
  obtain ⟨sn, m⟩ := e
  obtain rfl : sn.toCString = devSn := isOf_iff.mp he
  obtain rfl : m = model := hmodel
  rw [CField.strncpy_toCString]

/-- A device that is in the index already gets the new handle. The old profile goes
with its last user. -/
theorem Indexed.saveOld {model : known} {kv' : Store}
    (h : Indexed c profile kv (pre ++ e :: post)) (he : e.isOf devSn = true)
    (halone : e.model ≠ model → ∀ x, x ∈ pre ∨ x ∈ post → x.model ≠ e.model)
    (hprofile : (profile model).length ≤ c.profileSize)
    (hsave : saveIndexed c devSn (c.handles.index model) (profile model)
      ((pre ++ e :: post).map (TslEntry.toJson c)) (some pre.length) kv = some (0, kv'))
    (hsizes : WithinSizes c devSn kv') :
    ∃ entries', Indexed c profile kv' entries' ∧ SavedAs devSn model (pre ++ e :: post) entries' := by
  by_cases hmodel : e.model = model
  · rw [saveIndexed_same hmodel] at hsave
    cases hsave
    subst hmodel
    have htext := h.tslmap.resolve_right fun hnil => by simp at hnil
    refine ⟨pre ++ e :: post, Indexed.rawSet htext hsizes h.nodup hprofile
      fun x hx _ => h.profiles x hx, fun x => ?_⟩
    rw [h.others_iff he, ← eq_strncpy_of_isOf he rfl]
    simp only [List.mem_append, List.mem_cons]
    exact or_left_comm
  · rw [saveIndexed_other hmodel] at hsave
    cases hsave
    refine ⟨_, Indexed.rawSet Store.rawSet_self hsizes ?_ hprofile fun x hx hne => ?_, fun x => ?_⟩
    · simpa using h.nodup
    · -- whoever else has a model keeps its profile: it is not the one that was left
      have hx' : x ∈ pre ∨ x ∈ post := by
        rcases List.mem_append.mp hx with hx | hx
        · exact .inl hx
        · rcases List.mem_cons.mp hx with rfl | hx
          · exact absurd rfl hne
          · exact .inr hx
      obtain ⟨hstored, hsize⟩ := h.profiles x ((h.others_iff he x).mpr hx').1
      have hdel := Store.del_of_eq_some (h.profiles e List.mem_append_cons_self).1
      rw [Store.rawSet_of_ne (index_ne_tslmapKey (c := c) x.model.1), hdel, Option.getD_some,
        Store.del_of_ne hdel (index_ne (halone hmodel x hx'))]
      exact ⟨hstored, hsize⟩
    · have hnew : (⟨e.sn, model⟩ : TslEntry known) = ⟨.strncpy devSn, model⟩ :=
        eq_strncpy_of_isOf he rfl
      rw [h.others_iff he, hnew]
      simp only [List.mem_append, List.mem_cons]
      exact or_left_comm

theorem Indexed.delIndexed {kv' : Store} (h : Indexed c profile kv (pre ++ e :: post))
    (he : e.isOf devSn = true) (halone : ∀ x, x ∈ pre ∨ x ∈ post → x.model ≠ e.model)
    (hdel : delIndexed c ((pre ++ e :: post).map (TslEntry.toJson c)) pre.length kv = some (0, kv')) :
    Indexed c profile kv' (pre ++ post) := by
  have hgone := Store.del_of_eq_some (h.profiles e List.mem_append_cons_self).1
  rw [delIndexed_entries hgone] at hdel
  cases hdel
  have hnodup := h.nodup
  rw [List.map_append, List.map_cons] at hnodup
  have hsub : (pre ++ post).Sublist (pre ++ e :: post) :=
    (List.sublist_cons_self e post).append_left pre
  have hshorter := @length_printArray_le c.printNumber _ _ (hsub.map (TslEntry.toJson c))
  have htext := Store.value_of_eq_some (h.tslmap.resolve_right fun hnil => by simp at hnil)
  have hmapFits := htext ▸ h.mapFits
  have hbufFits := htext ▸ h.bufFits
  refine ⟨.inl Store.rawSet_self, ?_, ?_, ?_, fun x hx => ?_⟩
  · rw [Store.value_of_eq_some Store.rawSet_self]
    exact Nat.le_trans hshorter hmapFits
  · rw [Store.value_of_eq_some Store.rawSet_self]
    exact Nat.le_trans hshorter hbufFits
  · rw [List.map_append]
    exact hnodup.sublist ((List.sublist_cons_self _ _).append_left _)
  · have hx' := List.mem_append.mp hx
    rw [Store.rawSet_of_ne (index_ne_tslmapKey (c := c) x.model.1),
      Store.del_of_ne hgone (index_ne (halone x hx'))]
    exact h.profiles x ((h.others_iff he x).mpr hx').1

end Split

/-- Saving a device that leaves no other one behind. -/
theorem Indexed.save {model : known} {kv' : Store} (h : Indexed c profile kv entries)
    (halone : ∀ e ∈ entries, e.isOf devSn = true → e.model ≠ model →
      ∀ x ∈ entries, x.model = e.model → x.isOf devSn = true)
    (hsave : tslStorageSave c devSn model (profile model) kv = some (0, kv'))
    (hsizes : WithinSizes c devSn kv') :
    ∃ entries', Indexed c profile kv' entries' ∧ SavedAs devSn model entries entries' := by
  unfold tslStorageSave at hsave
  split at hsave
  next => cases hsave
  next hlen =>
    have hprofile := Nat.le_of_not_lt hlen
    by_cases hnil : kv.value tslmapKey = []
    · obtain ⟨rfl, -⟩ := h.listed.eq_nil hnil
      simp only [Store.rawLength_eq_zero hnil, if_true] at hsave
      refine h.saveNew ?_ ?_ hprofile hsave hsizes
      · exact fun e he => absurd he List.not_mem_nil
      · exact fun e he => absurd he List.not_mem_nil
    · simp only [Store.rawLength_ne_zero hnil, if_false, Store.rawGet_rawLength h.mapFits,
        h.listed.parse hnil, findDevBySn_map] at hsave
      cases hfind : entries.findIdx? (TslEntry.isOf devSn) with
      | none =>
          rw [hfind] at hsave
          rw [List.findIdx?_eq_none_iff] at hfind
          exact h.saveNew hfind (fun _ _ => rfl) hprofile hsave hsizes
      | some i =>
          rw [hfind] at hsave
          rcases findIdx?_eq_some_split hfind with ⟨pre, e, post, rfl, rfl, he, -⟩
          refine h.saveOld he (fun hne x hx hmodel => ?_) hprofile hsave hsizes
          have hother := (h.others_iff he x).mpr hx
          have hself : e ∈ pre ++ e :: post := List.mem_append_right _ List.mem_cons_self
          exact Bool.noConfusion (hother.2.symm.trans (halone e hself he hne x hother.1 hmodel))

/-- Deleting a device that leaves no other one behind. -/
theorem Indexed.del {kv' : Store} (h : Indexed c profile kv entries)
    (halone : ∀ e ∈ entries, e.isOf devSn = true →
      ∀ x ∈ entries, x.model = e.model → x.isOf devSn = true)
    (hdel : tslStorageDel c devSn kv = some (0, kv')) :
    ∃ entries', Indexed c profile kv' entries' ∧
      ∀ x, x ∈ entries' ↔ x ∈ entries ∧ x.isOf devSn = false := by
  unfold tslStorageDel at hdel
  by_cases hnil : kv.value tslmapKey = []
  · rw [Store.rawLength_eq_zero hnil] at hdel
    cases hdel
    obtain ⟨rfl, -⟩ := h.listed.eq_nil hnil
    exact ⟨[], h, by simp⟩
  · simp only [Store.rawLength_ne_zero hnil, if_false, Store.rawGet_rawLength_zero h.bufFits,
      h.listed.parse hnil, findDevBySn_map] at hdel
    cases hfind : entries.findIdx? (TslEntry.isOf devSn) with
    | none =>
        rw [hfind] at hdel
        cases hdel
    | some i =>
        rw [hfind] at hdel
        rcases findIdx?_eq_some_split hfind with ⟨pre, e, post, rfl, rfl, he, -⟩
        have hself : e ∈ pre ++ e :: post := List.mem_append_right _ List.mem_cons_self
        refine ⟨pre ++ post, h.delIndexed he (fun x hx hmodel => ?_) hdel, fun x => ?_⟩
        · have hother := (h.others_iff he x).mpr hx
          exact Bool.noConfusion (hother.2.symm.trans (halone e hself he x hother.1 hmodel))
        · rw [h.others_iff he, List.mem_append]

end Entries

/-! ## Runs -/

section Runs

variable {profile : DevModel → Bytes} {s s' : Stored known} {entries : List (TslEntry known)}

/-- The entries are the devices that are saved. -/
structure Stored.Inv (c : StorageConfig known) (profile : DevModel → Bytes) (s : Stored known)
    (entries : List (TslEntry known)) : Prop where
  indexed : Indexed c profile s.kv entries
  saved : ∀ devSn model, s.saved devSn = some model ↔
    ∃ e ∈ entries, e.isOf devSn = true ∧ e.model = model

theorem Stored.Inv.sound (h : s.Inv c profile entries) : StorageSound c profile s := by
  intro devSn
  rw [h.indexed.load devSn]
  cases hfind : entries.find? (TslEntry.isOf devSn) with
  | some e =>
      rw [(h.saved devSn e.model).mpr ⟨e, List.mem_of_find?_eq_some hfind,
        List.find?_some hfind, rfl⟩]
  | none =>
      have hnone : s.saved devSn = none := by
        refine Option.eq_none_iff_forall_not_mem.mpr fun model hmodel => ?_
        obtain ⟨e, he, hself, -⟩ := (h.saved devSn model).mp hmodel
        exact List.find?_eq_none.mp hfind e he hself
      rw [hnone]

/-- Whoever has the model of a device that leaves it alone is that device. -/
theorem Stored.Inv.alone (h : s.Inv c profile entries) {devSn : CString} {e x : TslEntry known}
    (halone : ∀ other, s.saved other = some e.model → other = devSn) (hx : x ∈ entries)
    (hmodel : x.model = e.model) : x.isOf devSn = true :=
  isOf_iff.mpr (halone _ ((h.saved x.sn.toCString e.model).mpr
    ⟨x, hx, isOf_iff.mpr rfl, hmodel⟩))

/-- What a call on one device leaves of the others. -/
theorem exists_entry_of_ne {entries' : List (TslEntry known)} {devSn sn : CString} {m : known}
    (hsn : sn ≠ devSn)
    (hkept : ∀ e : TslEntry known, e.isOf devSn = false → (e ∈ entries' ↔ e ∈ entries)) :
    (∃ e ∈ entries', e.isOf sn = true ∧ e.model = m) ↔
      ∃ e ∈ entries, e.isOf sn = true ∧ e.model = m := by
  refine exists_congr fun e => ?_
  by_cases hself : e.isOf sn = true
  · have hnot : e.isOf devSn = false := Bool.eq_false_iff.mpr fun hdev =>
      hsn ((isOf_iff.mp hself).symm.trans (isOf_iff.mp hdev))
    rw [hkept e hnot]
  · simp [hself]

theorem Stored.Inv.step (h : s.Inv c profile entries) {call : StorageCall known}
    (halone : LeavesAlone s call) (hstep : s.step c profile call = some s') :
    ∃ entries', s'.Inv c profile entries' := by
  cases call with
  | save devSn model =>
      obtain ⟨⟨rv, kv⟩, hsave, hr⟩ := Option.bind_eq_some_iff.mp hstep
      split at hr
      next hok =>
        obtain ⟨rfl, hsizes⟩ : rv = 0 ∧ WithinSizes c devSn kv := hok
        cases hr
        obtain ⟨entries', hindexed, hsaved⟩ := h.indexed.save (fun e he hself hne x hx =>
          h.alone (halone e.model ((h.saved devSn e.model).mpr ⟨e, he, hself, rfl⟩) hne) hx)
          hsave hsizes
        refine ⟨entries', hindexed, fun sn m => ?_⟩
        have hfit : (CField.strncpy devSn : CField 48).toCString = devSn :=
          CField.strncpy_of_fits hsizes.1
        show Function.update s.saved devSn (some model) sn = some m ↔ _
        by_cases hsn : sn = devSn
        · subst hsn
          rw [Function.update_self, Option.some_inj]
          constructor
          · rintro rfl
            exact ⟨_, (hsaved _).mpr (.inl rfl), isOf_iff.mpr hfit, rfl⟩
          · rintro ⟨e, he, hself, rfl⟩
            rcases (hsaved e).mp he with rfl | ⟨-, hnot⟩
            · rfl
            · exact Bool.noConfusion (hself.symm.trans hnot)
        · rw [Function.update_of_ne hsn, h.saved sn m]
          refine (exists_entry_of_ne hsn fun e hnot => (hsaved e).trans ⟨?_, fun he => .inr ⟨he, hnot⟩⟩).symm
          rintro (rfl | ⟨he, -⟩)
          · exact Bool.noConfusion ((isOf_iff.mpr hfit).symm.trans hnot)
          · exact he
      next => cases hr
  | del devSn =>
      obtain ⟨⟨rv, kv⟩, hdel, hr⟩ := Option.bind_eq_some_iff.mp hstep
      split at hr
      next hok =>
        obtain rfl : rv = 0 := hok
        cases hr
        obtain ⟨entries', hindexed, hleft⟩ := h.indexed.del (fun e he hself x hx =>
          h.alone (halone e.model ((h.saved devSn e.model).mpr ⟨e, he, hself, rfl⟩)) hx) hdel
        refine ⟨entries', hindexed, fun sn m => ?_⟩
        show Function.update s.saved devSn none sn = some m ↔ _
        by_cases hsn : sn = devSn
        · subst hsn
          rw [Function.update_self]
          refine iff_of_false (by simp) ?_
          rintro ⟨e, he, hself, -⟩
          exact Bool.noConfusion (hself.symm.trans ((hleft e).mp he).2)
        · rw [Function.update_of_ne hsn, h.saved sn m]
          exact (exists_entry_of_ne hsn fun e hnot =>
            (hleft e).trans ⟨fun he => he.1, fun he => ⟨he, hnot⟩⟩).symm
      next => cases hr

/-- As long as no device leaves a model that another one has, every device loads what
was saved for it last. -/
theorem storage_sound (c : StorageConfig known) (profile : DevModel → Bytes)
    (h : Reach (Stored.step c profile) LeavesAlone (.empty known) s) :
    StorageSound c profile s := by
  obtain ⟨entries, hinv⟩ := h.invariant (I := fun s => ∃ entries, s.Inv c profile entries)
    ⟨[], ⟨.inr ⟨rfl, rfl⟩, Nat.zero_le _, Nat.zero_le _, .nil, by simp⟩, by simp [Stored.empty]⟩
    fun s call s' hs halone hstep => by
      obtain ⟨entries, hs⟩ := hs
      exact hs.step halone hstep
  exact hinv.sound

end Runs

end Storage

/-! ## Two devices of one model -/

def sampleModel : DevModel := (.lit "T", .lit "V1")

def sampleStorage : StorageConfig {sampleModel} where
  mapSize := 4096
  profileSize := 8192
  printNumber _ := []
  handles :=
    { index _ := .strncpy (.lit "tslpf_1")
      tslpf _ := by decide
      injOn := Set.injOn_singleton _ _ }

def saveSample (devSn : String) : StorageCall {sampleModel} :=
  .save (.lit devSn) ⟨sampleModel, rfl⟩

/-- Two devices are saved, and one of them again. -/
def sampleSaves : List (StorageCall {sampleModel}) := ["D1", "D2", "D1"].map saveSample

theorem storage_sound_saved : ∃ s,
    sampleSaves.foldlM (Stored.step sampleStorage fun _ => ascii "P") (.empty _) = some s ∧
      (s.saved (.lit "D1")).isSome = true ∧ (s.saved (.lit "D2")).isSome = true ∧
      StorageSound sampleStorage (fun _ => ascii "P") s := by
  have hsaved : (sampleSaves.foldlM (Stored.step sampleStorage fun _ => ascii "P")
      (.empty _)).map (fun s => ((s.saved (.lit "D1")).isSome, (s.saved (.lit "D2")).isSome)) =
        some (true, true) := by decide +kernel
  obtain ⟨s, hrun, hends⟩ := Option.map_eq_some_iff.mp hsaved
  obtain ⟨hfirst, hsecond⟩ := Prod.mk.inj hends
  -- there is only one model, so no device leaves its own
  have halone : ∀ (s : Stored {sampleModel}), ∀ call ∈ sampleSaves, LeavesAlone s call := by
    intro s call hcall
    obtain ⟨devSn, -, rfl⟩ := List.mem_map.mp hcall
    exact fun old _ hne => absurd (Subsingleton.elim old _) hne
  exact ⟨s, hrun, hfirst, hsecond, storage_sound sampleStorage _ (Reach.of_forall halone hrun)⟩

/-- Deleting one device takes the profile of the other. -/
theorem shared_profile_lost : ∃ s,
    Reach (Stored.step sampleStorage fun _ => ascii "P") (fun _ _ => True) (.empty _) s ∧
      ¬ StorageSound sampleStorage (fun _ => ascii "P") s := by
  have hrun : (([saveSample "D1", saveSample "D2", .del (.lit "D1")].foldlM
      (Stored.step sampleStorage fun _ => ascii "P") (.empty _)).map fun s =>
        ((tslStorageLoad sampleStorage (.lit "D2") s.kv).bind Except.toOption,
          (s.saved (.lit "D2")).isSome)) = some (some [], true) := by decide +kernel
  obtain ⟨s, hs, hend⟩ := Option.map_eq_some_iff.mp hrun
  refine ⟨s, Reach.of_foldlM hs, fun hsound => ?_⟩
  obtain ⟨hload, hsaved⟩ := Prod.mk.inj hend
  obtain ⟨model, hmodel⟩ := Option.isSome_iff_exists.mp hsaved
  have hd2 := hsound (.lit "D2")
  rw [hmodel] at hd2
  rw [hd2] at hload
  have hempty : some (ascii "P") = some [] := hload
  exact absurd hempty (by decide)

end EzIot.Tsl
