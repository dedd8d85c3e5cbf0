import EzIot.Tsl.Handle
import EzIot.Tsl.Faults

/-! # The storage of profiles when it is cut off

Every operation on the store may fail, and the power may be lost before any of them. The
index and the profiles are written one after the other.
-/

namespace EzIot.Tsl

open CText CJson Kv Run Program Faulty

section Storage

variable {known : Set DevModel} (c : StorageConfig known) (out : Outcomes StorageSite)

/-! ## Calls -/

/-- A call for a device, whose serial fits its field. A null pointer is passed for no
buffer. -/
inductive StorageRequest (known : Set DevModel)
  | save (devSn : CField 48) (model : known) (buf : Option ProfileText)
  | del (devSn : CField 48)

def StorageRequest.devSn : StorageRequest known → CString
  | .save devSn _ _ => devSn.toCString
  | .del devSn => devSn.toCString

def StorageRequest.program : StorageRequest known → StorageProgram
  | .save devSn model buf => tslStorageSaveAt c out devSn.toCString model buf
  | .del devSn => tslStorageDelAt c out devSn.toCString

/-- What a call is to reach: a profile of the model is loaded, or no entry is found. -/
def StorageRequest.Met (kv : Store) (call : StorageRequest known) (kv' : Store) : Prop :=
  match call with
  | .save devSn model buf => ∃ p : ProfileText,
      (buf = some p ∨ kv (c.handles.index model).toCString = some p.1) ∧
        tslStorageLoad c devSn.toCString kv' = some (.ok p.1)
  | .del devSn => tslStorageLoad c devSn.toCString kv' = some (.error Err.kvName)

/-- The other devices load what they did, and the one of the call loads that too or what it
is to. -/
structure Untorn (kv : Store) (call : StorageRequest known) (kv' : Store) : Prop where
  others : ∀ other, other ≠ call.devSn → tslStorageLoad c other kv' = tslStorageLoad c other kv
  self : tslStorageLoad c call.devSn kv' = tslStorageLoad c call.devSn kv ∨ call.Met c kv kv'

/-- A success is one, and a failure or a loss of power tears nothing. -/
structure CallSafe (kv : Store) (call : StorageRequest known) (ended : Ended) : Prop where
  returns : ended.code ≠ none
  succeeds : ended.code = some 0 → call.Met c kv ended.kv
  fails : ended.code ≠ some 0 → Untorn c kv call ended.kv
  cut : ∀ kv' ∈ ended.cuts, Untorn c kv call kv'

/-! ## When calls are safe -/

/-- The index cannot be read. -/
def ReadFails (kv : Store) : Prop :=
  (kv.value tslmapKey = [] ∧ out .length 0 ≠ 0) ∨ (kv.value tslmapKey ≠ [] ∧ out .read 0 ≠ 0)

/-- The index has no room for another device. -/
def IndexFull (kv : Store) (devSn : CString) (model : DevModel) : Prop :=
  c.mapSize < (printTslmap c ((((cJSONParse (kv.value tslmapKey)).map Value.children).getD []) ++
    [tslmapMetadataToJson ⟨.strncpy devSn, c.handles.index model⟩])).length

/-- The profile is stored, if at the second time. -/
def Profiled (buf : Option ProfileText) : Prop :=
  buf ≠ none ∧ (out .profile 0 = 0 ∨ out .profile 1 = 0)

/-- A device that is not in the index: its profile is stored already and not cleared away,
or its entry is not stored. -/
def NewSafe (kv : Store) (handleCurr : CField 32) : Prop :=
  (kv handleCurr.toCString ≠ none ∧ (kv.value tslmapKey ≠ [] ∨ out .clear 0 ≠ 0)) ∨
    (out .tslmap 0 ≠ 0 ∧ out .tslmap 1 ≠ 0)

/-- A device with another handle: the profile that it leaves is not deleted, and the new one
is stored already, or nothing is written. Where the one that it leaves is missing, its entry
may change before its profile is stored. -/
def ChangedSafe (kv : Store) (old handleCurr : CField 32) (buf : Option ProfileText) : Prop :=
  ¬ (out .delOld 0 = 0 ∧ kv old.toCString ≠ none) ∧
    (kv handleCurr.toCString ≠ none ∨
      (out .tslmap 0 ≠ 0 ∧ out .tslmap 1 ≠ 0 ∧ out .tslmap 2 ≠ 0) ∨
      (kv old.toCString = none ∧
        ((out .tslmap 0 = 0 ∧ Profiled out buf) ∨ (out .tslmap 0 ≠ 0 ∧ out .tslmap 2 ≠ 0))))

/-- By the handle that the device has. -/
def EntrySafe (kv : Store) (devSn : CString) (model : DevModel) (buf : Option ProfileText) :
    Option (CField 32) → Prop
  | none => IndexFull c kv devSn model ∨ NewSafe out kv (c.handles.index model)
  | some old =>
      if old = c.handles.index model then
        kv (c.handles.index model).toCString ≠ none ∨ Profiled out buf
      else ChangedSafe out kv old (c.handles.index model) buf

def SaveSafe (kv : Store) (devSn : CString) (model : DevModel) (buf : Option ProfileText) : Prop :=
  (buf.elim 0 fun b => b.1.length) > c.profileSize ∨ ReadFails out kv ∨
    EntrySafe c out kv devSn model buf (handleOf c devSn kv)

/-- There is nothing to delete, or the index cannot be read. -/
def DelSafe (kv : Store) (devSn : CString) : Prop :=
  handleOf c devSn kv = none ∨ (out .length 0 ≠ 0 ∧ out .length 2 ≠ 0) ∨
    (out .length 0 = 0 ∧ out .read 0 ≠ 0 ∧ out .read 2 ≠ 0) ∨
    (out .length 0 = 0 ∧ out .read 0 = 0 ∧ Store.kvBufSizeDefault < (kv.value tslmapKey).length)

def StorageRequest.Safe (kv : Store) : StorageRequest known → Prop
  | .save devSn model buf => SaveSafe c out kv devSn.toCString model buf
  | .del devSn => DelSafe c out kv devSn.toCString

/-! ## Stored indexes -/

theorem delAt_kv (key : CString) (kv : Store) :
    (delAt key kv).2 = Function.update kv key none := by
  unfold delAt Store.del
  by_cases hstored : (kv key).isSome
  · rw [if_pos hstored]
  · rw [if_neg hstored]
    have hnone : kv key = none := by simpa using hstored
    exact (Function.update_eq_self_iff.mpr hnone.symm).symm

theorem delAt_code {key : CString} {kv : Store} : (delAt key kv).1 = 0 ↔ kv key ≠ none := by
  unfold delAt Store.del
  by_cases hstored : (kv key).isSome
  · rw [if_pos hstored]
    simpa [Option.isSome_iff_ne_none] using hstored
  · rw [if_neg hstored]
    have hnone : kv key = none := by simpa using hstored
    simp [hnone, Err.kvName]

theorem rawSetAt_kv (key : CString) (v : Bytes) (kv : Store) :
    (rawSetAt key v kv).2 = kv.rawSet key v := rfl

theorem rawSet_rawSet (key : CString) (v : Bytes) (kv : Store) :
    (kv.rawSet key v).rawSet key v = kv.rawSet key v := Function.update_idem ..

variable {c out} {kv kv' : Store} {entries entries' : List (TslEntry known)}

/-- The index and the profiles are kept under different keys. -/
theorem rawSet_tslmap_index (m : known) (t : Bytes) (kv : Store) :
    (kv.rawSet tslmapKey t) (c.handles.index m).toCString = kv (c.handles.index m).toCString :=
  Store.rawSet_of_ne (index_ne_tslmapKey (c := c) m.1)

theorem value_rawSet_tslmap (m : known) (t : Bytes) (kv : Store) :
    (kv.rawSet tslmapKey t).value (c.handles.index m).toCString =
      kv.value (c.handles.index m).toCString := by
  unfold Store.value
  rw [rawSet_tslmap_index]

/-- The store has an index of different devices, and profiles that are not empty and can be
read. -/
structure Mapped (c : StorageConfig known) (kv : Store) (entries : List (TslEntry known)) :
    Prop where
  listed : Listed c kv entries
  nodup : (entries.map fun e => e.sn.toCString).Nodup
  profiles : ∀ (m : known) (b : Bytes), kv (c.handles.index m).toCString = some b →
    b ≠ [] ∧ b.length ≤ c.profileSize

section Mapped

variable {m : known} {b : Bytes}

theorem Mapped.value_ne_nil (h : Mapped c kv entries) :
    kv.value (c.handles.index m).toCString ≠ [] ↔ kv (c.handles.index m).toCString ≠ none := by
  constructor
  · intro hvalue hnone
    exact hvalue (Store.value_of_eq_none hnone)
  · intro hstored
    obtain ⟨b, hb⟩ := Option.ne_none_iff_exists'.mp hstored
    rw [Store.value_of_eq_some hb]
    exact (h.profiles m b hb).1

theorem Mapped.load (h : Mapped c kv entries) (devSn : CString) :
    tslStorageLoad c devSn kv = some (
      match entries.find? (TslEntry.isOf devSn) with
      | some e => .ok (kv.value (c.handles.index e.model).toCString)
      | none => .error Err.kvName) := by
  rw [h.listed.load]
  cases entries.find? (TslEntry.isOf devSn) with
  | none => rfl
  | some e =>
      have hfits : (kv.value (c.handles.index e.model).toCString).length ≤ c.profileSize := by
        cases hstored : kv (c.handles.index e.model).toCString with
        | none =>
            rw [Store.value_of_eq_none hstored]
            exact Nat.zero_le _
        | some b =>
            rw [Store.value_of_eq_some hstored]
            exact (h.profiles e.model b hstored).2
      exact congrArg (fun t => some (Except.ok t)) (Store.rawGet_rawLength hfits)

theorem Mapped.load_found {devSn : CString} {e : TslEntry known} (h : Mapped c kv entries)
    (hfind : entries.find? (TslEntry.isOf devSn) = some e) :
    tslStorageLoad c devSn kv = some (.ok (kv.value (c.handles.index e.model).toCString)) := by
  rw [h.load, hfind]

theorem Mapped.load_missing {devSn : CString} (h : Mapped c kv entries)
    (hfind : entries.find? (TslEntry.isOf devSn) = none) :
    tslStorageLoad c devSn kv = some (.error Err.kvName) := by
  rw [h.load, hfind]

theorem Mapped.rawSet_tslmap (h : Mapped c kv entries)
    (hfits : (printTslmap c (entries'.map (TslEntry.toJson c))).length ≤ c.mapSize)
    (hnodup : (entries'.map fun e => e.sn.toCString).Nodup) :
    Mapped c (kv.rawSet tslmapKey (printTslmap c (entries'.map (TslEntry.toJson c)))) entries' := by
  constructor
  · refine ⟨.inl Store.rawSet_self, ?_⟩
    rw [Store.value_of_eq_some Store.rawSet_self]
    exact hfits
  · exact hnodup
  · intro m b hb
    rw [rawSet_tslmap_index] at hb
    exact h.profiles m b hb

theorem Mapped.rawSet_profile (h : Mapped c kv entries) (hne : b ≠ [])
    (hfits : b.length ≤ c.profileSize) :
    Mapped c (kv.rawSet (c.handles.index m).toCString b) entries := by
  have hkey : (kv.rawSet (c.handles.index m).toCString b) tslmapKey = kv tslmapKey :=
    Store.rawSet_of_ne (index_ne_tslmapKey m.1).symm
  constructor
  · refine ⟨?_, ?_⟩
    · rw [hkey]
      exact h.listed.tslmap
    · unfold Store.value
      rw [hkey]
      exact h.listed.mapFits
  · exact h.nodup
  · intro m' b' hb'
    by_cases hsame : m' = m
    · subst hsame
      rw [Store.rawSet_self] at hb'
      cases hb'
      exact ⟨hne, hfits⟩
    · rw [Store.rawSet_of_ne (index_ne hsame)] at hb'
      exact h.profiles m' b' hb'

theorem Mapped.of_fewer (h : Mapped c kv entries) (hkey : kv' tslmapKey = kv tslmapKey)
    (hfewer : ∀ key b, kv' key = some b → kv key = some b) : Mapped c kv' entries := by
  constructor
  · refine ⟨?_, ?_⟩
    · rw [hkey]
      exact h.listed.tslmap
    · unfold Store.value
      rw [hkey]
      exact h.listed.mapFits
  · exact h.nodup
  · intro m b hb
    exact h.profiles m b (hfewer _ _ hb)

theorem Mapped.delByPrefix (h : Mapped c kv entries) :
    Mapped c (kv.delByPrefix (ascii "tslpf")) entries := by
  refine h.of_fewer (if_neg (by decide)) ?_
  intro key b hb
  unfold Store.delByPrefix at hb
  split at hb
  · cases hb
  · exact hb

theorem Mapped.delAt (h : Mapped c kv entries) (key : CString) (hkey : tslmapKey ≠ key) :
    Mapped c (delAt key kv).2 entries := by
  rw [delAt_kv]
  refine h.of_fewer (Function.update_of_ne hkey ..) ?_
  intro key' b hb
  by_cases hsame : key' = key
  · rw [hsame, Function.update_self] at hb
    cases hb
  · rwa [Function.update_of_ne hsame] at hb

/-- A device with the same entry loads what it did, if that is stored. -/
theorem Mapped.load_congr {devSn : CString} (h : Mapped c kv entries) (h' : Mapped c kv' entries')
    (hfind : entries'.find? (TslEntry.isOf devSn) = entries.find? (TslEntry.isOf devSn))
    (hvalue : ∀ e ∈ entries, e.isOf devSn = true →
      kv'.value (c.handles.index e.model).toCString = kv.value (c.handles.index e.model).toCString) :
    tslStorageLoad c devSn kv' = tslStorageLoad c devSn kv := by
  rw [h.load, h'.load, hfind]
  cases hentry : entries.find? (TslEntry.isOf devSn) with
  | none => rfl
  | some e =>
      have hsame := hvalue e (List.mem_of_find?_eq_some hentry) (List.find?_some hentry)
      exact congrArg (fun t => some (Except.ok t)) hsame

end Mapped

/-! ## How calls end -/

section Ends

variable {call : StorageRequest known} {l : List Store} {devSn : CField 48} {model : known}
  {buf : Option ProfileText} {e : TslEntry known}

theorem Untorn.refl (kv : Store) (call : StorageRequest known) : Untorn c kv call kv :=
  ⟨fun _ _ => rfl, .inl rfl⟩

theorem cuts_of (r : Except (Option Int) Unit × Store × List Store) :
    (Ended.of r).cuts = r.2.2 := by
  obtain ⟨- | -, s⟩ := r
  · rfl
  · rfl

theorem within_saveProfileAt {handleCurr : CField 32} {items : List Value} :
    Within LogGrows (saveProfileAt out handleCurr buf items) := by
  unfold saveProfileAt
  split
  next => exact Within.pure ()
  next =>
    split
    next => exact Within.stop none
    next => exact Within.ite (within_checkCond fun _ => within_evaluate) (Within.pure ())

theorem callSafe_ok : CallSafe c kv call (.of (.ok (), kv', l)) ↔
    call.Met c kv kv' ∧ ∀ k ∈ l, Untorn c kv call k := by
  constructor
  · intro h
    exact ⟨h.succeeds rfl, h.cut⟩
  · rintro ⟨hmet, hcut⟩
    exact ⟨Option.some_ne_none 0, fun _ => hmet, fun hne => absurd rfl hne, hcut⟩

theorem callSafe_error {code : Int} : CallSafe c kv call (.of (.error (some code), kv', l)) ↔
    ((code = 0 → call.Met c kv kv') ∧ (code ≠ 0 → Untorn c kv call kv')) ∧
      ∀ k ∈ l, Untorn c kv call k := by
  constructor
  · intro h
    refine ⟨⟨fun hzero => h.succeeds (congrArg some hzero), fun hne => h.fails ?_⟩, h.cut⟩
    exact fun heq => hne (Option.some.inj heq)
  · rintro ⟨⟨hmet, huntorn⟩, hcut⟩
    exact ⟨Option.some_ne_none code, fun heq => hmet (Option.some.inj heq),
      fun hne => huntorn fun heq => hne (congrArg some heq), hcut⟩

theorem met_save_iff (kv : Store) (buf : Option ProfileText) (h' : Mapped c kv' entries')
    (hfind : entries'.find? (TslEntry.isOf devSn.toCString) = some e) (hmodel : e.model = model)
    (hkept : ∀ b, kv' (c.handles.index model).toCString = some b →
      kv (c.handles.index model).toCString = some b) :
    (StorageRequest.save devSn model buf).Met c kv kv' ↔
      kv' (c.handles.index model).toCString ≠ none := by
  subst hmodel
  have hload := h'.load_found hfind
  constructor
  · rintro ⟨p, -, hp⟩ hnone
    rw [hload, Store.value_of_eq_none hnone] at hp
    exact p.2 (Except.ok.inj (Option.some.inj hp)).symm
  · intro hstored
    obtain ⟨b, hb⟩ := Option.ne_none_iff_exists'.mp hstored
    rw [Store.value_of_eq_some hb] at hload
    exact ⟨⟨b, (h'.profiles e.model b hb).1⟩, .inr (hkept b hb), hload⟩

/-- And where the profile was written. -/
theorem met_saved {p : ProfileText} (h' : Mapped c kv' entries')
    (hfind : entries'.find? (TslEntry.isOf devSn.toCString) = some e) (hmodel : e.model = model)
    (hfits : p.1.length ≤ c.profileSize) :
    (StorageRequest.save devSn model (some p)).Met c kv
      (kv'.rawSet (c.handles.index model).toCString p.1) := by
  subst hmodel
  have hload := (h'.rawSet_profile (m := e.model) p.2 hfits).load_found hfind
  rw [Store.value_of_eq_some Store.rawSet_self] at hload
  exact ⟨p, .inl rfl, hload⟩

theorem untorn_of_met (call : StorageRequest known) (hothers : ∀ other, other ≠ call.devSn →
      tslStorageLoad c other kv' = tslStorageLoad c other kv) (h : call.Met c kv kv') :
    Untorn c kv call kv' := ⟨hothers, .inr h⟩

theorem forall_mem_concat {P : Store → Prop} : (∀ k ∈ l ++ [kv], P k) ↔ (∀ k ∈ l, P k) ∧ P kv := by
  simp only [List.forall_mem_append, List.forall_mem_singleton]

/-- The end of `tsl_storage_save` always leaves with a success. -/
theorem profile_safe_iff (h' : Mapped c kv' entries')
    (hfind : entries'.find? (TslEntry.isOf devSn.toCString) = some e) (hmodel : e.model = model)
    (hfits : ∀ p, buf = some p → p.1.length ≤ c.profileSize)
    (hothers : ∀ other, other ≠ devSn.toCString →
      tslStorageLoad c other kv' = tslStorageLoad c other kv) :
    CallSafe c kv (.save devSn model buf) (.of (saveProfileAt out (c.handles.index model) buf
        (entries'.map (TslEntry.toJson c)) (kv', l))) ↔
      ((StorageRequest.save devSn model buf).Met c kv kv' ∨
        (Untorn c kv (.save devSn model buf) kv' ∧ Profiled out buf)) ∧
      ∀ k ∈ l, Untorn c kv (.save devSn model buf) k := by
  cases buf with
  | none =>
      have hrun : saveProfileAt out (c.handles.index model) none
          (entries'.map (TslEntry.toJson c)) (kv', l) = (.ok (), kv', l) := rfl
      rw [hrun, callSafe_ok]
      simp [Profiled]
  | some p =>
      have hcount : getTslHandleCount (c.handles.index model).toCString
          (entries'.map (TslEntry.toJson c)) = some 1 := by
        rw [getTslHandleCount_map, if_pos ⟨e, List.mem_of_find?_eq_some hfind, by rw [hmodel]⟩]
      have hmet : (StorageRequest.save devSn model (some p)).Met c kv
          (kv'.rawSet (c.handles.index model).toCString p.1) :=
        met_saved h' hfind hmodel (hfits p rfl)
      have huntorn := untorn_of_met (.save devSn model (some p)) hothers
      have hprofiled : Profiled out (some p) ↔ out .profile 0 = 0 ∨ out .profile 1 = 0 := by
        simp [Profiled]
      unfold saveProfileAt
      simp only [hcount, if_true]
      rw [hprofiled]
      by_cases hfirst : out .profile 0 = 0
      · rw [checkCond_of_ok (by rw [attempt_of_ok hfirst]; rfl), attempt_of_ok hfirst, callSafe_ok,
          forall_mem_concat]
        tauto
      · rw [checkCond_of_fail (by rwa [attempt_of_fail hfirst]), attempt_of_fail hfirst,
          callSafe_error, forall_mem_concat, forall_mem_concat]
        by_cases hsecond : out .profile 1 = 0
        · rw [attempt_of_ok hsecond]
          have hmet' : (StorageRequest.save devSn model (some p)).Met c kv
            (rawSetAt (c.handles.index model).toCString p.1 kv').2 := hmet
          grind
        · rw [attempt_of_fail hsecond]
          grind

/-- The element of a device that is new. Its serial is copied unchanged. -/
theorem toJson_new : entries.map (TslEntry.toJson c) ++
    [tslmapMetadataToJson ⟨.strncpy devSn.toCString, c.handles.index model⟩] =
      (entries ++ [(⟨devSn, model⟩ : TslEntry known)]).map (TslEntry.toJson c) := by
  rw [CField.strncpy_toCString, List.map_append]
  rfl

theorem Mapped.nodup_new (h : Mapped c kv entries)
    (hnew : ∀ x ∈ entries, x.isOf devSn.toCString = false) :
    ((entries ++ [(⟨devSn, model⟩ : TslEntry known)]).map fun e => e.sn.toCString).Nodup := by
  rw [List.map_append, List.nodup_append]
  refine ⟨h.nodup, List.nodup_singleton _, ?_⟩
  intro a ha b hb heq
  obtain ⟨x, hx, rfl⟩ := List.mem_map.mp ha
  have hother := hnew x hx
  rw [List.mem_singleton.mp hb] at heq
  rw [isOf_iff.mpr heq] at hother
  cases hother

theorem new_safe_iff {s : Store} (h : Mapped c kv entries) (hs : Mapped c s entries)
    (hnew : ∀ x ∈ entries, x.isOf devSn.toCString = false)
    (hfewer : ∀ b, s (c.handles.index model).toCString = some b →
      kv (c.handles.index model).toCString = some b)
    (hvalue : ∀ x ∈ entries, s.value (c.handles.index x.model).toCString =
      kv.value (c.handles.index x.model).toCString)
    (hfits : ∀ p, buf = some p → p.1.length ≤ c.profileSize) :
    CallSafe c kv (.save devSn model buf) (.of (saveIndexedAt c out devSn.toCString
        (c.handles.index model) buf (entries.map (TslEntry.toJson c)) none (s, l))) ↔
      (c.mapSize < (printTslmap c (entries.map (TslEntry.toJson c) ++
          [tslmapMetadataToJson ⟨.strncpy devSn.toCString, c.handles.index model⟩])).length ∨
        s (c.handles.index model).toCString ≠ none ∨ (out .tslmap 0 ≠ 0 ∧ out .tslmap 1 ≠ 0)) ∧
      ∀ k ∈ l, Untorn c kv (.save devSn model buf) k := by
  have hfirst : entries.find? (TslEntry.isOf devSn.toCString) = none := by
    rw [List.find?_eq_none]
    intro x hx
    simp [hnew x hx]
  have hsame : ∀ other, tslStorageLoad c other s = tslStorageLoad c other kv := fun other =>
    h.load_congr hs rfl fun x hx _ => hvalue x hx
  have hstart : Untorn c kv (.save devSn model buf) s := ⟨fun other _ => hsame other, .inl (hsame _)⟩
  unfold saveIndexedAt
  simp only [toJson_new]
  by_cases hfull : c.mapSize <
      (printTslmap c ((entries ++ [(⟨devSn, model⟩ : TslEntry known)]).map (TslEntry.toJson c))).length
  · have hrun : stop (σ := Store × List Store) (α := Unit) (some Err.kvSavedFull) (s, l) =
        (.error (some Err.kvSavedFull), s, l) := rfl
    rw [if_pos hfull, hrun, callSafe_error]
    have hcode : Err.kvSavedFull ≠ 0 := by decide
    grind
  · have hself : TslEntry.isOf devSn.toCString (⟨devSn, model⟩ : TslEntry known) = true :=
      isOf_iff.mpr rfl
    have hwritten := hs.rawSet_tslmap (Nat.le_of_not_lt hfull) (h.nodup_new hnew)
    have hfind := find?_split [] hnew hself
    have hmodel : (⟨devSn, model⟩ : TslEntry known).model = model := rfl
    have hothers : ∀ other, other ≠ devSn.toCString → tslStorageLoad c other (s.rawSet tslmapKey
        (printTslmap c ((entries ++ [(⟨devSn, model⟩ : TslEntry known)]).map
          (TslEntry.toJson c)))) = tslStorageLoad c other kv := by
      intro other hne
      have hnot : TslEntry.isOf other (⟨devSn, model⟩ : TslEntry known) = false := by
        rw [Bool.eq_false_iff]
        exact fun heq => hne (isOf_iff.mp heq).symm
      refine (hs.load_congr hwritten ?_ ?_).trans (hsame other)
      · rw [List.find?_append, List.find?_singleton, hnot]
        exact Option.or_none
      · intro x _ _
        exact value_rawSet_tslmap x.model _ s
    have hmet := met_save_iff kv buf hwritten hfind hmodel fun b hb =>
      hfewer b ((rawSet_tslmap_index model _ s).symm.trans hb)
    rw [rawSet_tslmap_index] at hmet
    have huntorn : Untorn c kv (.save devSn model buf) (s.rawSet tslmapKey (printTslmap c
        ((entries ++ [(⟨devSn, model⟩ : TslEntry known)]).map (TslEntry.toJson c)))) ↔
          s (c.handles.index model).toCString ≠ none := by
      rw [← hmet]
      constructor
      · intro hun
        rcases hun.self with hold | hgood
        · have hload := hold.symm.trans (hwritten.load_found hfind)
          have hmissing := (h.load_missing hfirst).symm.trans hload
          cases hmissing
        · exact hgood
      · exact untorn_of_met _ hothers
    rw [if_neg hfull]
    by_cases hzero : out .tslmap 0 = 0
    · rw [bind_of_ok (checkCond_of_ok (by rw [attempt_of_ok hzero]; rfl)), attempt_of_ok hzero,
        rawSetAt_kv, profile_safe_iff hwritten hfind hmodel hfits hothers, forall_mem_concat, hmet,
        huntorn]
      grind
    · rw [bind_of_error (checkCond_of_fail (by rwa [attempt_of_fail hzero])),
        attempt_of_fail hzero, callSafe_error, forall_mem_concat, forall_mem_concat]
      have hcode : (-1 : Int) ≠ 0 := by decide
      by_cases hone : out .tslmap 1 = 0
      · rw [attempt_of_ok hone, rawSetAt_kv, huntorn]
        grind
      · rw [attempt_of_fail hone]
        grind

section Found

variable {pre post : List (TslEntry known)}

theorem saveIndexedAt_same (hmodel : e.model = model) :
    saveIndexedAt c out devSn.toCString (c.handles.index model) buf
        ((pre ++ e :: post).map (TslEntry.toJson c)) (some pre.length) =
      saveProfileAt out (c.handles.index model) buf
        ((pre ++ e :: post).map (TslEntry.toJson c)) := by
  unfold saveIndexedAt
  simp only [getElem?_entries, jsonToTslmapMetadata_entry, hmodel, if_true]

theorem same_safe_iff (h : Mapped c kv (pre ++ e :: post)) (hpre : ∀ x ∈ pre,
      x.isOf devSn.toCString = false) (he : e.isOf devSn.toCString = true)
    (hmodel : e.model = model) (hfits : ∀ p, buf = some p → p.1.length ≤ c.profileSize) :
    CallSafe c kv (.save devSn model buf) (.of (saveIndexedAt c out devSn.toCString
        (c.handles.index model) buf ((pre ++ e :: post).map (TslEntry.toJson c))
          (some pre.length) (kv, l))) ↔
      (kv (c.handles.index model).toCString ≠ none ∨ Profiled out buf) ∧
        ∀ k ∈ l, Untorn c kv (.save devSn model buf) k := by
  have hfind := find?_split post hpre he
  have hmet := met_save_iff kv buf h hfind hmodel fun b hb => hb
  have hself : Untorn c kv (.save devSn model buf) kv := .refl kv _
  rw [saveIndexedAt_same hmodel, profile_safe_iff h hfind hmodel hfits fun _ _ => rfl, hmet]
  grind

/-- The call of a device with another handle: the first operation deletes the profile that
it leaves. -/
theorem saveIndexedAt_other (hmodel : e.model ≠ model) (s : Store) :
    saveIndexedAt c out devSn.toCString (c.handles.index model) buf
        ((pre ++ e :: post).map (TslEntry.toJson c)) (some pre.length) (s, l) =
      (checkRv out .tslmap (rawSetAt tslmapKey (printTslmap c
          ((pre ++ (⟨e.sn, model⟩ : TslEntry known) :: post).map (TslEntry.toJson c)))) some >>=
        fun _ => saveProfileAt out (c.handles.index model) buf
          ((pre ++ (⟨e.sn, model⟩ : TslEntry known) :: post).map (TslEntry.toJson c)))
        ((attempt out .delOld 0 (delAt (c.handles.index e.model).toCString) s).2, l ++ [s]) := by
  have hhandle : c.handles.index e.model ≠ c.handles.index model := fun heq =>
    index_ne hmodel (congrArg CField.toCString heq)
  unfold saveIndexedAt
  simp only [getElem?_entries, jsonToTslmapMetadata_entry, if_neg hhandle, getTslHandleCount_entry,
    if_true, set_entries]
  rfl

/-- Where the old profile is deleted, the device loads nothing of both. -/
theorem torn_of_deleted (h : Mapped c kv (pre ++ e :: post))
    (hpre : ∀ x ∈ pre, x.isOf devSn.toCString = false) (he : e.isOf devSn.toCString = true)
    (hcall : call.devSn = devSn.toCString)
    (hmet : ∀ kv', call.Met c kv kv' → tslStorageLoad c devSn.toCString kv' ≠ some (.ok []))
    (hstored : kv (c.handles.index e.model).toCString ≠ none) :
    ¬ Untorn c kv call (delAt (c.handles.index e.model).toCString kv).2 := by
  intro hun
  have hfind := find?_split post hpre he
  have hempty := (h.delAt _ (index_ne_tslmapKey (c := c) e.model.1).symm).load_found hfind
  have hgone : (delAt (c.handles.index e.model).toCString kv).2.value
      (c.handles.index e.model).toCString = [] := by
    rw [delAt_kv]
    exact Store.value_of_eq_none (Function.update_self ..)
  rw [hgone] at hempty
  rcases hun.self with hold | hgood
  · rw [hcall] at hold
    have hload := (h.load_found hfind).symm.trans (hold.symm.trans hempty)
    exact h.value_ne_nil.mpr hstored (Except.ok.inj (Option.some.inj hload))
  · exact hmet _ hgood hempty

/-- A device with another handle, whose old profile stays. -/
theorem kept_safe_iff (h : Mapped c kv (pre ++ e :: post))
    (hpre : ∀ x ∈ pre, x.isOf devSn.toCString = false) (he : e.isOf devSn.toCString = true)
    (hfits : ∀ p, buf = some p → p.1.length ≤ c.profileSize)
    (hsize : (printTslmap c ((pre ++ (⟨e.sn, model⟩ : TslEntry known) :: post).map
      (TslEntry.toJson c))).length ≤ c.mapSize) :
    CallSafe c kv (.save devSn model buf) (.of ((checkRv out .tslmap (rawSetAt tslmapKey
        (printTslmap c ((pre ++ (⟨e.sn, model⟩ : TslEntry known) :: post).map
          (TslEntry.toJson c)))) some >>= fun _ => saveProfileAt out (c.handles.index model) buf
            ((pre ++ (⟨e.sn, model⟩ : TslEntry known) :: post).map (TslEntry.toJson c))) (kv, l))) ↔
      (kv (c.handles.index model).toCString ≠ none ∨
        (out .tslmap 0 ≠ 0 ∧ out .tslmap 1 ≠ 0 ∧ out .tslmap 2 ≠ 0) ∨
        (kv (c.handles.index e.model).toCString = none ∧
          ((out .tslmap 0 = 0 ∧ Profiled out buf) ∨ (out .tslmap 0 ≠ 0 ∧ out .tslmap 2 ≠ 0)))) ∧
        ∀ k ∈ l, Untorn c kv (.save devSn model buf) k := by
  have hwritten := h.rawSet_tslmap hsize (by simpa using h.nodup)
  have hfind := find?_split post hpre he
  have hself : TslEntry.isOf devSn.toCString (⟨e.sn, model⟩ : TslEntry known) = true := he
  have hfind' := find?_split post hpre hself
  have hmodel : (⟨e.sn, model⟩ : TslEntry known).model = model := rfl
  have hothers : ∀ other, other ≠ devSn.toCString → tslStorageLoad c other (kv.rawSet tslmapKey
      (printTslmap c ((pre ++ (⟨e.sn, model⟩ : TslEntry known) :: post).map
        (TslEntry.toJson c)))) = tslStorageLoad c other kv := by
    intro other hne
    have hnot : e.isOf other = false := by
      rw [Bool.eq_false_iff]
      exact fun heq => hne ((isOf_iff.mp heq).symm.trans (isOf_iff.mp he))
    have hnot' : TslEntry.isOf other (⟨e.sn, model⟩ : TslEntry known) = false := hnot
    refine h.load_congr hwritten ?_ fun x _ _ => value_rawSet_tslmap x.model _ kv
    rw [List.find?_append, List.find?_append, List.find?_cons, hnot', List.find?_cons, hnot]
  have hmet := met_save_iff kv buf hwritten hfind' hmodel fun b hb =>
    (rawSet_tslmap_index model _ kv).symm.trans hb
  rw [rawSet_tslmap_index] at hmet
  have huntorn : Untorn c kv (.save devSn model buf) (kv.rawSet tslmapKey (printTslmap c
      ((pre ++ (⟨e.sn, model⟩ : TslEntry known) :: post).map (TslEntry.toJson c)))) ↔
        kv (c.handles.index model).toCString ≠ none ∨
          kv (c.handles.index e.model).toCString = none := by
    have hload := hwritten.load_found hfind'
    rw [value_rawSet_tslmap] at hload
    constructor
    · intro hun
      rcases hun.self with hold | hgood
      · have hvalue := hload.symm.trans (hold.trans (h.load_found hfind))
        have hvalue' := Except.ok.inj (Option.some.inj hvalue)
        by_contra hnot
        rw [not_or, not_not] at hnot
        rw [Store.value_of_eq_none hnot.1] at hvalue'
        exact h.value_ne_nil.mpr hnot.2 hvalue'.symm
      · exact .inl (hmet.mp hgood)
    · intro hor
      by_cases hnew : kv (c.handles.index model).toCString = none
      · refine ⟨hothers, .inl (hload.trans ?_)⟩
        rw [Store.value_of_eq_none hnew]
        have hold := h.load_found hfind
        rw [Store.value_of_eq_none (hor.resolve_left (not_not_intro hnew))] at hold
        exact hold.symm
      · exact untorn_of_met _ hothers (hmet.mpr hnew)
  have hstart : Untorn c kv (.save devSn model buf) kv := .refl kv _
  by_cases hzero : out .tslmap 0 = 0
  · rw [bind_of_ok (checkRv_of_ok (by rw [attempt_of_ok hzero]; rfl)), attempt_of_ok hzero,
      rawSetAt_kv, profile_safe_iff hwritten hfind' hmodel hfits hothers, forall_mem_concat, hmet,
      huntorn]
    grind
  · have hcode (k : Store) (t : Bytes) : (attempt out .tslmap 2 (rawSetAt tslmapKey t) k).1 =
        out .tslmap 2 := by
      unfold attempt
      split
      next htwo => exact htwo.symm
      next => rfl
    rw [bind_of_error (checkRv_of_fail (by rwa [attempt_of_fail hzero])
      (by rw [attempt_of_fail hzero]) rfl), callSafe_error, forall_mem_concat, forall_mem_concat,
      forall_mem_concat, hcode]
    by_cases hone : out .tslmap 1 = 0
    · by_cases htwo : out .tslmap 2 = 0
      · rw [attempt_of_ok hone, attempt_of_ok htwo, rawSetAt_kv, rawSetAt_kv, rawSet_rawSet, hmet,
          huntorn]
        grind
      · rw [attempt_of_ok hone, attempt_of_fail htwo, rawSetAt_kv, huntorn]
        grind
    · by_cases htwo : out .tslmap 2 = 0
      · rw [attempt_of_fail hone, attempt_of_ok htwo, rawSetAt_kv, hmet]
        grind
      · rw [attempt_of_fail hone, attempt_of_fail htwo]
        grind

/-- A device with another handle. The texts of two handles are of the same length. -/
theorem changed_safe_iff (h : Mapped c kv (pre ++ e :: post)) (hpre : ∀ x ∈ pre,
      x.isOf devSn.toCString = false) (he : e.isOf devSn.toCString = true)
    (hmodel : e.model ≠ model) (hfits : ∀ p, buf = some p → p.1.length ≤ c.profileSize)
    (hsize : (printTslmap c ((pre ++ (⟨e.sn, model⟩ : TslEntry known) :: post).map
      (TslEntry.toJson c))).length ≤ c.mapSize) :
    CallSafe c kv (.save devSn model buf) (.of (saveIndexedAt c out devSn.toCString
        (c.handles.index model) buf ((pre ++ e :: post).map (TslEntry.toJson c))
          (some pre.length) (kv, l))) ↔
      ChangedSafe out kv (c.handles.index e.model) (c.handles.index model) buf ∧
        ∀ k ∈ l, Untorn c kv (.save devSn model buf) k := by
  rw [saveIndexedAt_other hmodel]
  by_cases hdel : out .delOld 0 = 0 ∧ kv (c.handles.index e.model).toCString ≠ none
  · -- the store without the old profile is one in which the power can be lost
    refine iff_of_false ?_ fun hsafe => hsafe.1.1 hdel
    intro hsafe
    rw [attempt_of_ok hdel.1] at hsafe
    have hmet : ∀ kv', (StorageRequest.save devSn model buf).Met c kv kv' →
        tslStorageLoad c devSn.toCString kv' ≠ some (.ok []) := by
      rintro kv' ⟨p, -, hp⟩ hnone
      rw [hp] at hnone
      exact p.2 (Except.ok.inj (Option.some.inj hnone))
    refine torn_of_deleted h hpre he rfl hmet hdel.2 (hsafe.cut _ ?_)
    rw [cuts_of]
    exact mem_log_bind (fun _ => within_saveProfileAt) (mem_log_checkRv _ _)
  · have hsame : (attempt out .delOld 0 (delAt (c.handles.index e.model).toCString) kv).2 = kv := by
      by_cases hzero : out .delOld 0 = 0
      · have hnone : kv (c.handles.index e.model).toCString = none := by
          by_contra hstored
          exact hdel ⟨hzero, hstored⟩
        rw [attempt_of_ok hzero, delAt_kv]
        exact Function.update_eq_self_iff.mpr hnone.symm
      · rw [attempt_of_fail hzero]
    have hstart : Untorn c kv (.save devSn model buf) kv := .refl kv _
    rw [hsame, kept_safe_iff h hpre he hfits hsize, forall_mem_concat]
    unfold ChangedSafe
    grind

end Found

/-! ## Whole calls -/

/-- The handles of all models are printed with the same length. -/
def SameSize (c : StorageConfig known) : Prop := ∀ m m' : known,
  (printString (c.handles.index m).val).length = (printString (c.handles.index m').val).length

theorem Mapped.value_ne_nil_of_mem (h : Mapped c kv entries) (he : e ∈ entries) :
    kv.value tslmapKey ≠ [] := by
  intro hnil
  rw [(h.listed.eq_nil hnil).1] at he
  exact absurd he List.not_mem_nil

theorem length_printTslmap_set {pre post : List (TslEntry known)} (hsize : SameSize c)
    (e : TslEntry known) (model : known) :
    (printTslmap c ((pre ++ (⟨e.sn, model⟩ : TslEntry known) :: post).map
      (TslEntry.toJson c))).length =
        (printTslmap c ((pre ++ e :: post).map (TslEntry.toJson c))).length := by
  have hentry : (printValue c.printNumber
      (TslEntry.toJson c (⟨e.sn, model⟩ : TslEntry known))).length =
        (printValue c.printNumber (e.toJson c)).length := by
    simp [TslEntry.toJson, tslmapMetadataToJson, printValue, printPairs, hsize model e.model]
  let SameLength : Value → Value → Prop := fun v w =>
    (printValue c.printNumber v).length = (printValue c.printNumber w).length
  have hrefl : ∀ l : List Value, List.Forall₂ SameLength l l := fun l =>
    List.forall₂_same.mpr fun _ _ => rfl
  have helements := length_printElements_congr (List.rel_append
    (hrefl (pre.map (TslEntry.toJson c)))
      (List.Forall₂.cons (R := SameLength) hentry (hrefl (post.map (TslEntry.toJson c)))))
  rw [List.map_append, List.map_append, List.map_cons, List.map_cons]
  unfold printTslmap
  rw [printValue, printValue, List.length_cons, List.length_cons, List.length_append,
    List.length_append, helements]

theorem Mapped.text (h : Mapped c kv entries) (hne : kv.value tslmapKey ≠ []) :
    kv.value tslmapKey = printTslmap c (entries.map (TslEntry.toJson c)) :=
  Store.value_of_eq_some (h.listed.tslmap.resolve_right fun hnone =>
    hne (Store.value_of_eq_none hnone.2))

theorem entry_safe_iff (h : Mapped c kv entries) (hsize : SameSize c)
    (hne : kv.value tslmapKey ≠ []) (hfits : ∀ p, buf = some p → p.1.length ≤ c.profileSize)
    (hl : ∀ k ∈ l, Untorn c kv (.save devSn model buf) k) :
    CallSafe c kv (.save devSn model buf) (.of (saveIndexedAt c out devSn.toCString
        (c.handles.index model) buf (entries.map (TslEntry.toJson c))
          (entries.findIdx? (TslEntry.isOf devSn.toCString)) (kv, l))) ↔
      EntrySafe c out kv devSn.toCString model buf (handleOf c devSn.toCString kv) := by
  rw [h.listed.handleOf]
  cases hfind : entries.findIdx? (TslEntry.isOf devSn.toCString) with
  | none =>
      have hnone : entries.find? (TslEntry.isOf devSn.toCString) = none := by
        rw [List.find?_eq_bind_findIdx?_getElem?, hfind]
        rfl
      have hitems : (((cJSONParse (kv.value tslmapKey)).map Value.children).getD []) =
          entries.map (TslEntry.toJson c) := by
        rw [h.listed.parse hne]
        exact children_array _
      rw [hnone, Option.map_none, EntrySafe, IndexFull, NewSafe, hitems,
        new_safe_iff h h (List.findIdx?_eq_none_iff.mp hfind) (fun _ hb => hb) (fun _ _ => rfl)
          hfits]
      grind
  | some i =>
      obtain ⟨pre, e, post, rfl, rfl, he, hpre⟩ := findIdx?_eq_some_split hfind
      rw [find?_split post hpre he, Option.map_some, EntrySafe]
      by_cases hmodel : e.model = model
      · rw [same_safe_iff h hpre he hmodel hfits, if_pos (by rw [hmodel])]
        grind
      · have hhandle : c.handles.index e.model ≠ c.handles.index model := fun heq =>
          index_ne hmodel (congrArg CField.toCString heq)
        have htext := h.listed.mapFits
        rw [h.text hne] at htext
        rw [changed_safe_iff h hpre he hmodel hfits
          ((length_printTslmap_set hsize e model).trans_le htext), if_neg hhandle]
        grind

theorem le_failedLength (n : Nat) : n ≤ failedLength n := by
  unfold failedLength
  split <;> omega

theorem failedLength_ne_zero (n : Nat) : failedLength n ≠ 0 := by
  unfold failedLength Store.kvBufSizeDefault
  split <;> omega

theorem kept_clear (h : Mapped c kv entries) :
    Mapped c (attempt out .clear 0 (delByPrefixAt (ascii "tslpf")) kv).2 entries := by
  unfold attempt
  split
  · exact h.delByPrefix
  · exact h

theorem clear_index (m : known) :
    (attempt out .clear 0 (delByPrefixAt (ascii "tslpf")) kv).2 (c.handles.index m).toCString =
      if out .clear 0 = 0 then none else kv (c.handles.index m).toCString := by
  unfold attempt
  split
  · exact if_pos (c.handles.tslpf m)
  · rfl

theorem save_reads (out : Outcomes StorageSite) (h : Mapped c kv entries) (devSn : CString)
    (model : known)
    (hshort : ¬ (buf.elim 0 fun b => b.1.length) > c.profileSize) :
    ∃ l, (∀ k ∈ l, k = kv) ∧
      ((ReadFails out kv ∧
        tslStorageSaveAt c out devSn model buf (kv, []) = (.error (some (-1)), kv, l)) ∨
      (¬ ReadFails out kv ∧
        tslStorageSaveAt c out devSn model buf (kv, []) =
          saveIndexedAt c out devSn (c.handles.index model) buf (entries.map (TslEntry.toJson c))
            (entries.findIdx? (TslEntry.isOf devSn))
            (if kv.value tslmapKey = [] then
              (attempt out .clear 0 (delByPrefixAt (ascii "tslpf")) kv).2 else kv, l))) := by
  unfold tslStorageSaveAt ReadFails
  rw [if_neg hshort, evaluate_bind, attempt_look, read_bind]
  dsimp only
  by_cases hnil : kv.value tslmapKey = []
  · obtain ⟨rfl, -⟩ := h.listed.eq_nil hnil
    rw [if_pos hnil]
    by_cases hlen : out .length 0 = 0
    · rw [if_pos hlen, Store.rawLength_eq_zero hnil, if_pos rfl, evaluate_bind]
      exact ⟨[] ++ [kv] ++ [kv], by simp, .inr ⟨by simp [hnil, hlen], rfl⟩⟩
    · have hfails : (kv.value tslmapKey = [] ∧ out .length 0 ≠ 0) ∨
          (kv.value tslmapKey ≠ [] ∧ out .read 0 ≠ 0) := .inl ⟨hnil, hlen⟩
      rw [if_neg hlen, if_neg (failedLength_ne_zero _)]
      by_cases hzero : out .read 0 = 0
      · have hempty : kv.rawGet tslmapKey (failedLength c.mapSize) = [] := by
          rw [Store.rawGet, hnil, List.take_nil]
        have hparse : cJSONParse [] = none := rfl
        rw [bind_of_ok (checkCond_of_ok (by rwa [attempt_look])), attempt_look, read_bind]
        dsimp only
        simp only [hempty, hparse]
        exact ⟨[] ++ [kv] ++ [kv], by simp, .inl ⟨hfails, rfl⟩⟩
      · rw [bind_of_error (checkCond_of_fail (by rwa [attempt_look])), attempt_look, attempt_look]
        exact ⟨[] ++ [kv] ++ [kv] ++ [kv], by simp, .inl ⟨hfails, rfl⟩⟩
  · have hread : kv.rawGet tslmapKey (if out .length 0 = 0 then
        kv.rawLength tslmapKey c.mapSize else failedLength c.mapSize) = kv.value tslmapKey := by
      split
      · exact Store.rawGet_rawLength h.listed.mapFits
      · exact List.take_of_length_le (h.listed.mapFits.trans (le_failedLength _))
    have hpos : (if out .length 0 = 0 then kv.rawLength tslmapKey c.mapSize
        else failedLength c.mapSize) ≠ 0 := by
      split
      · exact Store.rawLength_ne_zero hnil
      · exact failedLength_ne_zero _
    rw [if_neg hpos, if_neg hnil]
    by_cases hzero : out .read 0 = 0
    · rw [bind_of_ok (checkCond_of_ok (by rwa [attempt_look])), attempt_look, read_bind]
      dsimp only
      simp only [hread, h.listed.parse hnil, findDevBySn_map]
      exact ⟨[] ++ [kv] ++ [kv], by simp, .inr ⟨by simp [hnil, hzero], rfl⟩⟩
    · rw [bind_of_error (checkCond_of_fail (by rwa [attempt_look])), attempt_look, attempt_look]
      exact ⟨[] ++ [kv] ++ [kv] ++ [kv], by simp, .inl ⟨.inr ⟨hnil, hzero⟩, rfl⟩⟩

theorem save_safe_iff (h : Mapped c kv entries) (hsize : SameSize c) (devSn : CField 48)
    (model : known) (buf : Option ProfileText) :
    CallSafe c kv (.save devSn model buf)
        (((StorageRequest.save devSn model buf).program c out).run kv) ↔
      SaveSafe c out kv devSn.toCString model buf := by
  have hstart : Untorn c kv (.save devSn model buf) kv := .refl kv _
  show CallSafe c kv (.save devSn model buf)
    (.of (tslStorageSaveAt c out devSn.toCString model buf (kv, []))) ↔ _
  unfold SaveSafe
  by_cases hlong : (buf.elim 0 fun b => b.1.length) > c.profileSize
  · have hrun : tslStorageSaveAt c out devSn.toCString model buf (kv, []) =
        (.error (some Err.kvSavedFull), kv, []) := by
      unfold tslStorageSaveAt
      rw [if_pos hlong]
      rfl
    have hcode : Err.kvSavedFull ≠ 0 := by decide
    rw [hrun, callSafe_error]
    simp [hlong, hcode, hstart]
  · have hfits : ∀ p, buf = some p → p.1.length ≤ c.profileSize := by
      intro p hp
      subst hp
      exact Nat.le_of_not_lt hlong
    obtain ⟨l, hl, ⟨hfails, hrun⟩ | ⟨hreads, hrun⟩⟩ := save_reads out h devSn.toCString model hlong
    · have hcuts : ∀ k ∈ l, Untorn c kv (.save devSn model buf) k := fun k hk => hl k hk ▸ hstart
      rw [hrun, callSafe_error, and_iff_left hcuts]
      simp [hfails, hstart]
    · have hcuts : ∀ k ∈ l, Untorn c kv (.save devSn model buf) k := fun k hk => hl k hk ▸ hstart
      rw [hrun, or_iff_right hlong, or_iff_right hreads]
      by_cases hnil : kv.value tslmapKey = []
      · obtain ⟨rfl, -⟩ := h.listed.eq_nil hnil
        have hnone : (((cJSONParse (kv.value tslmapKey)).map Value.children).getD []) =
            ([] : List (TslEntry known)).map (TslEntry.toJson c) := by
          rw [hnil]
          rfl
        have hhandle : handleOf c devSn.toCString kv = none := by
          rw [h.listed.handleOf]
          rfl
        rw [if_pos hnil, hhandle, EntrySafe, IndexFull, NewSafe, hnone]
        refine (new_safe_iff h (kept_clear h) (fun _ hx => absurd hx List.not_mem_nil) ?_
          (fun _ hx => absurd hx List.not_mem_nil) hfits).trans ?_
        · intro b hb
          rw [clear_index] at hb
          split at hb
          · cases hb
          · exact hb
        · rw [clear_index]
          rw [and_iff_left hcuts]
          by_cases hclear : out .clear 0 = 0
          · simp [hnil, hclear]
          · simp [hnil, hclear]
      · rw [if_neg hnil]
        exact entry_safe_iff h hsize hnil hfits hcuts

theorem met_del_iff (h : Mapped c kv entries) (devSn : CField 48) :
    (StorageRequest.del devSn).Met c kv kv ↔ handleOf c devSn.toCString kv = none := by
  rw [h.listed.handleOf]
  show tslStorageLoad c devSn.toCString kv = some (.error Err.kvName) ↔ _
  rw [h.load]
  cases entries.find? (TslEntry.isOf devSn.toCString) with
  | none => simp
  | some e => simp

theorem kept_attempt (out : Outcomes StorageSite) (n : Nat) (m : known) (h : Mapped c kv entries) :
    Mapped c (attempt out .delOld n (delAt (c.handles.index m).toCString) kv).2 entries := by
  unfold attempt
  split
  · exact h.delAt _ (index_ne_tslmapKey m.1).symm
  · exact h

/-- A device cannot be deleted safely: its profile goes before its entry, and where the
profile does not go, a success is returned. -/
theorem found_not_safe {pre post : List (TslEntry known)} (h : Mapped c kv (pre ++ e :: post))
    (hpre : ∀ x ∈ pre, x.isOf devSn.toCString = false) (he : e.isOf devSn.toCString = true) :
    ¬ CallSafe c kv (.del devSn) (.of (delIndexedAt c out
      ((pre ++ e :: post).map (TslEntry.toJson c)) pre.length (kv, l))) := by
  intro hsafe
  unfold delIndexedAt at hsafe
  simp only [getElem?_entries, Option.bind_some, jsonToTslmapMetadata_entry,
    getTslHandleCount_entry, if_true, eraseIdx_entries] at hsafe
  have hfind := find?_split post hpre he
  by_cases hzero : (attempt out .delOld 0 (delAt (c.handles.index e.model).toCString) kv).1 = 0
  · rw [bind_of_ok (checkCond_of_ok hzero)] at hsafe
    have hok : out .delOld 0 = 0 := by
      by_contra hne
      rw [attempt_of_fail hne] at hzero
      exact hne hzero
    rw [attempt_of_ok hok] at hzero hsafe
    have hmet : ∀ kv', (StorageRequest.del devSn).Met c kv kv' →
        tslStorageLoad c devSn.toCString kv' ≠ some (.ok []) := by
      intro kv' hgone hempty
      have hboth := hempty.symm.trans hgone
      cases hboth
    refine torn_of_deleted h hpre he rfl hmet (delAt_code.mp hzero) (hsafe.cut _ ?_)
    rw [cuts_of]
    exact mem_log_checkRv _ _
  · rw [bind_of_error (checkCond_of_fail hzero), callSafe_error] at hsafe
    have hmet := hsafe.1.1 rfl
    have hload := (kept_attempt out 1 e.model (kept_attempt out 0 e.model h)).load_found hfind
    have hboth := hload.symm.trans hmet
    cases hboth

theorem del_reads (out : Outcomes StorageSite) (h : Mapped c kv entries) (devSn : CString) :
    ∃ l, (∀ k ∈ l, k = kv) ∧
    ((∃ code, tslStorageDelAt c out devSn (kv, []) = (.error (some code), kv, l) ∧
      (DelSafe c out kv devSn ↔ code ≠ 0 ∨ handleOf c devSn kv = none)) ∨
    (∃ i, entries.findIdx? (TslEntry.isOf devSn) = some i ∧ ¬ DelSafe c out kv devSn ∧
      tslStorageDelAt c out devSn (kv, []) =
        delIndexedAt c out (entries.map (TslEntry.toJson c)) i (kv, l))) := by
  unfold tslStorageDelAt DelSafe
  by_cases hlen : out .length 0 = 0
  · rw [bind_of_ok (checkRv_of_ok (by rwa [attempt_look])), attempt_look, read_bind]
    dsimp only
    by_cases hnil : kv.value tslmapKey = []
    · have hhandle : handleOf c devSn kv = none := by
        rw [h.listed.handleOf, (h.listed.eq_nil hnil).1]
        rfl
      rw [Store.rawLength_eq_zero hnil, if_pos rfl]
      exact ⟨[] ++ [kv], by simp, .inl ⟨0, rfl, by simp [hhandle]⟩⟩
    · rw [if_neg (Store.rawLength_ne_zero hnil)]
      by_cases hzero : out .read 0 = 0
      · rw [bind_of_ok (checkRv_of_ok (by rwa [attempt_look])), attempt_look, read_bind]
        dsimp only
        by_cases hcut : Store.kvBufSizeDefault < (kv.value tslmapKey).length
        · have hparse : cJSONParse (kv.rawGet tslmapKey (kv.rawLength tslmapKey 0)) = none := by
            refine cJSONParse_cutRecords (fun v hv => ?_)
              ((h.text hnil).symm.trans (List.take_append_drop (kv.rawLength tslmapKey 0) _).symm) ?_
            · obtain ⟨e, -, rfl⟩ := List.mem_map.mp hv
              exact isRecord_toJson e
            · rw [Store.rawLength, if_pos rfl, Nat.min_eq_left (Nat.le_of_lt hcut)]
              intro hdrop
              have hlength := List.drop_eq_nil_iff.mp hdrop
              omega
          simp only [hparse]
          exact ⟨[] ++ [kv] ++ [kv], by simp, .inl ⟨-1, rfl, by simp [hlen, hzero, hcut]⟩⟩
        · simp only [Store.rawGet_rawLength_zero (Nat.le_of_not_lt hcut), h.listed.parse hnil,
            findDevBySn_map]
          cases hfind : entries.findIdx? (TslEntry.isOf devSn) with
          | none =>
              have hnone : handleOf c devSn kv = none := by
                rw [h.listed.handleOf, List.find?_eq_bind_findIdx?_getElem?, hfind]
                rfl
              exact ⟨[] ++ [kv] ++ [kv], by simp, .inl ⟨-1, rfl, by simp [hnone]⟩⟩
          | some i =>
              have hfound : handleOf c devSn kv ≠ none := by
                obtain ⟨pre, e, post, rfl, rfl, he, hpre⟩ := findIdx?_eq_some_split hfind
                rw [h.listed.handleOf, find?_split post hpre he]
                exact Option.some_ne_none _
              exact ⟨[] ++ [kv] ++ [kv], by simp, .inr ⟨i, rfl, by simp [hfound, hlen, hzero, hcut],
                rfl⟩⟩
      · rw [bind_of_error (checkRv_of_fail (by rwa [attempt_look]) (by rw [attempt_look])
          (by rw [attempt_look])), attempt_look]
        refine ⟨_, ?_, .inl ⟨out .read 2, rfl, ?_⟩⟩
        · simp
        · simp [hlen, hzero, or_comm]
  · rw [bind_of_error (checkRv_of_fail (by rwa [attempt_look]) (by rw [attempt_look])
      (by rw [attempt_look])), attempt_look]
    refine ⟨_, ?_, .inl ⟨out .length 2, rfl, ?_⟩⟩
    · simp
    · simp [hlen, or_comm]

theorem del_safe_iff (h : Mapped c kv entries) (devSn : CField 48) :
    CallSafe c kv (.del devSn) (((StorageRequest.del devSn).program c out).run kv) ↔
      DelSafe c out kv devSn.toCString := by
  have hstart : Untorn c kv (.del devSn) kv := .refl kv _
  have hmet := met_del_iff h devSn
  show CallSafe c kv (.del devSn) (.of (tslStorageDelAt c out devSn.toCString (kv, []))) ↔ _
  obtain ⟨l, hl, ⟨code, hrun, hsafe⟩ | ⟨i, hfind, hsafe, hrun⟩⟩ :=
    del_reads out h devSn.toCString
  · have hcuts : ∀ k ∈ l, Untorn c kv (.del devSn) k := fun k hk => hl k hk ▸ hstart
    rw [hrun, callSafe_error, hsafe, hmet]
    grind
  · obtain ⟨pre, e, post, rfl, rfl, he, hpre⟩ := findIdx?_eq_some_split hfind
    rw [hrun]
    exact iff_of_false (found_not_safe h hpre he) hsafe

/-! ## Runs with failures and losses of power -/

/-- A store that can be reached. -/
def Sane (c : StorageConfig known) (kv : Store) : Prop := ∃ entries, Mapped c kv entries

theorem keeps_saveProfileAt {items : List Value}
    (hfits : ∀ p, buf = some p → p.1.length ≤ c.profileSize) :
    Within (Keeps (Sane c)) (saveProfileAt out (c.handles.index model) buf items) := by
  unfold saveProfileAt
  split
  next => exact Within.pure ()
  next p =>
    split
    next => exact Within.stop none
    next =>
      refine Within.ite (within_checkCond fun _ => keeps_evaluate ?_) (Within.pure ())
      rintro kv ⟨entries, h⟩
      exact ⟨entries, h.rawSet_profile p.2 (hfits p rfl)⟩

theorem keeps_rawSet_tslmap (hfits : (printTslmap c (entries.map (TslEntry.toJson c))).length ≤
      c.mapSize) (hnodup : (entries.map fun e => e.sn.toCString).Nodup) (kv : Store)
    (h : Sane c kv) :
    Sane c (rawSetAt tslmapKey (printTslmap c (entries.map (TslEntry.toJson c))) kv).2 := by
  obtain ⟨_, hkept⟩ := h
  exact ⟨entries, hkept.rawSet_tslmap hfits hnodup⟩

theorem keeps_delAt (m : known) (kv : Store) (h : Sane c kv) :
    Sane c (delAt (c.handles.index m).toCString kv).2 := by
  obtain ⟨entries, hkept⟩ := h
  exact ⟨entries, hkept.delAt _ (index_ne_tslmapKey m.1).symm⟩

theorem keeps_saveIndexedAt (hsize : SameSize c) (h : Mapped c kv entries)
    (hfits : ∀ p, buf = some p → p.1.length ≤ c.profileSize) :
    Within (Keeps (Sane c)) (saveIndexedAt c out devSn.toCString (c.handles.index model) buf
      (entries.map (TslEntry.toJson c)) (entries.findIdx? (TslEntry.isOf devSn.toCString))) := by
  cases hfind : entries.findIdx? (TslEntry.isOf devSn.toCString) with
  | none =>
      unfold saveIndexedAt
      simp only [toJson_new]
      split
      next => exact Within.stop _
      next hfull =>
        refine (within_checkCond fun _ => keeps_evaluate ?_).bind fun _ => keeps_saveProfileAt hfits
        exact keeps_rawSet_tslmap (Nat.le_of_not_lt hfull)
          (h.nodup_new (List.findIdx?_eq_none_iff.mp hfind))
  | some i =>
      obtain ⟨pre, e, post, rfl, rfl, he, hpre⟩ := findIdx?_eq_some_split hfind
      by_cases hmodel : e.model = model
      · rw [saveIndexedAt_same hmodel]
        exact keeps_saveProfileAt hfits
      · rintro ⟨k, l⟩ ⟨hk, hl⟩
        rw [saveIndexedAt_other hmodel]
        have htext := h.listed.mapFits
        rw [h.text (h.value_ne_nil_of_mem List.mem_append_cons_self)] at htext
        refine ((within_checkRv fun _ => keeps_evaluate ?_).bind fun _ => keeps_saveProfileAt hfits)
          _ (keeps_evaluate (ε := Option Int) (keeps_delAt e.model) (k, l) ⟨hk, hl⟩)
        refine keeps_rawSet_tslmap ((length_printTslmap_set hsize e model).trans_le htext) ?_
        simpa using h.nodup

theorem keeps_delIndexedAt {pre post : List (TslEntry known)} (h : Mapped c kv (pre ++ e :: post)) :
    Within (Keeps (Sane c)) (delIndexedAt c out ((pre ++ e :: post).map (TslEntry.toJson c))
      pre.length) := by
  unfold delIndexedAt
  simp only [getElem?_entries, Option.bind_some, jsonToTslmapMetadata_entry,
    getTslHandleCount_entry, if_true, eraseIdx_entries]
  have hsub : (pre ++ post).Sublist (pre ++ e :: post) :=
    (List.sublist_cons_self e post).append_left pre
  have htext := h.listed.mapFits
  rw [h.text (h.value_ne_nil_of_mem List.mem_append_cons_self)] at htext
  refine (within_checkCond fun _ => keeps_evaluate (keeps_delAt e.model)).bind fun _ => ?_
  refine within_checkRv fun _ => keeps_evaluate (keeps_rawSet_tslmap ?_ ?_)
  · exact (length_printArray_le (hsub.map (TslEntry.toJson c))).trans htext
  · exact h.nodup.sublist (hsub.map _)

theorem sane_of {r : Except (Option Int) Unit × Store × List Store}
    (h : Sane c r.2.1 ∧ ∀ k ∈ r.2.2, Sane c k) :
    Sane c (Ended.of r).kv ∧ ∀ k ∈ (Ended.of r).cuts, Sane c k := by
  obtain ⟨code | u, s⟩ := r
  · exact h
  · exact h

theorem sane_call (out : Outcomes StorageSite) (hsize : SameSize c) (h : Sane c kv)
    (call : StorageRequest known) :
    Sane c ((call.program c out).run kv).kv ∧ ∀ k ∈ ((call.program c out).run kv).cuts, Sane c k := by
  obtain ⟨entries, hkept⟩ := id h
  refine sane_of ?_
  cases call with
  | save devSn model buf =>
      show Sane c (tslStorageSaveAt c out devSn.toCString model buf (kv, [])).2.1 ∧
        ∀ k ∈ (tslStorageSaveAt c out devSn.toCString model buf (kv, [])).2.2, Sane c k
      by_cases hlong : (buf.elim 0 fun b => b.1.length) > c.profileSize
      · unfold tslStorageSaveAt
        rw [if_pos hlong]
        exact ⟨h, fun k hk => absurd hk List.not_mem_nil⟩
      · have hfits : ∀ p, buf = some p → p.1.length ≤ c.profileSize := by
          intro p hp
          subst hp
          exact Nat.le_of_not_lt hlong
        obtain ⟨l, hl, ⟨-, hrun⟩ | ⟨-, hrun⟩⟩ := save_reads out hkept devSn.toCString model hlong
        · rw [hrun]
          exact ⟨h, fun k hk => hl k hk ▸ h⟩
        · rw [hrun]
          refine keeps_saveIndexedAt hsize hkept hfits _ ⟨?_, fun k hk => hl k hk ▸ h⟩
          show Sane c (if _ then _ else _)
          split
          · exact ⟨entries, kept_clear hkept⟩
          · exact h
  | del devSn =>
      show Sane c (tslStorageDelAt c out devSn.toCString (kv, [])).2.1 ∧
        ∀ k ∈ (tslStorageDelAt c out devSn.toCString (kv, [])).2.2, Sane c k
      obtain ⟨l, hl, ⟨code, hrun, -⟩ | ⟨i, hfind, -, hrun⟩⟩ := del_reads out hkept devSn.toCString
      · rw [hrun]
        exact ⟨h, fun k hk => hl k hk ▸ h⟩
      · obtain ⟨pre, e, post, rfl, rfl, -, -⟩ := findIdx?_eq_some_split hfind
        rw [hrun]
        exact keeps_delIndexedAt hkept _ ⟨h, fun k hk => hl k hk ▸ h⟩

end Ends

/-- A call under some outcomes, and the operation before which the power is lost. -/
structure PoweredCall (known : Set DevModel) where
  call : StorageRequest known
  out : Outcomes StorageSite
  lost : Option Nat

/-- The store after a call, or when the power is lost. -/
def powerStep (c : StorageConfig known) (kv : Store) (p : PoweredCall known) : Option Store :=
  match p.lost with
  | none => some ((p.call.program c p.out).run kv).kv
  | some n => ((p.call.program c p.out).run kv).cuts[n]?

end Storage

theorem escape_plain (t : Bytes) (h : ∀ x ∈ t, 31 < x ∧ x ≠ 34 ∧ x ≠ 92) :
    t.flatMap escapeByte = t := by
  induction t with
  | nil => rfl
  | cons x t ih =>
      rw [List.forall_mem_cons] at h
      have hx : escapeByte x = [x] := if_pos h.1
      rw [List.flatMap_cons, hx, ih h.2]
      rfl

/-! ## Handles of the digest -/

theorem sameSize_md5 {known : Set DevModel} (md5 : Md5) (mapSize profileSize : Nat)
    (printNumber : Rat → Bytes) (h : Set.InjOn (storageDevinfo2index md5) known) :
    SameSize (md5Config md5 mapSize profileSize printNumber h) := by
  have hlength (m : DevModel) : (printString (storageDevinfo2index md5 m).val).length = 32 := by
    have hplain : ∀ x ∈ ascii "tslpf_" ++ Base64.encode (md5.digest (md5Input m)),
        31 < x ∧ x ≠ 34 ∧ x ≠ 92 := by
      rw [List.forall_mem_append]
      exact ⟨by decide +kernel, Base64.encode_plain _⟩
    rw [val_storageDevinfo2index, printString, escape_plain _ hplain, List.length_cons,
      List.length_append, length_handle]
    rfl
  intro m m'
  exact (hlength m.1).trans (hlength m'.1).symm

/-- A call is safe exactly under the condition, whatever failed before. -/
theorem storage_atomic_iff {known : Set DevModel} {md5 : Md5} {mapSize profileSize : Nat}
    {printNumber : Rat → Bytes} (hknown : Set.InjOn (storageDevinfo2index md5) known) {kv : Store}
    (h : Reach (powerStep (md5Config md5 mapSize profileSize printNumber hknown))
      (fun _ _ => True) (fun _ => none) kv)
    (call : StorageRequest known) (out : Outcomes StorageSite) :
    CallSafe (md5Config md5 mapSize profileSize printNumber hknown) kv call
        ((call.program (md5Config md5 mapSize profileSize printNumber hknown) out).run kv) ↔
      call.Safe (md5Config md5 mapSize profileSize printNumber hknown) out kv := by
  have hsize := sameSize_md5 md5 mapSize profileSize printNumber hknown
  have hempty : Mapped (md5Config md5 mapSize profileSize printNumber hknown) (fun _ => none) [] := by
    constructor
    · exact ⟨.inr ⟨rfl, rfl⟩, Nat.zero_le _⟩
    · exact .nil
    · intro m b hb
      cases hb
  have hsane : Sane (md5Config md5 mapSize profileSize printNumber hknown) kv := by
    refine h.invariant ⟨[], hempty⟩ ?_
    intro kv p kv' hs _ hstep
    have hcall := sane_call p.out hsize hs p.call
    unfold powerStep at hstep
    split at hstep
    · cases hstep
      exact hcall.1
    · exact hcall.2 _ (List.mem_of_getElem? hstep)
  obtain ⟨entries, hkept⟩ := hsane
  cases call with
  | save devSn model buf => exact save_safe_iff hkept hsize devSn model buf
  | del devSn => exact del_safe_iff hkept devSn

/-! ## Samples -/

theorem sampleModel_injOn : Set.InjOn (storageDevinfo2index sampleMd5) {sampleModel} :=
  Set.injOn_singleton _ _

def sampleMd5Config : StorageConfig {sampleModel} :=
  md5Config sampleMd5 4096 8192 (fun _ => []) sampleModel_injOn

def sampleSave (devSn : String) : StorageRequest {sampleModel} :=
  .save (.strncpy (.lit devSn)) ⟨sampleModel, rfl⟩ (some ⟨ascii "P", by decide⟩)

/-- The store after a first device was saved without a failure. -/
def sampleKv : Store :=
  (((sampleSave "D1").program sampleMd5Config fun _ _ => 0).run fun _ => none).kv

/-- A second device of its model finds the profile there. -/
theorem storage_atomic_second : CallSafe sampleMd5Config sampleKv (sampleSave "D2")
    (((sampleSave "D2").program sampleMd5Config fun _ _ => 0).run sampleKv) := by
  have hreach : Reach (powerStep sampleMd5Config) (fun _ _ => True) (fun _ => none) sampleKv :=
    Reach.next (i := ⟨sampleSave "D1", fun _ _ => 0, none⟩) .start trivial rfl
  refine (storage_atomic_iff sampleModel_injOn hreach (sampleSave "D2") fun _ _ => 0).mpr ?_
  have hnone : handleOf sampleMd5Config (.lit "D2") sampleKv = none := by decide +kernel
  have hstored : sampleKv (sampleMd5Config.handles.index sampleModel).toCString ≠ none := by
    decide +kernel
  have hindex : sampleKv.value tslmapKey ≠ [] := by decide +kernel
  refine .inr (.inr ?_)
  show EntrySafe sampleMd5Config _ sampleKv (.lit "D2") sampleModel _
    (handleOf sampleMd5Config (.lit "D2") sampleKv)
  rw [hnone]
  exact .inr (.inl ⟨hstored, .inl hindex⟩)

/-- The profile of a first device cannot be written: a success is returned, and an empty
profile is loaded. -/
theorem profile_write_fails : ¬ ∀ (kv : Store) (call : StorageRequest {sampleModel})
    (out : Outcomes StorageSite),
      Reach (powerStep sampleMd5Config) (fun _ _ => True) (fun _ => none) kv →
        CallSafe sampleMd5Config kv call ((call.program sampleMd5Config out).run kv) := by
  intro h
  have hsafe := h _ (sampleSave "D1") (fun site _ => if site = .profile then 3 else 0) .start
  have hcode : (((sampleSave "D1").program sampleMd5Config
      fun site _ => if site = .profile then 3 else 0).run fun _ => none).code = some 0 := by
    decide +kernel
  have hload : (tslStorageLoad sampleMd5Config (.lit "D1") (((sampleSave "D1").program
      sampleMd5Config fun site _ => if site = .profile then 3 else 0).run
        fun _ => none).kv).bind Except.toOption = some [] := by
    decide +kernel
  obtain ⟨p, -, hp⟩ := hsafe.succeeds hcode
  have hsome := congrArg (fun o => o.bind Except.toOption) hp
  exact p.2 (Option.some.inj (hload.symm.trans hsome)).symm

end EzIot.Tsl
