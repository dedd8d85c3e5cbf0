import EzIot.Tsl.Registry
import EzIot.Tsl.Storage

/-! # Where the profile of a device comes from

A device that is added joins a capacity of its type and version, else it takes what the
storage has for its serial, else its profile is downloaded. A restart empties the lists
and keeps the storage.
-/

namespace EzIot.Tsl

open CText CJson Kv Run

/-! ## The adapter -/

/-- `query_info_t`, a profile that is to be downloaded. -/
structure QueryInfo where
  devSn : CField 48
  devType : CField 24
  devFwVer : CField 36

def QueryInfo.model (job : QueryInfo) : DevModel :=
  (job.devType.toCString, job.devFwVer.toCString)

/-- `g_profile_list` and `g_download_list` over the storage. -/
structure Adapter where
  list : ProfileList
  kv : Store
  jobs : List QueryInfo

def tslAdapterQueryJobAdd (devSn : CString) (model : DevModel) (jobs : List QueryInfo) :
    List QueryInfo :=
  jobs ++ [⟨.strncpy devSn, .strncpy model.1, .strncpy model.2⟩]

def tslAdapterDel (devSn : CString) (a : Adapter) : Adapter :=
  if tslProfileCheck devSn a.list then { a with list := tslProfileRefDel devSn a.list } else a

section Steps

variable {known : Set DevModel} (c : StorageConfig known) (p : Platform) (strong : Bool)

/-- `tsl_adapter_add` where the worker can be started. A job leaves the code of the
storage as the result. -/
def tslAdapterAdd (devSn : CString) (model : DevModel) (a : Adapter) : Option (Int × Adapter) :=
  if tslProfileCheck devSn a.list then some (0, a)
  else
    let joined := tslProfileRefAdd devSn model.1 model.2 a.list
    if joined.1 then some (0, { a with list := joined.2 })
    else
      match tslStorageLoad c devSn a.kv with
      | none => none
      | some (.ok buf) =>
          (tslProfileReg p strong devSn model.1 model.2 (.ofMem buf) a.list).map fun r =>
            (if r.1 = Err.succ then 0 else Err.memory, { a with list := r.2 })
      | some (.error rv) =>
          if rv = Err.kvName then
            some (rv, { a with jobs := tslAdapterQueryJobAdd devSn model a.jobs })
          else some (Err.memory, a)

/-- The branch of `ez_profile_get_thread` for a job whose text was downloaded. -/
def profileDownloaded (index : Nat) (buf : Bytes) (a : Adapter) : Option Adapter :=
  match a.jobs[index]? with
  | none => none
  | some job =>
      (tslProfileReg p strong job.devSn.toCString job.model.1 job.model.2 (.ofMem buf) a.list).bind
        fun r =>
          let left := a.jobs.eraseIdx index
          if r.1 = Err.succ then
            (tslStorageSave c job.devSn.toCString job.model buf a.kv).map fun saved =>
              ⟨r.2, saved.2, left⟩
          else some ⟨r.2, a.kv, left⟩

/-! ## Sequences of calls -/

/-- The adapter beside what happened: the type and version that each serial was last
registered with, and the texts that were downloaded. -/
structure Tracked where
  adapter : Adapter
  last : CString → Option DevModel
  downloads : List (DevModel × CString)

/-- A device that starts for the first time. -/
def Tracked.start (kv : Store) : Tracked := ⟨⟨[], kv, []⟩, fun _ => none, []⟩

inductive AdapterCall
  | reg (devSn : CString) (model : DevModel)
  | unreg (devSn : CString)
  | downloaded (index : Nat) (buf : Bytes)
  | restart

def Tracked.step (s : Tracked) : AdapterCall → Option Tracked
  | .reg devSn model =>
      (tslAdapterAdd c p strong devSn model s.adapter).map fun r =>
        { s with adapter := r.2, last := Function.update s.last devSn (some model) }
  | .unreg devSn => some { s with adapter := tslAdapterDel devSn s.adapter }
  | .downloaded index buf =>
      match s.adapter.jobs[index]? with
      | none => none
      | some job =>
          (profileDownloaded c p strong index buf s.adapter).map fun a =>
            { s with adapter := a, downloads := (job.model, .ofMem buf) :: s.downloads }
  | .restart => some { s with adapter := { s.adapter with list := [], jobs := [] } }

/-- The text of every capacity that is found was downloaded for the type and version
that its serial was last registered with. -/
def ProfilesOwn (s : Tracked) : Prop :=
  ∀ devSn n, profileFindBySn devSn s.adapter.list = some n →
    ∃ model, s.last devSn = some model ∧ (model, n.profile) ∈ s.downloads

/-- Nothing is left of a serial: no capacity, no stored profile and no job. -/
structure Unused (devSn : CString) (a : Adapter) : Prop where
  list : tslProfileCheck devSn a.list = false
  kv : ∀ buf, tslStorageLoad c devSn a.kv ≠ some (.ok buf)
  jobs : ∀ job ∈ a.jobs, job.devSn.toCString ≠ devSn

/-- A registration that fits the fields, with a model that the handles tell from the
others, the one that the serial had unless nothing is left of it. A capacity is joined
where a device of that model is. -/
structure KeepsModel (s : Tracked) (devSn : CString) (model : DevModel) : Prop where
  known : model ∈ known
  fits : devSn.length ≤ 47 ∧ model.1.length ≤ 23 ∧ model.2.length ≤ 35
  same : s.last devSn = some model ∨ Unused c devSn s.adapter
  joined : tslProfileCheck devSn s.adapter.list = false →
    ∀ n, s.adapter.list.find? (NodeCapacity.isFor model.1 model.2) = some n →
      ∃ x ∈ n.devList, s.last x.toCString = some model

def RegKeepsModel (s : Tracked) : AdapterCall → Prop
  | .reg devSn model => KeepsModel c s devSn model
  | _ => True

/-! ## The storage

What a handle keeps was downloaded for the model of the handle. A profile that another
device took away leaves an empty text, which no parser accepts.
-/

variable {c p strong}

/-- The index lists these entries, and the profiles that are there were downloaded for
them. -/
structure Filed (c : StorageConfig known) (downloads : List (DevModel × CString)) (kv : Store)
    (entries : List (TslEntry known)) : Prop extends Listed c kv entries where
  profiles : ∀ e ∈ entries, ∀ buf, kv (c.handles.index e.model).toCString = some buf →
    (e.model.1, .ofMem buf) ∈ downloads ∧ buf.length ≤ c.profileSize

section Filed

variable {downloads : List (DevModel × CString)} {kv : Store} {entries : List (TslEntry known)}
  {devSn : CString}

theorem Filed.mono {downloads' : List (DevModel × CString)} (h : Filed c downloads kv entries)
    (hsub : downloads ⊆ downloads') : Filed c downloads' kv entries :=
  ⟨h.toListed, fun e he buf hbuf => ⟨hsub (h.profiles e he buf hbuf).1, (h.profiles e he buf hbuf).2⟩⟩

/-- What is loaded belongs to an entry of the serial. -/
theorem Filed.load (h : Filed c downloads kv entries) {buf : Bytes}
    (hload : tslStorageLoad c devSn kv = some (.ok buf)) :
    ∃ e ∈ entries, e.isOf devSn = true ∧ (buf = [] ∨ (e.model.1, CString.ofMem buf) ∈ downloads) := by
  rw [h.toListed.load devSn] at hload
  cases hfind : entries.find? (TslEntry.isOf devSn) with
  | none =>
      rw [hfind] at hload
      cases hload
  | some e =>
      rw [hfind] at hload
      cases hload
      have he := List.mem_of_find?_eq_some hfind
      refine ⟨e, he, List.find?_some hfind, ?_⟩
      cases hstored : kv (c.handles.index e.model).toCString with
      | none =>
          left
          rw [Store.rawGet, Store.value_of_eq_none hstored, List.take_nil]
      | some text =>
          obtain ⟨hdown, hsize⟩ := h.profiles e he text hstored
          have hread := Store.value_of_eq_some hstored
          right
          rw [Store.rawGet_rawLength (by rwa [hread]), hread]
          exact hdown

theorem unused_of_forall (h : Listed c kv entries) {a : Adapter} (hkv : a.kv = kv)
    (hunused : Unused c devSn a) : ∀ e ∈ entries, e.isOf devSn = false := by
  intro e he
  refine Bool.eq_false_iff.mpr fun hself => ?_
  cases hfind : entries.find? (TslEntry.isOf devSn) with
  | none => exact List.find?_eq_none.mp hfind e he hself
  | some x =>
      have hload := h.load devSn
      rw [hfind, ← hkv] at hload
      exact hunused.kv _ hload

theorem Filed.rawSet {model : known} {buf : Bytes} (hlisted : Listed c kv entries)
    (hdown : (model.1, CString.ofMem buf) ∈ downloads) (hsize : buf.length ≤ c.profileSize)
    (hothers : ∀ e ∈ entries, e.model ≠ model → ∀ text,
      kv (c.handles.index e.model).toCString = some text →
        (e.model.1, .ofMem text) ∈ downloads ∧ text.length ≤ c.profileSize) :
    Filed c downloads (kv.rawSet (c.handles.index model).toCString buf) entries := by
  have hkey : (kv.rawSet (c.handles.index model).toCString buf) tslmapKey = kv tslmapKey :=
    Store.rawSet_of_ne (index_ne_tslmapKey model.1).symm
  refine ⟨⟨?_, ?_⟩, fun e he text htext => ?_⟩
  · rw [hkey]
    exact hlisted.tslmap
  · rw [Store.value, hkey]
    exact hlisted.mapFits
  · by_cases hsame : e.model = model
    · rw [hsame, Store.rawSet_self, Option.some_inj] at htext
      rw [hsame, ← htext]
      exact ⟨hdown, hsize⟩
    · rw [Store.rawSet_of_ne (index_ne hsame)] at htext
      exact hothers e he hsame text htext

/-- A serial that is not in the index gets an entry, unless the index would not fit. -/
theorem Filed.saveNew {model : known} {sn : CField 48} {buf : Bytes} {r : Int × Store}
    (h : Filed c downloads kv entries) (hdown : (model.1, CString.ofMem buf) ∈ downloads)
    (hsize : buf.length ≤ c.profileSize)
    (hsave : saveIndexed c sn.toCString (c.handles.index model) buf
      (entries.map (TslEntry.toJson c)) none kv = some r) :
    ∃ entries', Filed c downloads r.2 entries' ∧ ∀ e ∈ entries', e ∈ entries ∨ e = ⟨sn, model⟩ := by
  rw [saveIndexed_new, CField.strncpy_toCString] at hsave
  dsimp only at hsave
  split at hsave
  next =>
    cases hsave
    exact ⟨entries, h, fun e he => .inl he⟩
  next hfits =>
    cases hsave
    refine ⟨entries ++ [⟨sn, model⟩], Filed.rawSet ⟨.inl Store.rawSet_self, ?_⟩ hdown hsize
      fun e he hne text htext => ?_, fun e he => ?_⟩
    · rw [Store.value_of_eq_some Store.rawSet_self]
      exact Nat.le_of_not_lt hfits
    · rw [Store.rawSet_of_ne (index_ne_tslmapKey (c := c) e.model.1)] at htext
      rcases List.mem_append.mp he with hold | hfresh
      · exact h.profiles e hold text htext
      · rw [List.mem_singleton.mp hfresh] at hne
        exact absurd rfl hne
    · exact (List.mem_append.mp he).imp_right List.mem_singleton.mp

/-- Whatever comes of saving, what is stored stays with the models it is of. -/
theorem Filed.save (model : known) {sn : CField 48} {buf : Bytes} {r : Int × Store}
    (h : Filed c downloads kv entries) (hdown : (model.1, CString.ofMem buf) ∈ downloads)
    (hsame : ∀ e ∈ entries, e.isOf sn.toCString = true → e.model = model)
    (hsave : tslStorageSave c sn.toCString model buf kv = some r) :
    ∃ entries', Filed c downloads r.2 entries' ∧ ∀ e ∈ entries', e ∈ entries ∨ e = ⟨sn, model⟩ := by
  unfold tslStorageSave at hsave
  split at hsave
  next =>
    cases hsave
    exact ⟨entries, h, fun e he => .inl he⟩
  next hlen =>
    have hsize := Nat.le_of_not_lt hlen
    by_cases hnil : kv.value tslmapKey = []
    · obtain ⟨rfl, hnone⟩ := h.toListed.eq_nil hnil
      have hcleared : (kv.delByPrefix (ascii "tslpf")) tslmapKey = none := by
        unfold Store.delByPrefix
        split
        · rfl
        · exact hnone
      have hempty : Filed c downloads (kv.delByPrefix (ascii "tslpf")) [] :=
        ⟨⟨.inr ⟨rfl, hcleared⟩, by simp [Store.value_of_eq_none hcleared]⟩,
          fun e he => absurd he List.not_mem_nil⟩
      simp only [Store.rawLength_eq_zero hnil, if_true] at hsave
      exact hempty.saveNew hdown hsize hsave
    · simp only [Store.rawLength_ne_zero hnil, if_false, Store.rawGet_rawLength h.mapFits,
        h.toListed.parse hnil, findDevBySn_map] at hsave
      cases hfind : entries.findIdx? (TslEntry.isOf sn.toCString) with
      | none =>
          rw [hfind] at hsave
          exact h.saveNew hdown hsize hsave
      | some i =>
          rw [hfind] at hsave
          rcases findIdx?_eq_some_split hfind with ⟨pre, e, post, rfl, rfl, he, -⟩
          -- the handle is the same, so the index stays as it is
          rw [saveIndexed_same (hsame e List.mem_append_cons_self he)] at hsave
          cases hsave
          exact ⟨_, Filed.rawSet h.toListed hdown hsize fun x hx _ => h.profiles x hx,
            fun x hx => .inl hx⟩

end Filed

/-! ## The invariant -/

/-- Everything that is kept for a serial is of the model it was last registered with. -/
structure Tracked.Inv (c : StorageConfig known) (s : Tracked) (entries : List (TslEntry known)) :
    Prop where
  list : ∀ n ∈ s.adapter.list, ∀ x ∈ n.devList,
    ∃ model, s.last x.toCString = some model ∧ (model, n.profile) ∈ s.downloads
  jobs : ∀ job ∈ s.adapter.jobs, s.last job.devSn.toCString = some job.model ∧ job.model ∈ known
  filed : Filed c s.downloads s.adapter.kv entries
  entries : ∀ e ∈ entries, s.last e.sn.toCString = some e.model.1

section Invariant

variable {s s' : Tracked} {entries : List (TslEntry known)}

theorem Tracked.Inv.own (h : s.Inv c entries) : ProfilesOwn s := by
  intro devSn n hfind
  have hholds := holds_iff.mp (List.find?_some hfind)
  obtain ⟨x, hx, rfl⟩ := List.mem_map.mp hholds
  exact h.list n (List.mem_of_find?_eq_some hfind) x hx

theorem Tracked.Inv.noted (h : s.Inv c entries) {devSn : CString} {model : DevModel}
    (hsame : s.last devSn = some model ∨ Unused c devSn s.adapter) :
    ({ s with last := Function.update s.last devSn (some model) } : Tracked).Inv c entries := by
  rcases hsame with hlast | hunused
  · rw [← hlast, Function.update_eq_self]
    exact h
  · have hfree : ∀ sn, sn ≠ devSn → Function.update s.last devSn (some model) sn = s.last sn :=
      fun sn hne => Function.update_of_ne hne ..
    refine ⟨fun n hn x hx => ?_, fun job hjob => ?_, h.filed, fun e he => ?_⟩
    · have hne : x.toCString ≠ devSn := by
        rintro rfl
        have hcheck : tslProfileCheck x.toCString s.adapter.list = true :=
          tslProfileCheck_iff.mpr (mem_serials.mpr ⟨n, hn, List.mem_map_of_mem hx⟩)
        exact Bool.noConfusion (hcheck.symm.trans hunused.list)
      obtain ⟨m, hlast, hdown⟩ := h.list n hn x hx
      exact ⟨m, (hfree _ hne).trans hlast, hdown⟩
    · obtain ⟨hlast, hknown⟩ := h.jobs job hjob
      exact ⟨(hfree _ (hunused.jobs job hjob)).trans hlast, hknown⟩
    · have hnot := unused_of_forall h.filed.toListed rfl hunused e he
      have hne : e.sn.toCString ≠ devSn := fun heq =>
        Bool.noConfusion (hnot.symm.trans (isOf_iff.mpr heq))
      exact (hfree _ hne).trans (h.entries e he)

/-- A capacity for a registered serial, made of a text that was downloaded for it. -/
theorem Tracked.Inv.add_capacity (h : s.Inv c entries) {devSn : CString} {model : DevModel}
    {capacity : Capacity} {profile : CString} (hfits : devSn.length ≤ 47)
    (hlast : s.last devSn = some model) (hdown : (model, profile) ∈ s.downloads) :
    ∀ n ∈ s.adapter.list ++ [profileRefAdd devSn ⟨capacity, [], profile⟩], ∀ x ∈ n.devList,
      ∃ m, s.last x.toCString = some m ∧ (m, n.profile) ∈ s.downloads := by
  intro n hn x hx
  rcases List.mem_append.mp hn with hold | hfresh
  · exact h.list n hold x hx
  · obtain rfl := List.mem_singleton.mp hfresh
    obtain rfl := List.mem_singleton.mp hx
    rw [CField.strncpy_of_fits hfits]
    exact ⟨model, hlast, hdown⟩

/-- A serial joins a capacity that another one of its model has. -/
theorem Tracked.Inv.join (h : s.Inv c entries) {devSn : CString} {model : DevModel}
    (hlast : s.last devSn = some model) (hfits : devSn.length ≤ 47)
    (hjoined : ∀ n, s.adapter.list.find? (NodeCapacity.isFor model.1 model.2) = some n →
      ∃ x ∈ n.devList, s.last x.toCString = some model) :
    ∀ n ∈ (tslProfileRefAdd devSn model.1 model.2 s.adapter.list).2, ∀ x ∈ n.devList,
      ∃ m, s.last x.toCString = some m ∧ (m, n.profile) ∈ s.downloads := by
  intro n hn x hx
  rcases Slots.mem_modifyFirst hn with hold | ⟨m, hfind, rfl⟩
  · exact h.list n hold x hx
  · obtain ⟨y, hy, hylast⟩ := hjoined m hfind
    have hm := List.mem_of_find?_eq_some hfind
    obtain ⟨m', hm', hdown⟩ := h.list m hm y hy
    obtain rfl : model = m' := Option.some.inj (hylast.symm.trans hm')
    rcases List.mem_append.mp hx with hx | hx
    · exact h.list m hm x hx
    · obtain rfl := List.mem_singleton.mp hx
      rw [CField.strncpy_of_fits hfits]
      exact ⟨model, hlast, hdown⟩

/-- The job for a serial is for its model. -/
theorem Tracked.Inv.addJob (h : s.Inv c entries) {devSn : CString} {model : DevModel}
    (hlast : s.last devSn = some model) (hknown : model ∈ known)
    (hfits : devSn.length ≤ 47 ∧ model.1.length ≤ 23 ∧ model.2.length ≤ 35) :
    ∀ job ∈ tslAdapterQueryJobAdd devSn model s.adapter.jobs,
      s.last job.devSn.toCString = some job.model ∧ job.model ∈ known := by
  intro job hjob
  rcases List.mem_append.mp hjob with hold | hfresh
  · exact h.jobs job hold
  · obtain rfl := List.mem_singleton.mp hfresh
    have hmodel : QueryInfo.model ⟨.strncpy devSn, .strncpy model.1, .strncpy model.2⟩ = model := by
      rw [QueryInfo.model, CField.strncpy_of_fits hfits.2.1, CField.strncpy_of_fits hfits.2.2]
    rw [hmodel, CField.strncpy_of_fits hfits.1]
    exact ⟨hlast, hknown⟩

/-- Adding a serial whose model is noted. -/
theorem Tracked.Inv.add (h : s.Inv c entries) {devSn : CString} {model : DevModel}
    {r : Int × Adapter} (hlast : s.last devSn = some model) (hknown : model ∈ known)
    (hfits : devSn.length ≤ 47 ∧ model.1.length ≤ 23 ∧ model.2.length ≤ 35)
    (hjoined : tslProfileCheck devSn s.adapter.list = false →
      ∀ n, s.adapter.list.find? (NodeCapacity.isFor model.1 model.2) = some n →
        ∃ x ∈ n.devList, s.last x.toCString = some model)
    (hadd : tslAdapterAdd c p strong devSn model s.adapter = some r) :
    ({ s with adapter := r.2 } : Tracked).Inv c entries := by
  unfold tslAdapterAdd at hadd
  split at hadd
  next =>
    cases hadd
    exact h
  next hcheck =>
    dsimp only at hadd
    split at hadd
    next =>
      cases hadd
      exact ⟨h.join hlast hfits.1 (hjoined (Bool.eq_false_iff.mpr hcheck)), h.jobs, h.filed,
        h.entries⟩
    next =>
      split at hadd
      next => cases hadd
      next buf hload =>
        obtain ⟨reg, hreg, rfl⟩ := Option.map_eq_some_iff.mp hadd
        rcases tslProfileReg_cases hreg with ⟨resource, hparse, rfl⟩ | ⟨rv, -, rfl⟩
        · refine ⟨h.add_capacity hfits.1 hlast ?_, h.jobs, h.filed, h.entries⟩
          obtain ⟨e, he, hself, hdown⟩ := h.filed.load hload
          have helast := h.entries e he
          rw [isOf_iff.mp hself, hlast, Option.some_inj] at helast
          rcases hdown with rfl | hdown
          · rw [profileParse_nil] at hparse
            cases hparse
          · rwa [helast]
        · exact h
      next rv hload =>
        split at hadd
        next =>
          cases hadd
          exact ⟨h.list, h.addJob hlast hknown hfits, h.filed, h.entries⟩
        next =>
          cases hadd
          exact h

theorem Tracked.Inv.downloaded (h : s.Inv c entries) {index : Nat} {job : QueryInfo} {buf : Bytes}
    {a : Adapter} (hjob : s.adapter.jobs[index]? = some job)
    (hdone : profileDownloaded c p strong index buf s.adapter = some a) :
    ∃ entries', ({ s with adapter := a, downloads := (job.model, .ofMem buf) :: s.downloads } :
      Tracked).Inv c entries' := by
  obtain ⟨hlast, hknown⟩ := h.jobs job (List.mem_of_getElem? hjob)
  have hsub : s.downloads ⊆ (job.model, .ofMem buf) :: s.downloads := List.subset_cons_self ..
  have hlist : ∀ n ∈ s.adapter.list, ∀ x ∈ n.devList, ∃ m, s.last x.toCString = some m ∧
      (m, n.profile) ∈ (job.model, CString.ofMem buf) :: s.downloads := by
    intro n hn x hx
    obtain ⟨m, hm, hdown⟩ := h.list n hn x hx
    exact ⟨m, hm, hsub hdown⟩
  have hleft : ∀ job' ∈ s.adapter.jobs.eraseIdx index,
      s.last job'.devSn.toCString = some job'.model ∧ job'.model ∈ known :=
    fun job' hmem => h.jobs job' (List.mem_of_mem_eraseIdx hmem)
  unfold profileDownloaded at hdone
  rw [hjob] at hdone
  obtain ⟨reg, hreg, hsaved⟩ := Option.bind_eq_some_iff.mp hdone
  rcases tslProfileReg_cases hreg with ⟨resource, -, rfl⟩ | ⟨rv, hparse, rfl⟩
  · simp only [if_true] at hsaved
    obtain ⟨saved, hsave, rfl⟩ := Option.map_eq_some_iff.mp hsaved
    obtain ⟨entries', hfiled, hentries⟩ := (h.filed.mono hsub).save ⟨job.model, hknown⟩
      List.mem_cons_self (fun e he hself => by
        have helast := h.entries e he
        rw [isOf_iff.mp hself, hlast, Option.some_inj] at helast
        exact Subtype.ext helast.symm) hsave
    refine ⟨entries', fun n hn x hx => ?_, hleft, hfiled, fun e he => ?_⟩
    · rcases List.mem_append.mp hn with hold | hfresh
      · exact hlist n hold x hx
      · obtain rfl := List.mem_singleton.mp hfresh
        obtain rfl := List.mem_singleton.mp hx
        rw [CField.strncpy_toCString]
        exact ⟨job.model, hlast, List.mem_cons_self⟩
    · rcases hentries e he with hold | rfl
      · exact h.entries e hold
      · exact hlast
  · have hrv : rv ≠ Err.succ := by
      rintro rfl
      exact profileParse_ne_succ hparse
    rw [if_neg hrv] at hsaved
    cases hsaved
    exact ⟨entries, hlist, hleft, h.filed.mono hsub, h.entries⟩

theorem Tracked.Inv.step (h : s.Inv c entries) {call : AdapterCall}
    (hkeeps : RegKeepsModel c s call) (hstep : s.step c p strong call = some s') :
    ∃ entries', s'.Inv c entries' := by
  cases call with
  | reg devSn model =>
      obtain ⟨r, hadd, rfl⟩ := Option.map_eq_some_iff.mp hstep
      have hnoted := h.noted hkeeps.same
      refine ⟨entries, hnoted.add (Function.update_self ..) hkeeps.known hkeeps.fits
        (fun hcheck n hfind => ?_) hadd⟩
      obtain ⟨x, hx, hlast⟩ := hkeeps.joined hcheck n hfind
      refine ⟨x, hx, ?_⟩
      by_cases hsn : x.toCString = devSn
      · rw [hsn]
        exact Function.update_self ..
      · exact (Function.update_of_ne hsn ..).trans hlast
  | unreg devSn =>
      cases hstep
      unfold tslAdapterDel
      split
      next =>
        refine ⟨entries, fun n hn x hx => ?_, h.jobs, h.filed, h.entries⟩
        obtain ⟨m, hm, -, hprofile, hsub, -⟩ := mem_tslProfileRefDel hn
        rw [hprofile]
        exact h.list m hm x (hsub x hx)
      next => exact ⟨entries, h⟩
  | downloaded index buf =>
      rw [Tracked.step] at hstep
      split at hstep
      next => cases hstep
      next job hjob =>
        obtain ⟨a, hdone, rfl⟩ := Option.map_eq_some_iff.mp hstep
        exact h.downloaded hjob hdone
  | restart =>
      cases hstep
      exact ⟨entries, fun n hn => absurd hn List.not_mem_nil,
        fun job hjob => absurd hjob List.not_mem_nil, h.filed, h.entries⟩

/-- As long as every registration keeps the model of its serial, no capacity has the
profile of another model. -/
theorem profiles_own {kv : Store} (hnew : kv tslmapKey = none)
    (h : Reach (Tracked.step c p strong) (RegKeepsModel c) (.start kv) s) : ProfilesOwn s := by
  obtain ⟨entries, hinv⟩ := h.invariant (I := fun s => ∃ entries, s.Inv c entries)
    ⟨[], fun n hn => absurd hn List.not_mem_nil, fun job hjob => absurd hjob List.not_mem_nil,
      ⟨⟨.inr ⟨rfl, hnew⟩, by simp [Tracked.start, Store.value_of_eq_none hnew]⟩,
        fun e he => absurd he List.not_mem_nil⟩, fun e he => absurd he List.not_mem_nil⟩
    fun s call s' hs hkeeps hstep => by
      obtain ⟨entries, hs⟩ := hs
      exact hs.step hkeeps hstep
  exact hinv.own

end Invariant

end Steps

/-! ### A device and its upgrade -/

def versionModel (version : String) : DevModel := (.lit "T", .lit version)

/-- Handles that tell two versions apart. -/
def versionStorage : StorageConfig {versionModel "V1", versionModel "V2"} where
  mapSize := 4096
  profileSize := 8192
  printNumber _ := []
  handles :=
    { index m := .strncpy (.lit (if m.2 = .lit "V1" then "tslpf_1" else "tslpf_2"))
      tslpf m := by
        by_cases h : m.2 = .lit "V1"
        · rw [if_pos h]
          decide
        · rw [if_neg h]
          decide
      injOn := by
        rintro _ (rfl | rfl) _ (rfl | rfl) h
        · rfl
        · exact absurd h (by decide)
        · exact absurd h (by decide)
        · rfl }

def sampleStart : Tracked := .start fun _ => none

def sampleInstall : List AdapterCall :=
  [.reg (.lit "D1") (versionModel "V1"), .downloaded 0 (sampleProfile "[\"1\"]").val]

def sampleUpgrade : List AdapterCall :=
  sampleInstall ++ [.restart, .reg (.lit "D1") (versionModel "V2")]

/-- A device is registered and its profile is downloaded. -/
theorem profiles_own_installed : ∃ s : Tracked,
    (profileFindBySn (.lit "D1") s.adapter.list).isSome = true ∧ ProfilesOwn s := by
  have hrun : ((sampleInstall.foldlM (Tracked.step versionStorage allocating false) sampleStart).map
      fun s => (profileFindBySn (.lit "D1") s.adapter.list).isSome) = some true := by decide +kernel
  obtain ⟨s, hs, hfound⟩ := Option.map_eq_some_iff.mp hrun
  obtain ⟨t, hreg, hrest⟩ := foldlM_cons_eq_some.mp hs
  obtain ⟨u, hdone, hend⟩ := foldlM_cons_eq_some.mp hrest
  cases hend
  have hkeeps : RegKeepsModel versionStorage sampleStart
      (.reg (.lit "D1") (versionModel "V1")) := by
    refine ⟨.inl rfl, by decide, .inr ⟨rfl, fun buf hload => ?_, fun job hjob => ?_⟩, ?_⟩
    · have hnone : (tslStorageLoad versionStorage (.lit "D1") sampleStart.adapter.kv).bind
          Except.toOption = none := by decide +kernel
      rw [hload] at hnone
      cases hnone
    · exact absurd hjob List.not_mem_nil
    · intro _ n hfind
      cases hfind
  have hfirst := Reach.start.next hkeeps hreg
  exact ⟨s, hfound, profiles_own rfl (hfirst.next (i := .downloaded 0 _) trivial hdone)⟩

/-- After an upgrade and a restart, the device gets the profile of its old version. -/
theorem upgraded_not_own : ∃ s,
    Reach (Tracked.step versionStorage allocating false) (fun _ _ => True) sampleStart s ∧
      ¬ ProfilesOwn s := by
  have hrun : ((sampleUpgrade.foldlM (Tracked.step versionStorage allocating false)
      sampleStart).map fun s =>
        ((profileFindBySn (.lit "D1") s.adapter.list).isSome, s.last (.lit "D1"),
          s.downloads.map Prod.fst)) =
      some (true, some (versionModel "V2"), [versionModel "V1"]) := by decide +kernel
  obtain ⟨s, hs, hend⟩ := Option.map_eq_some_iff.mp hrun
  simp only [Prod.mk.injEq] at hend
  obtain ⟨hfound, hlast, hdowns⟩ := hend
  refine ⟨s, Reach.of_foldlM hs, fun hown => ?_⟩
  obtain ⟨n, hn⟩ := Option.isSome_iff_exists.mp hfound
  obtain ⟨model, hmodel, hdown⟩ := hown _ n hn
  obtain rfl := Option.some.inj (hlast.symm.trans hmodel)
  have hmem : versionModel "V2" ∈ s.downloads.map Prod.fst := List.mem_map_of_mem hdown
  rw [hdowns] at hmem
  exact absurd hmem (by decide)

end EzIot.Tsl
