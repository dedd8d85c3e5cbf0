import EzIot.Hub.AuthSerial

/-! # Enumerating the sub-devices

`hub_subdev_next` has no cursor but the record itself: it looks for the serial that the
last call left there, and returns the device behind it. An empty serial stands for the
beginning. The timer that asks for authentications again goes through the list with it.
-/

namespace EzIot.Hub

open CText CJson Kv Run

/-! ## The functions -/

/-- What the functions of the hub return: the errors of the list, `EZ_HUB_ERR_ENUM_END` and
`EZ_HUB_ERR_INTERNAL`. -/
inductive HubRv
  | rv (rv : HubErr)
  | enumEnd
  | internal
deriving DecidableEq

/-- A zeroed record. -/
def SubdevInfo.zero : SubdevInfo :=
  ⟨0, .strncpy (.lit ""), .strncpy (.lit ""), .strncpy (.lit ""), .strncpy (.lit ""),
    .strncpy (.lit ""), 0, 0⟩

/-- `find_dev_by_sn` without a serial: the first element that has one. -/
def findFirstDev (items : List Value) : Option Nat :=
  items.findIdx? fun item => (item.getObjectItem (ascii "sn")).isSome

/-- The end of `hub_subdev_next`: the record is written over as a whole. -/
def loadSubdev (items : List Value) (index : Nat) (record : SubdevInfo) :
    Option (HubRv × SubdevInfo) :=
  match items[index]? with
  | none => some (.rv .subdevNotFound, record)
  | some item => (jsonToSubdev item).map fun d => (.rv .succ, d)

/-- `hub_subdev_next`: the result and the record that is left. There is no result where the
mutex was left locked, or where a text is read from a null pointer. -/
def hubSubdevNext (a : Accesses) (h : Sublist) (record : SubdevInfo) :
    Option (HubRv × SubdevInfo) :=
  if h.locked then none
  else
    match readList a h.kv with
    | .error rv => some (.rv rv, record)
    | .ok none => some (.enumEnd, record)
    | .ok (some root) =>
        if record.sn.val = [] then
          match findFirstDev root.children with
          | none => some (.enumEnd, record)
          | some index => loadSubdev root.children index record
        else
          match findDevBySn record.sn.toCString root.children with
          | none => none
          | some none => some (.enumEnd, record)
          | some (some index) =>
              if root.children.length ≤ index + 1 then some (.enumEnd, record)
              else loadSubdev root.children (index + 1) record

section Loop

variable (md5 : Bytes → Bytes) (p : Printer) (as : Nat → Accesses) (h : Sublist)

/-- The loop of `auth_retry_timer_cb`, at most `fuel` rounds of it from call `n` on: the
requests it sends. There is no result where more rounds are needed or one does not return. The
callback enters it where `0 < g_unauth_count`, and sends nothing otherwise. -/
def authRetryLoop : Nat → Nat → SubdevInfo → Option (List Bytes)
  | 0, _, _ => none
  | fuel + 1, n, record =>
      match hubSubdevNext (as n) h record with
      | none => none
      | some (.enumEnd, _) => some []
      | some (.rv .succ, d) =>
          if d.access = 1 then authRetryLoop fuel (n + 1) d
          else (authRetryLoop fuel (n + 1) d).map (hubSubdevAuthDo md5 p d :: ·)
      | some _ => some []

end Loop

/-! ## What is meant -/

/-- From call `n` on with a record, the calls return these devices one after the other and
then the end. -/
inductive Enumerates (as : Nat → Accesses) (h : Sublist) :
    Nat → SubdevInfo → List SubdevInfo → Prop
  | done {n : Nat} {record d : SubdevInfo} : hubSubdevNext (as n) h record = some (.enumEnd, d) →
      Enumerates as h n record []
  | next {n : Nat} {record d : SubdevInfo} {l : List SubdevInfo} :
      hubSubdevNext (as n) h record = some (.rv .succ, d) → Enumerates as h (n + 1) d l →
      Enumerates as h n record (d :: l)

/-- An enumeration gives the list, and the timer asks for every device that is not
authenticated once. -/
structure EnumSound (md5 : Bytes → Bytes) (p : Printer) (as : Nat → Accesses) (h : Sublist)
    (l : List SubdevInfo) : Prop where
  devices : Enumerates as h 0 .zero l
  requests : ∃ fuel, authRetryLoop md5 p as h fuel 0 .zero =
    some ((l.filter SubdevInfo.unauth).map (hubSubdevAuthDo md5 p))

/-- The list can be read in every call, and no serial is taken for the beginning. -/
structure Enumerable (as : Nat → Accesses) (h : Sublist) (l : List SubdevInfo) : Prop where
  free : h.locked = false
  read : ∀ n, n ≤ l.length → unreadable (as n) h.kv = false
  fits : (h.kv.value hublistKey).length ≤ hubListSize
  named : ∀ d ∈ l, d.sn.val ≠ []

/-! ## A call -/

section Calls

variable {md5 : Bytes → Bytes} {p : Printer} {as : Nat → Accesses} {a : Accesses} {h : Sublist}
  {entries pre rest : List SubdevEntry} {record d : SubdevInfo}

/-- The record is the one that the devices before were read into. -/
def After (pre : List SubdevEntry) (record : SubdevInfo) : Prop :=
  (pre = [] ∧ record.sn.val = []) ∨
    ∃ front e, pre = front ++ [e] ∧ record.sn = e.sn ∧ e.sn.val ≠ []

theorem loadSubdev_entries (pre : List SubdevEntry) (e : SubdevEntry) (rest : List SubdevEntry)
    (record : SubdevInfo) :
    loadSubdev ((pre ++ e :: rest).map SubdevEntry.toJson) pre.length record =
      some (.rv .succ, e.info) := by
  have hitem : ((pre ++ e :: rest).map SubdevEntry.toJson)[pre.length]? = some e.toJson := by simp
  unfold loadSubdev
  rw [hitem]
  simp only [SubdevEntry.jsonToSubdev_toJson, Option.map_some]

theorem findFirstDev_entries (e : SubdevEntry) (rest : List SubdevEntry) :
    findFirstDev ((e :: rest).map SubdevEntry.toJson) = some 0 := by
  have hsn : (e.toJson.getObjectItem (ascii "sn")).isSome = true := rfl
  rw [findFirstDev, List.map_cons, List.findIdx?_cons, hsn]
  rfl

/-- The device of a serial stands where it was read from. -/
theorem Kept.findDevBySn {kv : Store} {e : SubdevEntry} (hk : Kept p kv (pre ++ e :: rest)) :
    Hub.findDevBySn e.sn.toCString ((pre ++ e :: rest).map SubdevEntry.toJson) =
      some (some pre.length) := by
  have hself : e.isOf e.sn.toCString = true := isOf_iff.mpr rfl
  have hpre : ∀ x ∈ pre, x.isOf e.sn.toCString = false := by
    refine fun x hx => Bool.eq_false_iff.mpr fun hother => ?_
    have hpair := (List.pairwise_append.mp (hk.pairwise e.sn.toCString)).2.2 x hx e
      List.mem_cons_self hother
    exact Bool.noConfusion (hpair.symm.trans hself)
  rw [findDevBySn_entries, List.findIdx?_append, List.findIdx?_eq_none_iff.mpr hpre,
    List.findIdx?_cons, hself]
  simp

theorem Listed.next_eq (hl : Listed p h.kv entries) (hfree : h.locked = false)
    (hread : unreadable a h.kv = false) (hne : entries ≠ []) : hubSubdevNext a h record =
      if record.sn.val = [] then
        match findFirstDev (entries.map SubdevEntry.toJson) with
        | none => some (.enumEnd, record)
        | some index => loadSubdev (entries.map SubdevEntry.toJson) index record
      else
        match Hub.findDevBySn record.sn.toCString (entries.map SubdevEntry.toJson) with
        | none => none
        | some none => some (.enumEnd, record)
        | some (some index) =>
            if entries.length ≤ index + 1 then some (.enumEnd, record)
            else loadSubdev (entries.map SubdevEntry.toJson) (index + 1) record := by
  have hvalue : h.kv.value hublistKey ≠ [] := fun hnil => hne (hl.kept.eq_nil hnil)
  unfold hubSubdevNext
  rw [hl.readList hread, if_neg hvalue, hfree]
  simp only [Bool.false_eq_true, if_false, children_array, List.length_map]

/-- The call for the first device; a record without a serial is always one of these. -/
theorem Listed.next_first {e : SubdevEntry} (hl : Listed p h.kv (e :: rest))
    (hfree : h.locked = false) (hread : unreadable a h.kv = false) (hstart : record.sn.val = []) :
    hubSubdevNext a h record = some (.rv .succ, e.info) := by
  rw [hl.next_eq hfree hread (List.cons_ne_nil _ _), if_pos hstart, findFirstDev_entries]
  exact loadSubdev_entries [] e rest record

theorem Listed.next_behind {front : List SubdevEntry} {e e' : SubdevEntry}
    (hl : Listed p h.kv (front ++ e :: e' :: rest)) (hfree : h.locked = false)
    (hread : unreadable a h.kv = false) (hsn : record.sn = e.sn) (hne : e.sn.val ≠ []) :
    hubSubdevNext a h record = some (.rv .succ, e'.info) := by
  have hmore : ¬ (front ++ e :: e' :: rest).length ≤ front.length + 1 := by
    simp only [List.length_append, List.length_cons]
    omega
  have hload := loadSubdev_entries (front ++ [e]) e' rest record
  rw [List.append_assoc, List.singleton_append, List.length_append, List.length_singleton] at hload
  rw [hl.next_eq hfree hread (by simp), hsn, if_neg hne, hl.kept.findDevBySn]
  simp only [if_neg hmore, hload]

theorem Listed.next_last {front : List SubdevEntry} {e : SubdevEntry}
    (hl : Listed p h.kv (front ++ [e])) (hfree : h.locked = false)
    (hread : unreadable a h.kv = false) (hsn : record.sn = e.sn) (hne : e.sn.val ≠ []) :
    hubSubdevNext a h record = some (.enumEnd, record) := by
  have hlast : (front ++ [e]).length ≤ front.length + 1 := by simp
  rw [hl.next_eq hfree hread (by simp), hsn, if_neg hne, hl.kept.findDevBySn]
  simp only [if_pos hlast]

theorem Listed.next_nil (hl : Listed p h.kv []) (hfree : h.locked = false)
    (hread : unreadable a h.kv = false) : hubSubdevNext a h record = some (.enumEnd, record) := by
  unfold hubSubdevNext
  rw [hl.readList hread, hfree]
  by_cases hnil : h.kv.value hublistKey = []
  · rw [if_pos hnil]
    rfl
  · rw [if_neg hnil]
    simp only [Bool.false_eq_true, if_false, children_array, List.map_nil]
    split <;> rfl

/-! ## The enumeration -/

/-- Where every call can read the list, the devices that are left come one by one. -/
theorem Listed.enumerates (hl : Listed p h.kv entries) (hfree : h.locked = false)
    (hread : ∀ n, n ≤ entries.length → unreadable (as n) h.kv = false)
    (hnamed : ∀ e ∈ entries, e.sn.val ≠ []) (hsplit : entries = pre ++ rest)
    (hafter : After pre record) :
    Enumerates as h pre.length record (rest.map SubdevEntry.info) := by
  have hlength := congrArg List.length hsplit
  rw [List.length_append] at hlength
  induction rest generalizing pre record with
  | nil =>
      rw [List.append_nil] at hsplit
      subst hsplit
      refine .done (d := record) ?_
      rcases hafter with ⟨rfl, -⟩ | ⟨front, e, rfl, hsn, hne⟩
      · exact hl.next_nil hfree (hread _ (by omega))
      · exact hl.next_last hfree (hread _ (by omega)) hsn hne
  | cons e rest ih =>
      have hnext : hubSubdevNext (as pre.length) h record = some (.rv .succ, e.info) := by
        rcases hafter with ⟨rfl, hstart⟩ | ⟨front, e', rfl, hsn, hne⟩
        · exact (hsplit ▸ hl).next_first hfree (hread _ (by omega)) hstart
        · rw [List.append_assoc, List.singleton_append] at hsplit
          exact (hsplit ▸ hl).next_behind hfree (hread _ (by omega)) hsn hne
      have hmem : e ∈ entries := hsplit ▸ List.mem_append_right pre List.mem_cons_self
      have hsplit' : entries = (pre ++ [e]) ++ rest := by simp [hsplit]
      have hafter' : After (pre ++ [e]) e.info := .inr ⟨pre, e, rfl, rfl, hnamed e hmem⟩
      have hrest := ih hsplit' hafter' (by simp at hlength ⊢; omega)
      rw [List.length_append, List.length_singleton] at hrest
      exact .next hnext hrest

theorem Enumerates.loop {n : Nat} {l : List SubdevInfo} (henum : Enumerates as h n record l) :
    authRetryLoop md5 p as h (l.length + 1) n record =
      some ((l.filter fun d => !decide (d.access = 1)).map (hubSubdevAuthDo md5 p)) := by
  induction henum with
  | done hcall =>
      rw [List.length_nil, authRetryLoop, hcall]
      rfl
  | @next n record d l hcall _ ih =>
      rw [List.length_cons, authRetryLoop, hcall]
      by_cases hpassed : d.access = 1
      · simp [hpassed, ih]
      · simp [hpassed, ih]

/-! ## Where it goes wrong -/

/-- An enumeration begins with a call that returns a device or the end. -/
theorem Enumerates.first {n : Nat} {l : List SubdevInfo} (henum : Enumerates as h n record l) :
    ∃ rv d, hubSubdevNext (as n) h record = some (rv, d) ∧ (rv = .enumEnd ∨ rv = .rv .succ) := by
  cases henum with
  | done hcall => exact ⟨_, _, hcall, .inl rfl⟩
  | next hcall _ => exact ⟨_, _, hcall, .inr rfl⟩

/-- A call whose list cannot be read returns an error. -/
theorem hubSubdevNext_of_error {rv : HubErr} (hfree : h.locked = false)
    (hread : readList a h.kv = .error rv) : hubSubdevNext a h record = some (.rv rv, record) := by
  unfold hubSubdevNext
  rw [hread, hfree]
  rfl

theorem Enumerates.readable_first {n : Nat} {l : List SubdevInfo} (hfree : h.locked = false)
    (henum : Enumerates as h n record l) : unreadable (as n) h.kv = false := by
  obtain ⟨rv, d, hcall, hrv⟩ := henum.first
  refine Bool.eq_false_iff.mpr fun hbad => ?_
  rw [hubSubdevNext_of_error hfree (readList_unreadable hbad)] at hcall
  cases hcall
  rcases hrv with hrv | hrv <;> cases hrv

theorem Enumerates.readable {n : Nat} {l : List SubdevInfo} (hfree : h.locked = false)
    (henum : Enumerates as h n record l) :
    ∀ k, k ≤ l.length → unreadable (as (n + k)) h.kv = false := by
  induction henum with
  | done hcall =>
      intro k hk
      rw [Nat.le_zero.mp hk]
      exact (Enumerates.done hcall).readable_first hfree
  | next hcall hrest ih =>
      intro k hk
      cases k with
      | zero => exact (Enumerates.next hcall hrest).readable_first hfree
      | succ k =>
          have hstep := ih k (Nat.le_of_succ_le_succ hk)
          rwa [Nat.add_assoc, Nat.add_comm 1 k] at hstep

/-- Its list could be read as a whole. -/
theorem Enumerates.fits {n : Nat} {l : List SubdevInfo} (hk : Kept p h.kv entries)
    (hfree : h.locked = false) (henum : Enumerates as h n record l) :
    (h.kv.value hublistKey).length ≤ hubListSize := by
  by_contra hlong
  obtain ⟨rv, hrv, hread⟩ := readList_truncated hk (Nat.lt_of_not_le hlong) (as n)
  obtain ⟨rv', d, hcall, hreturn⟩ := henum.first
  rw [hubSubdevNext_of_error hfree hread] at hcall
  cases hcall
  rcases hreturn with hreturn | hreturn
  · cases hreturn
  · exact hrv (HubRv.rv.inj hreturn)

/-- Behind a device without a serial the enumeration would begin again. -/
theorem Listed.named_of_enumerates (hl : Listed p h.kv entries) (hfree : h.locked = false)
    (hread : ∀ n, n ≤ entries.length → unreadable (as n) h.kv = false)
    (hsplit : entries = pre ++ rest)
    (henum : Enumerates as h pre.length record (rest.map SubdevEntry.info)) :
    ∀ e ∈ rest, e.sn.val ≠ [] := by
  induction rest generalizing pre record with
  | nil => exact fun e he => absurd he List.not_mem_nil
  | cons e rest ih =>
      have hlength : pre.length + 1 ≤ entries.length := by
        rw [hsplit, List.length_append, List.length_cons]
        omega
      rw [List.map_cons] at henum
      cases henum with
      | next _ hrest =>
          have hhead : e.sn.val ≠ [] := by
            intro hempty
            obtain ⟨first, others, hfirst⟩ : ∃ first others, pre ++ [e] = first :: others :=
              List.exists_cons_of_ne_nil (by simp)
            have hwhole : entries = first :: (others ++ rest) := by
              rw [hsplit, ← List.cons_append, ← hfirst, List.append_assoc, List.singleton_append]
            have hagain : hubSubdevNext (as (pre.length + 1)) h e.info =
                some (.rv .succ, first.info) :=
              (hwhole ▸ hl).next_first hfree (hread _ hlength) hempty
            cases rest with
            | nil =>
                cases hrest with
                | done hend => cases hagain.symm.trans hend
            | cons e' rest =>
                cases hrest with
                | next hnext _ =>
                    have hsame : first.info = e'.info := (Prod.mk.inj (Option.some_inj.mp
                      (hagain.symm.trans hnext))).2
                    have hnodup := hl.nodup
                    rw [hwhole, List.map_cons, List.nodup_cons] at hnodup
                    refine hnodup.1 ?_
                    rw [show first.sn = e'.sn from congrArg SubdevInfo.sn hsame]
                    exact List.mem_map_of_mem (List.mem_append_right others List.mem_cons_self)
          have hsplit' : entries = (pre ++ [e]) ++ rest := by simp [hsplit]
          have htail := ih hsplit' (by rwa [List.length_append, List.length_singleton])
          exact List.forall_mem_cons.mpr ⟨hhead, htail⟩

theorem Kept.enumSound_iff (hk : Kept p h.kv entries) (hflag : ∀ e ∈ entries, e.AccessFlag) :
    EnumSound md5 p as h (entries.map SubdevEntry.info) ↔
      Enumerable as h (entries.map SubdevEntry.info) := by
  constructor
  · intro hsound
    have henum := hsound.devices
    have hfree : h.locked = false := by
      obtain ⟨rv, d, hcall, -⟩ := henum.first
      refine Bool.eq_false_iff.mpr fun hlocked => ?_
      rw [hubSubdevNext, if_pos hlocked] at hcall
      cases hcall
    have hread := henum.readable hfree
    simp only [Nat.zero_add] at hread
    have hfits := henum.fits hk hfree
    refine ⟨hfree, hread, hfits, fun d hd => ?_⟩
    obtain ⟨e, he, rfl⟩ := List.mem_map.mp hd
    rw [List.length_map] at hread
    have hsplit : entries = [] ++ entries := rfl
    exact (hk.listed hfits).named_of_enumerates hfree hread hsplit henum e he
  · intro hok
    have hread := hok.read
    rw [List.length_map] at hread
    have hsplit : entries = [] ++ entries := rfl
    have hstart : After [] .zero := .inl ⟨rfl, rfl⟩
    have henum := (hk.listed hok.fits).enumerates hok.free hread
      (fun e he => hok.named e.info (List.mem_map_of_mem he)) hsplit hstart
    refine ⟨henum, _, henum.loop.trans ?_⟩
    congr 2
    refine List.filter_congr fun d hd => ?_
    obtain ⟨e, he, rfl⟩ := List.mem_map.mp hd
    show (!decide (e.access = 1)) = (e.access == 0)
    rcases hflag e he with hzero | hone
    · rw [hzero]
      rfl
    · rw [hone]
      rfl

end Calls

/-- In every hub that is reached, whatever failed, the enumeration gives the stored list, and
the timer asks for the devices that are not authenticated, exactly when the mutex is free,
every call can read the list and no stored serial is empty. -/
theorem enumeration_iff (md5 : Bytes → Bytes) (p : Printer) (as : Nat → Accesses) {h : HubState}
    (hreach : Reach (HubState.step p) (fun _ _ => True) .initial h) :
    ∃ l, storedList h.kv = some l ∧
      (EnumSound md5 p as h.toSublist l ↔ Enumerable as h.toSublist l) := by
  obtain ⟨entries, hk, hflag⟩ := exists_kept hreach
  exact ⟨_, hk.storedList, Kept.enumSound_iff (h := h.toSublist) hk hflag⟩

/-- A list of one device. -/
theorem enumeration_one : ∃ h,
    HubState.initial.step samplePrinter (.add sampleInfo, .fine) = some h ∧
      EnumSound id samplePrinter (fun _ => .fine) h.toSublist [sampleInfo.internal] := by
  have hrun : (HubState.initial.step samplePrinter (.add sampleInfo, .fine)).map (fun h =>
      (h.locked, storedList h.kv, decide ((h.kv.value hublistKey).length ≤ hubListSize))) =
        some (false, some [sampleInfo.internal], true) := by decide +kernel
  obtain ⟨h, hstep, hend⟩ := Option.map_eq_some_iff.mp hrun
  simp only [Prod.mk.injEq, decide_eq_true_eq] at hend
  have hreach : Reach (HubState.step samplePrinter) (fun _ _ => True) .initial h :=
    Reach.next .start trivial hstep
  obtain ⟨l, hl, hsound⟩ := enumeration_iff id samplePrinter (fun _ => .fine) hreach
  obtain rfl : l = [sampleInfo.internal] := Option.some_inj.mp (hl.symm.trans hend.2.1)
  refine ⟨h, hstep, hsound.mpr ⟨hend.1, fun n _ => ?_, hend.2.2, ?_⟩⟩
  · simp [unreadable, Accesses.fine]
  · simp only [List.forall_mem_singleton]
    decide

/-- A device whose serial is empty. -/
def namelessInfo : EzSubdevInfo := { sampleInfo with subdevSn := .strncpy (.lit "") }

/-- Behind that device comes the device itself. -/
theorem enumeration_repeats : ¬ ∀ (md5 : Bytes → Bytes) (p : Printer) (as : Nat → Accesses)
    (h : HubState), Reach (HubState.step p) (fun _ _ => True) .initial h →
      ∃ l, storedList h.kv = some l ∧ EnumSound md5 p as h.toSublist l := by
  intro hall
  have hrun : (HubState.initial.step samplePrinter (.add namelessInfo, .fine)).map (fun h =>
      (storedList h.kv, hubSubdevNext .fine h.toSublist namelessInfo.internal)) =
        some (some [namelessInfo.internal], some (.rv .succ, namelessInfo.internal)) := by
    decide +kernel
  obtain ⟨h, hstep, hend⟩ := Option.map_eq_some_iff.mp hrun
  obtain ⟨hlist, hagain⟩ := Prod.mk.inj hend
  obtain ⟨l, hl, hsound⟩ := hall id samplePrinter (fun _ => .fine) h
    (Reach.next .start trivial hstep)
  obtain rfl : l = [namelessInfo.internal] := Option.some_inj.mp (hl.symm.trans hlist)
  cases hsound.devices with
  | next _ hrest =>
      cases hrest with
      | done hcall => cases hagain.symm.trans hcall

end EzIot.Hub
