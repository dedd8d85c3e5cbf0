import Mathlib.Data.List.Nodup
import EzIot.Lib.Run
import EzIot.Lib.Slots
import EzIot.Tsl.Lookup

/-! # The registry of profiles

Capacities are kept in a list, each with the serials of the devices that share it. A
device joins a capacity by type and firmware version and is found by its serial; with
its last device a capacity is freed.
-/

namespace EzIot.Tsl

open CText CJson Run

/-! ## The lists -/

/-- `node_capacity_t`, with the text that the capacity was parsed from beside it. -/
structure NodeCapacity where
  capacity : Capacity
  devList : List (CField 48)
  profile : CString

/-- `g_profile_list`. -/
abbrev ProfileList := List NodeCapacity

def NodeCapacity.serials (n : NodeCapacity) : List CString := n.devList.map CField.toCString

def NodeCapacity.holds (devSn : CString) (n : NodeCapacity) : Bool := decide (devSn ∈ n.serials)

def profileFindBySn (devSn : CString) (g : ProfileList) : Option NodeCapacity :=
  g.find? (NodeCapacity.holds devSn)

def tslProfileCheck (devSn : CString) (g : ProfileList) : Bool := (profileFindBySn devSn g).isSome

def tslProfileGetLock (devSn : CString) (g : ProfileList) : Option Capacity :=
  (profileFindBySn devSn g).map NodeCapacity.capacity

def profileRefAdd (devSn : CString) (n : NodeCapacity) : NodeCapacity :=
  { n with devList := n.devList ++ [.strncpy devSn] }

def profileRefDel (devSn : CString) (n : NodeCapacity) : NodeCapacity :=
  { n with devList := n.devList.eraseP fun x => x.toCString = devSn }

/-- The capacity that `tsl_profile_reg` makes: the firmware version is filled with the
type. -/
def newCapacity (devType _devFwver : CString) (resource : List ProfileResource) : Capacity :=
  ⟨.strncpy devType, .strncpy devType, resource⟩

/-- `tsl_profile_reg` where the lists can be allocated. There is no result where the
parser leaves its buffers or C leaves a conversion open. -/
def tslProfileReg (p : Platform) (strong : Bool) (devSn devType devFwver profile : CString)
    (g : ProfileList) : Option (Nat × ProfileList) :=
  match profileParse p strong profile with
  | .ok resource =>
      some (Err.succ, g ++ [profileRefAdd devSn ⟨newCapacity devType devFwver resource, [], profile⟩])
  | .error (.code rv) => some (rv, g)
  | .error _ => none

def NodeCapacity.isFor (devType devFwver : CString) (n : NodeCapacity) : Bool :=
  decide (devType = n.capacity.devType.toCString ∧ devFwver = n.capacity.devFwVer.toCString)

def tslProfileRefAdd (devSn devType devFwver : CString) (g : ProfileList) : Bool × ProfileList :=
  (g.any (NodeCapacity.isFor devType devFwver),
    Slots.modifyFirst (NodeCapacity.isFor devType devFwver) (profileRefAdd devSn) g)

def tslProfileRefDel (devSn : CString) : ProfileList → ProfileList
  | [] => []
  | n :: g =>
      if n.holds devSn then
        if (profileRefDel devSn n).devList.length < 1 then g else profileRefDel devSn n :: g
      else n :: tslProfileRefDel devSn g

/-! ## Sequences of calls -/

/-- A device that was added with a type and a firmware version. -/
structure Device where
  devSn : CString
  devType : CString
  devFwver : CString

/-- The list beside the devices that were added and not deleted. -/
structure Registered where
  list : ProfileList
  live : List Device

inductive RegistryCall
  | reg (devSn devType devFwver profile : CString)
  | refAdd (devSn devType devFwver : CString)
  | refDel (devSn : CString)

/-- A call as `tsl_adapter_add` and `tsl_adapter_del` make it: a serial is added if it
is not found, and deleted if it is. -/
def Registered.step (p : Platform) (strong : Bool) (s : Registered) :
    RegistryCall → Option Registered
  | .reg devSn devType devFwver profile =>
      if tslProfileCheck devSn s.list then none
      else (tslProfileReg p strong devSn devType devFwver profile s.list).map fun r =>
        ⟨r.2, if r.1 = Err.succ then s.live ++ [⟨devSn, devType, devFwver⟩] else s.live⟩
  | .refAdd devSn devType devFwver =>
      if tslProfileCheck devSn s.list then none
      else
        let r := tslProfileRefAdd devSn devType devFwver s.list
        some ⟨r.2, if r.1 then s.live ++ [⟨devSn, devType, devFwver⟩] else s.live⟩
  | .refDel devSn =>
      if tslProfileCheck devSn s.list then
        some ⟨tslProfileRefDel devSn s.list, s.live.filter fun d => d.devSn ≠ devSn⟩
      else none

def serials (g : ProfileList) : List CString := g.flatMap NodeCapacity.serials

/-- The list follows the devices. -/
structure RegistrySound (s : Registered) : Prop where
  -- a device can join exactly those that have its type and firmware version
  refAdd : ∀ devSn devType devFwver, (tslProfileRefAdd devSn devType devFwver s.list).1 = true ↔
    ∃ d ∈ s.live, d.devType = devType ∧ d.devFwver = devFwver
  check : ∀ devSn, tslProfileCheck devSn s.list = true ↔ ∃ d ∈ s.live, d.devSn = devSn
  once : ∀ d ∈ s.live, (serials s.list).count d.devSn = 1
  -- a capacity is freed with its last serial, and not before
  used : ∀ n ∈ s.list, n.serials ≠ []
  last : ∀ devSn, (tslProfileRefDel devSn s.list).map NodeCapacity.capacity =
    (s.list.filter fun n => n.serials ≠ [devSn]).map NodeCapacity.capacity

/-- What is added names a version like its type, and the names fit. -/
def NamedAlike (p : Platform) (strong : Bool) (s : Registered) : RegistryCall → Prop
  | .reg devSn devType devFwver profile =>
      (∃ resource, profileParse p strong profile = .ok resource) →
        devFwver = devType ∧ devType.length ≤ 23 ∧ devSn.length ≤ 47
  | .refAdd devSn devType devFwver =>
      (tslProfileRefAdd devSn devType devFwver s.list).1 = true → devSn.length ≤ 47
  | .refDel _ => True

/-! ## What the operations do to the lists -/

section Lists

variable {devSn devType devFwver : CString} {g : ProfileList}

theorem holds_iff {n : NodeCapacity} : n.holds devSn = true ↔ devSn ∈ n.serials :=
  decide_eq_true_iff

theorem mem_serials : devSn ∈ serials g ↔ ∃ n ∈ g, devSn ∈ n.serials := List.mem_flatMap

theorem tslProfileCheck_iff : tslProfileCheck devSn g = true ↔ devSn ∈ serials g := by
  unfold tslProfileCheck profileFindBySn
  rw [List.find?_isSome, mem_serials]
  simp only [holds_iff]

theorem length_le_of_mem_serials (h : devSn ∈ serials g) : devSn.length ≤ 47 := by
  obtain ⟨n, -, hmem⟩ := mem_serials.mp h
  obtain ⟨x, -, rfl⟩ := List.mem_map.mp hmem
  exact Nat.le_of_lt_succ x.fits

theorem isFor_iff {n : NodeCapacity} : n.isFor devType devFwver = true ↔
    devType = n.capacity.devType.toCString ∧ devFwver = n.capacity.devFwVer.toCString :=
  decide_eq_true_iff

theorem serials_append (g h : ProfileList) : serials (g ++ h) = serials g ++ serials h :=
  List.flatMap_append

theorem serials_cons (n : NodeCapacity) (g : ProfileList) :
    serials (n :: g) = n.serials ++ serials g := rfl

theorem serials_profileRefAdd (h : devSn.length ≤ 47) (n : NodeCapacity) :
    (profileRefAdd devSn n).serials = n.serials ++ [devSn] := by
  unfold profileRefAdd NodeCapacity.serials
  rw [List.map_append, List.map_singleton, CField.strncpy_of_fits h]

theorem serials_profileRefDel (n : NodeCapacity) :
    (profileRefDel devSn n).serials = n.serials.erase devSn := by
  unfold profileRefDel NodeCapacity.serials
  rw [List.erase_eq_eraseP', List.eraseP_map]
  refine congrArg _ (congrArg (List.eraseP · n.devList) (funext fun x => ?_))
  simp [beq_eq_decide]

theorem serials_tslProfileRefAdd (h : devSn.length ≤ 47)
    (hfor : (tslProfileRefAdd devSn devType devFwver g).1 = true) :
    (serials (tslProfileRefAdd devSn devType devFwver g).2).Perm (serials g ++ [devSn]) := by
  unfold tslProfileRefAdd at hfor ⊢
  induction g with
  | nil => simp at hfor
  | cons n g ih =>
      by_cases hn : n.isFor devType devFwver
      · simp only [Slots.modifyFirst, hn, if_true, serials_cons, serials_profileRefAdd h,
          List.append_assoc]
        exact List.perm_append_comm.append_left n.serials
      · simp only [Slots.modifyFirst, hn, serials_cons, List.append_assoc]
        exact (ih (by simpa [hn] using hfor)).append_left n.serials

theorem tslProfileRefAdd_of_none
    (hfor : (tslProfileRefAdd devSn devType devFwver g).1 ≠ true) :
    (tslProfileRefAdd devSn devType devFwver g).2 = g := by
  unfold tslProfileRefAdd at hfor ⊢
  refine Slots.modifyFirst_of_none fun n hn => Bool.eq_false_iff.mpr fun hself => ?_
  exact hfor (List.any_eq_true.mpr ⟨n, hn, hself⟩)

theorem capacity_tslProfileRefAdd :
    (tslProfileRefAdd devSn devType devFwver g).2.map NodeCapacity.capacity =
      g.map NodeCapacity.capacity :=
  Slots.map_modifyFirst (f := profileRefAdd devSn) fun _ => rfl

/-- A deleted serial is taken out once, also where its capacity goes with it. -/
theorem serials_tslProfileRefDel :
    serials (tslProfileRefDel devSn g) = (serials g).erase devSn := by
  induction g with
  | nil => rfl
  | cons n g ih =>
      rw [tslProfileRefDel, serials_cons]
      split
      next hholds =>
        rw [List.erase_append_left _ (holds_iff.mp hholds), ← serials_profileRefDel]
        split
        next hlast =>
          have hnil : (profileRefDel devSn n).devList = [] := List.eq_nil_of_length_eq_zero (by omega)
          simp [NodeCapacity.serials, hnil]
        next => rfl
      next hholds =>
        rw [List.erase_append_right _ fun hmem => hholds (holds_iff.mpr hmem), serials_cons, ih]

/-- With its last serial a capacity leaves the list, and no other does. -/
theorem capacity_tslProfileRefDel (hnodup : (serials g).Nodup) :
    (tslProfileRefDel devSn g).map NodeCapacity.capacity =
      (g.filter fun n => n.serials ≠ [devSn]).map NodeCapacity.capacity := by
  induction g with
  | nil => rfl
  | cons n g ih =>
      rw [serials_cons, List.nodup_append] at hnodup
      rw [tslProfileRefDel]
      split
      next hholds =>
        have hmem := holds_iff.mp hholds
        have hrest : g.filter (fun m => m.serials ≠ [devSn]) = g := by
          refine List.filter_eq_self.mpr fun m hm => decide_eq_true fun heq => ?_
          exact hnodup.2.2 devSn hmem devSn (mem_serials.mpr ⟨m, hm, by simp [heq]⟩) rfl
        have hlen : (profileRefDel devSn n).devList.length < 1 ↔ n.serials = [devSn] := by
          have hserials : (profileRefDel devSn n).serials.length = (n.serials.erase devSn).length :=
            congrArg List.length (serials_profileRefDel n)
          rw [List.length_erase_of_mem hmem] at hserials
          unfold NodeCapacity.serials at hserials hmem ⊢
          rw [List.length_map] at hserials
          constructor
          · intro hlt
            obtain ⟨x, hx⟩ := List.length_eq_one_iff.mp
              (show (n.devList.map CField.toCString).length = 1 by
                have := List.length_pos_of_mem hmem
                omega)
            rw [hx] at hmem ⊢
            rw [List.mem_singleton.mp hmem]
          · intro heq
            rw [heq, List.length_singleton] at hserials
            omega
        by_cases hone : n.serials = [devSn]
        · rw [if_pos (hlen.mpr hone), List.filter_cons_of_neg (by simp [hone]), hrest]
        · rw [if_neg (mt hlen.mp hone), List.filter_cons_of_pos (by simp [hone]), hrest]
          rfl
      next hholds =>
        have hother : n.serials ≠ [devSn] := by
          intro heq
          exact hholds (holds_iff.mpr (by simp [heq]))
        rw [List.filter_cons_of_pos (by simp [hother]), List.map_cons, List.map_cons,
          ih hnodup.2.1]

/-- Every capacity that is left was there before, with fewer serials or the same. -/
theorem mem_tslProfileRefDel {n : NodeCapacity} (h : n ∈ tslProfileRefDel devSn g) :
    ∃ m ∈ g, n.capacity = m.capacity ∧ n.profile = m.profile ∧
      (∀ x ∈ n.devList, x ∈ m.devList) ∧ (m.devList ≠ [] → n.devList ≠ []) := by
  induction g with
  | nil => exact absurd h List.not_mem_nil
  | cons m g ih =>
      have hkept : ∀ k ∈ g, ∃ m' ∈ m :: g, k.capacity = m'.capacity ∧ k.profile = m'.profile ∧
          (∀ x ∈ k.devList, x ∈ m'.devList) ∧ (m'.devList ≠ [] → k.devList ≠ []) :=
        fun k hk => ⟨k, List.mem_cons_of_mem m hk, rfl, rfl, fun _ hx => hx, id⟩
      rw [tslProfileRefDel] at h
      split at h
      next =>
        split at h
        next => exact hkept n h
        next hleft =>
          rcases List.mem_cons.mp h with rfl | hmem
          · refine ⟨m, List.mem_cons_self, rfl, rfl, fun x hx => List.mem_of_mem_eraseP hx, ?_⟩
            intro _ hnil
            exact hleft (by simp [hnil])
          · exact hkept n hmem
      next =>
        rcases List.mem_cons.mp h with rfl | hmem
        · exact ⟨n, List.mem_cons_self, rfl, rfl, fun _ hx => hx, id⟩
        · rcases ih hmem with ⟨k, hk, hrest⟩
          exact ⟨k, List.mem_cons_of_mem m hk, hrest⟩

end Lists

/-! ## The invariant -/

/-- The serials are those of the devices, each once, and each stands with a capacity
that is for its device. -/
structure Registered.Inv (s : Registered) : Prop where
  serials : (serials s.list).Perm (s.live.map Device.devSn)
  nodup : (s.live.map Device.devSn).Nodup
  used : ∀ n ∈ s.list, n.devList ≠ []
  named : ∀ n ∈ s.list, ∀ x ∈ n.devList, ∃ d ∈ s.live, d.devSn = x.toCString ∧
    n.isFor d.devType d.devFwver = true
  alike : ∀ d ∈ s.live, d.devFwver = d.devType

section Invariant

variable {p : Platform} {strong : Bool} {s s' : Registered}

theorem Registered.Inv.sound (h : s.Inv) : RegistrySound s := by
  have hcheck : ∀ devSn, devSn ∈ Tsl.serials s.list ↔ ∃ d ∈ s.live, d.devSn = devSn :=
    fun devSn => (h.serials.mem_iff).trans List.mem_map
  have honce : (Tsl.serials s.list).Nodup := h.serials.nodup_iff.mpr h.nodup
  constructor
  · intro devSn devType devFwver
    show (s.list.any (NodeCapacity.isFor devType devFwver)) = true ↔ _
    rw [List.any_eq_true]
    constructor
    · rintro ⟨n, hn, hfor⟩
      obtain ⟨x, hx⟩ := List.exists_mem_of_ne_nil _ (h.used n hn)
      rcases h.named n hn x hx with ⟨d, hd, -, hd'⟩
      rw [isFor_iff] at hfor hd'
      exact ⟨d, hd, hd'.1.trans hfor.1.symm, hd'.2.trans hfor.2.symm⟩
    · rintro ⟨d, hd, rfl, rfl⟩
      rcases mem_serials.mp ((hcheck d.devSn).mpr ⟨d, hd, rfl⟩) with ⟨n, hn, hmem⟩
      obtain ⟨x, hx, hxd⟩ := List.mem_map.mp hmem
      rcases h.named n hn x hx with ⟨d', hd', hsn, hfor⟩
      -- serials are distinct, so the device of this entry is the one asked for
      have hsame : d' = d := List.inj_on_of_nodup_map h.nodup hd' hd (hsn.trans hxd)
      exact ⟨n, hn, hsame ▸ hfor⟩
  · exact fun devSn => tslProfileCheck_iff.trans (hcheck devSn)
  · exact fun d hd => List.count_eq_one_of_mem honce ((hcheck d.devSn).mpr ⟨d, hd, rfl⟩)
  · intro n hn hnil
    exact h.used n hn (List.map_eq_nil_iff.mp hnil)
  · exact fun devSn => capacity_tslProfileRefDel honce

/-- A device with a new serial joins: its serial is added to the list, and every
capacity that was there keeps its serials. -/
theorem Registered.Inv.join (h : s.Inv) {g : ProfileList} {d : Device}
    (hnew : ¬ tslProfileCheck d.devSn s.list = true)
    (hperm : (Tsl.serials g).Perm (Tsl.serials s.list ++ [d.devSn]))
    (hg : ∀ n ∈ g, n ∈ s.list ∨ ∃ devList, n.devList = devList ++ [.strncpy d.devSn] ∧
      n.isFor d.devType d.devFwver = true ∧
      (devList ≠ [] → ∃ m ∈ s.list, m.capacity = n.capacity ∧ m.devList = devList))
    (hfit : d.devSn.length ≤ 47) (halike : d.devFwver = d.devType) :
    (⟨g, s.live ++ [d]⟩ : Registered).Inv := by
  have hold : ∀ {n : NodeCapacity} {x : CField 48}, n ∈ s.list → x ∈ n.devList →
      ∃ e ∈ s.live ++ [d], e.devSn = x.toCString ∧ n.isFor e.devType e.devFwver = true := by
    intro n x hn hx
    rcases h.named n hn x hx with ⟨e, he, hrest⟩
    exact ⟨e, List.mem_append_left _ he, hrest⟩
  refine ⟨?_, ?_, ?_, ?_, ?_⟩
  · rw [List.map_append]
    exact hperm.trans (h.serials.append_right _)
  · rw [List.map_append, List.map_singleton, List.nodup_append]
    refine ⟨h.nodup, List.nodup_singleton _, fun a ha b hb => ?_⟩
    rw [List.mem_singleton.mp hb]
    rintro rfl
    exact hnew (tslProfileCheck_iff.mpr (h.serials.mem_iff.mpr ha))
  · intro n hn
    rcases hg n hn with hmem | ⟨devList, hlist, -⟩
    · exact h.used n hmem
    · simp [hlist]
  · intro n hn x hx
    rcases hg n hn with hmem | ⟨devList, hlist, hfor, hm⟩
    · exact hold hmem hx
    · rw [hlist, List.mem_append, List.mem_singleton] at hx
      rcases hx with hx | rfl
      · rcases hm (List.ne_nil_of_mem hx) with ⟨m, hmem, hcap, hmlist⟩
        rcases hold hmem (hmlist ▸ hx) with ⟨e, he, hsn, hefor⟩
        exact ⟨e, he, hsn, by rwa [isFor_iff, hcap, ← isFor_iff] at hefor⟩
      · exact ⟨d, List.mem_append_right _ List.mem_cons_self,
          (CField.strncpy_of_fits hfit).symm, hfor⟩
  · intro e he
    rcases List.mem_append.mp he with hold | hfresh
    · exact h.alike e hold
    · rw [List.mem_singleton.mp hfresh]
      exact halike

/-- What joins a capacity names a version like its type. -/
theorem Registered.Inv.alike_of_isFor (h : s.Inv) {n : NodeCapacity} {devType devFwver : CString}
    (hn : n ∈ s.list) (hfor : n.isFor devType devFwver = true) : devFwver = devType := by
  obtain ⟨x, hx⟩ := List.exists_mem_of_ne_nil _ (h.used n hn)
  rcases h.named n hn x hx with ⟨d, hd, -, hd'⟩
  rw [isFor_iff] at hfor hd'
  rw [hfor.1, hfor.2, ← hd'.1, ← hd'.2, h.alike d hd]

theorem tslProfileReg_cases {devSn devType devFwver profile : CString} {g : ProfileList}
    {r : Nat × ProfileList} (h : tslProfileReg p strong devSn devType devFwver profile g = some r) :
    (∃ resource, profileParse p strong profile = .ok resource ∧
      r = (Err.succ, g ++ [profileRefAdd devSn ⟨newCapacity devType devFwver resource, [], profile⟩])) ∨
    (∃ rv, profileParse p strong profile = .error (.code rv) ∧ r = (rv, g)) := by
  unfold tslProfileReg at h
  split at h
  next resource hparse => exact .inl ⟨resource, hparse, (Option.some_inj.mp h).symm⟩
  next rv hparse => exact .inr ⟨rv, hparse, (Option.some_inj.mp h).symm⟩
  next => exact absurd h (by simp)

/-- A new capacity is for a version that is named like the type. -/
theorem isFor_newCapacity {devType : CString} (htype : devType.length ≤ 23)
    (resource : List ProfileResource) (devList : List (CField 48)) (profile : CString) :
    NodeCapacity.isFor devType devType ⟨newCapacity devType devType resource, devList, profile⟩ =
      true :=
  isFor_iff.mpr ⟨(CField.strncpy_of_fits (n := 23) htype).symm,
    (CField.strncpy_of_fits (n := 35) (by omega)).symm⟩

/-- A device leaves: its serial is taken from the list, and what is left of a capacity
keeps what it is for. -/
theorem Registered.Inv.leave (h : s.Inv) (devSn : CString) :
    (⟨tslProfileRefDel devSn s.list, s.live.filter fun d => d.devSn ≠ devSn⟩ : Registered).Inv := by
  have hfilter : ((s.live.filter fun d => d.devSn ≠ devSn).map Device.devSn) =
      (s.live.map Device.devSn).erase devSn := by
    rw [h.nodup.erase_eq_filter, List.filter_map]
    refine congrArg _ (List.filter_congr fun d _ => ?_)
    show decide (d.devSn ≠ devSn) = (d.devSn != devSn)
    rw [bne, beq_eq_decide, decide_not]
  refine ⟨?_, ?_, ?_, ?_, fun d hd => h.alike d (List.mem_of_mem_filter hd)⟩
  · rw [serials_tslProfileRefDel, hfilter]
    exact h.serials.erase devSn
  · rw [hfilter]
    exact h.nodup.erase devSn
  · intro n hn
    obtain ⟨m, hm, -, -, -, hused⟩ := mem_tslProfileRefDel hn
    exact hused (h.used m hm)
  · intro n hn x hx
    obtain ⟨m, hm, hcap, -, hsub, -⟩ := mem_tslProfileRefDel hn
    rcases h.named m hm x (hsub x hx) with ⟨d, hd, hsn, hfor⟩
    have hleft : x.toCString ∈ (Tsl.serials s.list).erase devSn := by
      rw [← serials_tslProfileRefDel]
      exact mem_serials.mpr ⟨n, hn, List.mem_map_of_mem hx⟩
    have hne : d.devSn ≠ devSn := by
      rw [hsn]
      exact ((h.serials.nodup_iff.mpr h.nodup).mem_erase_iff.mp hleft).1
    refine ⟨d, List.mem_filter.mpr ⟨hd, by simpa using hne⟩, hsn, ?_⟩
    rwa [isFor_iff, hcap, ← isFor_iff]

theorem Registered.Inv.step (h : s.Inv) {call : RegistryCall} (hnamed : NamedAlike p strong s call)
    (hstep : s.step p strong call = some s') : s'.Inv := by
  cases call with
  | reg devSn devType devFwver profile =>
      rw [Registered.step] at hstep
      split at hstep
      · cases hstep
      next hnew =>
        obtain ⟨r, hreg, rfl⟩ := Option.map_eq_some_iff.mp hstep
        rcases tslProfileReg_cases hreg with ⟨resource, hparse, rfl⟩ | ⟨rv, hparse, rfl⟩
        · obtain ⟨rfl, htype, hsn⟩ := hnamed ⟨resource, hparse⟩
          rw [if_pos rfl]
          refine h.join hnew ?_ ?_ hsn rfl
          · rw [serials_append, serials_cons, serials_profileRefAdd hsn]
            exact .refl _
          · intro n hn
            rcases List.mem_append.mp hn with hold | hfresh
            · exact .inl hold
            · rw [List.mem_singleton.mp hfresh]
              exact .inr ⟨[], rfl, isFor_newCapacity htype .., fun hne => absurd rfl hne⟩
        · have hrv : rv ≠ Err.succ := by
            rintro rfl
            exact profileParse_ne_succ hparse
          rw [if_neg hrv]
          exact h
  | refAdd devSn devType devFwver =>
      rw [Registered.step] at hstep
      split at hstep
      · cases hstep
      next hnew =>
        cases hstep
        by_cases hfor : (tslProfileRefAdd devSn devType devFwver s.list).1 = true
        · have hsn := hnamed hfor
          rw [if_pos hfor]
          obtain ⟨n, hn, hself⟩ := List.any_eq_true.mp hfor
          refine h.join hnew (serials_tslProfileRefAdd hsn hfor) ?_ hsn (h.alike_of_isFor hn hself)
          intro n hn
          rcases Slots.mem_modifyFirst hn with hold | ⟨m, hfind, rfl⟩
          · exact .inl hold
          · have hself : m.isFor devType devFwver = true := List.find?_some hfind
            exact .inr ⟨m.devList, rfl, hself,
              fun _ => ⟨m, List.mem_of_find?_eq_some hfind, rfl, rfl⟩⟩
        · rw [if_neg hfor, tslProfileRefAdd_of_none hfor]
          exact h
  | refDel devSn =>
      rw [Registered.step] at hstep
      split at hstep
      · cases hstep
        exact h.leave devSn
      · cases hstep

/-- After a call, the list follows the devices only where what was added named a
version like its type. -/
theorem Registered.Inv.namedAlike (h : s.Inv) {call : RegistryCall}
    (hstep : s.step p strong call = some s') (hsound : RegistrySound s') :
    NamedAlike p strong s call := by
  cases call with
  | reg devSn devType devFwver profile =>
      rintro ⟨resource, hparse⟩
      rw [Registered.step] at hstep
      split at hstep
      · cases hstep
      · obtain ⟨r, hreg, rfl⟩ := Option.map_eq_some_iff.mp hstep
        unfold tslProfileReg at hreg
        rw [hparse] at hreg
        cases hreg
        rw [if_pos rfl] at hsound
        have hlive : ⟨devSn, devType, devFwver⟩ ∈ s.live ++ [(⟨devSn, devType, devFwver⟩ : Device)] :=
          List.mem_append_right _ List.mem_cons_self
        have hsn := tslProfileCheck_iff.mp ((hsound.check devSn).mpr ⟨_, hlive, rfl⟩)
        have hjoin := (hsound.refAdd devSn devType devFwver).mpr ⟨_, hlive, rfl, rfl⟩
        obtain ⟨n, hn, hfor⟩ := List.any_eq_true.mp hjoin
        have htype : devType.length ≤ 23 := by
          rw [(isFor_iff.mp hfor).1]
          exact Nat.le_of_lt_succ n.capacity.devType.fits
        refine ⟨?_, htype, ?_⟩
        · rcases List.mem_append.mp hn with hold | hfresh
          · exact h.alike_of_isFor hold hfor
          · rw [List.mem_singleton.mp hfresh, isFor_iff] at hfor
            exact hfor.2.trans (CField.strncpy_of_fits (n := 35) (by omega))
        · exact length_le_of_mem_serials hsn
  | refAdd devSn devType devFwver =>
      intro hfor
      rw [Registered.step] at hstep
      split at hstep
      · cases hstep
      · cases hstep
        rw [if_pos hfor] at hsound
        exact length_le_of_mem_serials (tslProfileCheck_iff.mp
          ((hsound.check devSn).mpr ⟨⟨devSn, devType, devFwver⟩,
            List.mem_append_right _ List.mem_cons_self, rfl⟩))
  | refDel devSn => trivial

/-- No other call than a deletion takes a capacity from the list. -/
theorem Registered.capacities_step {call : RegistryCall}
    (hstep : s.step p strong call = some s') (hcall : ∀ devSn, call ≠ .refDel devSn) :
    s.list.map NodeCapacity.capacity <+: s'.list.map NodeCapacity.capacity := by
  cases call with
  | reg devSn devType devFwver profile =>
      rw [Registered.step] at hstep
      split at hstep
      · cases hstep
      · obtain ⟨r, hreg, rfl⟩ := Option.map_eq_some_iff.mp hstep
        rcases tslProfileReg_cases hreg with ⟨resource, -, rfl⟩ | ⟨rv, -, rfl⟩
        · rw [List.map_append]
          exact List.prefix_append _ _
        · exact List.prefix_rfl
  | refAdd devSn devType devFwver =>
      rw [Registered.step] at hstep
      split at hstep
      · cases hstep
      · cases hstep
        exact ⟨[], by rw [List.append_nil, capacity_tslProfileRefAdd]⟩
  | refDel devSn => exact absurd rfl (hcall devSn)

end Invariant

/-- As long as everything is registered for a version like its type, the list follows
the devices; with the first that is not, or with a name that does not fit, it no longer
does. -/
theorem registrySound_iff_namedAlike (p : Platform) (strong : Bool) {s : Registered}
    (h : Reach (Registered.step p strong) (NamedAlike p strong) ⟨[], []⟩ s) :
    RegistrySound s ∧ ∀ call s', s.step p strong call = some s' →
      (RegistrySound s' ↔ NamedAlike p strong s call) ∧
      ((∀ devSn, call ≠ .refDel devSn) →
        s.list.map NodeCapacity.capacity <+: s'.list.map NodeCapacity.capacity) := by
  have hinv : s.Inv := by
    refine h.invariant (I := Registered.Inv) ?_ fun s call s' hs hnamed hstep => hs.step hnamed hstep
    exact ⟨.refl _, .nil, by simp, by simp, by simp⟩
  refine ⟨hinv.sound, fun call s' hstep => ⟨⟨hinv.namedAlike hstep, fun hnamed => ?_⟩,
    s.capacities_step hstep⟩⟩
  exact (hinv.step hnamed hstep).sound

/-- The only device of a registry, with one capacity. -/
def oneRegistered (devFwver : CString) (resource : List ProfileResource) : Registered :=
  ⟨[profileRefAdd (.lit "D1")
      ⟨newCapacity (.lit "T") devFwver resource, [], sampleProfile "[\"1\"]"⟩],
    [⟨.lit "D1", .lit "T", devFwver⟩]⟩

theorem step_oneRegistered (devFwver : CString) {resource : List ProfileResource}
    (h : profileParse allocating false (sampleProfile "[\"1\"]") = .ok resource) :
    (⟨[], []⟩ : Registered).step allocating false
      (.reg (.lit "D1") (.lit "T") devFwver (sampleProfile "[\"1\"]")) =
        some (oneRegistered devFwver resource) := by
  have hnew : tslProfileCheck (.lit "D1") [] = false := rfl
  simp only [Registered.step, hnew, tslProfileReg, h]
  rfl

/-- A second device joins the first, which then leaves. -/
def sampleCalls : List RegistryCall :=
  [.refAdd (.lit "D2") (.lit "T") (.lit "T"), .refDel (.lit "D1")]

theorem registrySound_one : ∃ resource s,
    sampleCalls.foldlM (Registered.step allocating false) (oneRegistered (.lit "T") resource) =
      some s ∧ s.live = [⟨.lit "D2", .lit "T", .lit "T"⟩] ∧ RegistrySound s := by
  obtain ⟨resource, hparse⟩ := profileParse_sample
  have hnamed : NamedAlike allocating false ⟨[], []⟩
      (.reg (.lit "D1") (.lit "T") (.lit "T") (sampleProfile "[\"1\"]")) :=
    fun _ => ⟨rfl, by decide, by decide⟩
  have hone := Reach.next .start hnamed (step_oneRegistered _ hparse)
  have hjoined : NamedAlike allocating false (oneRegistered (.lit "T") resource)
      (.refAdd (.lit "D2") (.lit "T") (.lit "T")) := fun _ => by decide
  exact ⟨resource, _, rfl, rfl, (registrySound_iff_namedAlike allocating false
    ((hone.next hjoined rfl).next (i := .refDel (.lit "D1")) trivial rfl)).1⟩

/-- A device that was registered for another version than its type cannot be joined. -/
theorem other_version_not_registrySound :
    ∃ s, Reach (Registered.step allocating false) (fun _ _ => True) ⟨[], []⟩ s ∧
      ¬ RegistrySound s := by
  obtain ⟨resource, hparse⟩ := profileParse_sample
  refine ⟨oneRegistered (.lit "V1") resource,
    Reach.next .start trivial (step_oneRegistered _ hparse), fun hsound => ?_⟩
  have hjoin := (hsound.refAdd (.lit "D2") (.lit "T") (.lit "V1")).mpr
    ⟨_, List.mem_cons_self, rfl, rfl⟩
  obtain ⟨n, hn, hfor⟩ := List.any_eq_true.mp hjoin
  rw [List.mem_singleton.mp hn, isFor_iff] at hfor
  have hname : CString.lit "V1" = (CField.strncpy (.lit "T") : CField 36).toCString := hfor.2
  exact absurd hname (by decide)

end EzIot.Tsl
