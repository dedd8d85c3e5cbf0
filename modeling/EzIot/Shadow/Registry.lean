import EzIot.Lib.Run
import EzIot.Shadow.Tree

/-! # Consistency of the registry

Registration searches with the names it is given and stores names that may have
been shortened or replaced. `Plain` registrations are those whose names are
stored as they are; over runs of such calls the sibling names stay distinct,
registered keys stay reachable until their device is cleared, and clearing
removes one subtree.
-/

namespace EzIot.Shadow

open CText Nested Run

inductive Call
  | reg (res : ShadowRes) (domainId : CString) (module : List Business)
  | unreg (devSerial : CString)

def registration (res : ShadowRes) (domainId : CString) (module : List Business) : Registration :=
  ⟨res.devSerial.toCString, res.resType.toCString, res.localIndex, domainId, module⟩

/-- `ez_iot_shadow_reg` and `ez_iot_shadow_unreg` on an initialised module. -/
def Call.apply (own : CString) (g : Modules) : Call → Modules
  | .reg res domainId module => (shadowCoreModuleAddv3 own (registration res domainId module) g).2
  | .unreg devSerial => shadowCoreModuleClear own devSerial g

/-! ## Distinct names -/

def NodeDomain.Good (d : NodeDomain) : Prop := Distinct NodeKey.key (fun _ => True) d.keyLst

def NodeIndex.Good (x : NodeIndex) : Prop :=
  Distinct NodeDomain.domainString NodeDomain.Good x.domainLst

def NodeIndexSet.Good (s : NodeIndexSet) : Prop :=
  Distinct NodeIndex.index NodeIndex.Good s.indexLst

def NodeDev.Good (d : NodeDev) : Prop := Distinct NodeIndexSet.type NodeIndexSet.Good d.typeLst

def DistinctNames (g : Modules) : Prop := Distinct NodeDev.devSn NodeDev.Good g

/-- The names of a registration are stored unchanged. -/
structure Registration.Plain (r : Registration) : Prop where
  sn : r.sn.length ≤ 47
  resType : r.resType.length ≠ 0 ∧ r.resType.length ≤ 31
  domainId : r.domainId.length ≤ 31

theorem NodeDomain.Good.addKeys {d : NodeDomain} (h : d.Good) (props : List Business) :
    (d.addKeys props).Good := by
  unfold NodeDomain.Good NodeDomain.addKeys at *
  generalize d.keyLst = lst at h
  induction props generalizing lst with
  | nil => exact h
  | cons b props ih =>
      refine ih _ (h.upsert (k := b.key) ?_ rfl (fun _ => rfl) (fun _ _ => trivial) trivial)
      intro k
      simp only [isKey, decide_eq_true_eq]
      exact ⟨CField.ext, congrArg _⟩

theorem NodeIndex.Good.addDomain {x : NodeIndex} (h : x.Good) {domainId : CString}
    (hfits : domainId.length ≤ 31) (props : List Business) :
    (shadowModuleAddDomain domainId props x).Good := by
  unfold shadowModuleAddDomain
  split
  · exact h
  · refine Distinct.upsert h (k := .strncpy domainId) ?_ rfl (fun _ => rfl)
      (fun d hd => hd.addKeys props) Distinct.nil
    intro d
    simp only [isDomain, decide_eq_true_eq]
    exact CField.toCString_eq_iff hfits d.domainString

theorem NodeIndexSet.Good.addIndex {s : NodeIndexSet} (h : s.Good) (index : Int16)
    {body : NodeIndex → NodeIndex} (hname : ∀ x, (body x).index = x.index)
    (hbody : ∀ x, x.Good → (body x).Good) : (shadowModuleAddIndex index body s).Good := by
  refine Distinct.upsert h (k := index) ?_ rfl hname hbody Distinct.nil
  intro x
  simp only [isIndex, decide_eq_true_eq]
  exact eq_comm

theorem NodeDev.Good.addIndexSet {d : NodeDev} (h : d.Good) {resType : CString}
    (hne : resType.length ≠ 0) (hfits : resType.length ≤ 31) {body : NodeIndexSet → NodeIndexSet}
    (hname : ∀ s, (body s).type = s.type) (hbody : ∀ s, s.Good → (body s).Good) :
    (shadowModuleAddIndexSet resType body d).Good := by
  refine Distinct.upsert h (k := .strncpy resType) ?_ ?_ hname hbody Distinct.nil
  · intro s
    simp only [isType, decide_eq_true_eq]
    exact CField.toCString_eq_iff hfits s.type
  · simp only [newIndexSet, if_neg hne]

theorem DistinctNames.addDev {g : Modules} (h : DistinctNames g) {sn : CString}
    (hfits : sn.length ≤ 47) {body : NodeDev → NodeDev} (hname : ∀ d, (body d).devSn = d.devSn)
    (hbody : ∀ d, d.Good → (body d).Good) : DistinctNames (shadowModuleAddDev sn body g) := by
  refine Distinct.upsert h (k := .strncpy sn) ?_ rfl hname hbody Distinct.nil
  intro d
  simp only [isDev, decide_eq_true_eq]
  exact CField.toCString_eq_iff hfits d.devSn

theorem devName_length {own sn : CString} (h : sn.length ≤ 47) : (devName own sn).length ≤ 47 := by
  unfold devName
  split
  · decide
  · exact h

theorem shadowModuleAddDomain_index (domainId : CString) (props : List Business) (x : NodeIndex) :
    (shadowModuleAddDomain domainId props x).index = x.index := by
  unfold shadowModuleAddDomain
  split <;> rfl

theorem DistinctNames.addv3 {g : Modules} (h : DistinctNames g) (own : CString)
    {r : Registration} (hr : r.Plain) : DistinctNames (shadowCoreModuleAddv3 own r g).2 :=
  h.addDev (devName_length hr.sn) (fun _ => rfl) fun _ hd =>
    hd.addIndexSet hr.resType.1 hr.resType.2 (fun _ => rfl) fun _ hs =>
      hs.addIndex _ (shadowModuleAddDomain_index r.domainId r.props) fun _ hx =>
        hx.addDomain hr.domainId r.props

theorem DistinctNames.clear {g : Modules} (h : DistinctNames g) (own sn : CString) :
    DistinctNames (shadowCoreModuleClear own sn g) := h.eraseP

theorem shadowCoreModuleClear_eq_filter {g : Modules} (h : DistinctNames g) (own sn : CString) :
    shadowCoreModuleClear own sn g =
      g.filter fun d => d.devSn.toCString ≠ devName own sn := by
  by_cases hex : ∃ d ∈ g, isDev (devName own sn) d = true
  · rcases hex with ⟨d, -, hd⟩
    have hall : ∀ a, isDev (devName own sn) a = true → a.devSn = d.devSn := by
      intro a ha
      simp only [isDev, decide_eq_true_eq] at ha hd
      exact CField.ext (ha.trans hd.symm)
    rw [shadowCoreModuleClear, h.eraseP_eq_filter hall]
    simp [isDev]
  · have hnone : ∀ d ∈ g, ¬ isDev (devName own sn) d = true := fun d hd hm => hex ⟨d, hd, hm⟩
    rw [shadowCoreModuleClear, List.eraseP_of_forall_not hnone, eq_comm, List.filter_eq_self]
    intro d hd
    have := hnone d hd
    simpa [isDev] using this

/-! ## Reachable keys -/

def NodeDomain.Has (key : CString) (d : NodeDomain) : Prop :=
  Hits (isKey key) (fun _ => True) d.keyLst

def NodeIndex.Has (domainId key : CString) (x : NodeIndex) : Prop :=
  Hits (isDomain domainId) (NodeDomain.Has key) x.domainLst

def NodeIndexSet.Has (index : Int16) (domainId key : CString) (s : NodeIndexSet) : Prop :=
  Hits (isIndex index) (NodeIndex.Has domainId key) s.indexLst

def NodeDev.Has (resType : CString) (index : Int16) (domainId key : CString) (d : NodeDev) :
    Prop :=
  Hits (isType resType) (NodeIndexSet.Has index domainId key) d.typeLst

def Has (devSn resType : CString) (index : Int16) (domainId key : CString) (g : Modules) : Prop :=
  Hits (isDev devSn) (NodeDev.Has resType index domainId key) g

theorem findKeyNode_of_has {g : Modules} {devSn resType domainId key : CString} {index : Int16}
    (h : Has devSn resType index domainId key g) :
    ∃ p k, findKeyNode g devSn resType index domainId key = .ok (p, k) := by
  obtain ⟨d, hd, s, hs, x, hx, m, hm, k, hk, -⟩ := h
  refine ⟨(g.findIdx (isDev devSn), d.typeLst.findIdx (isType resType),
    s.indexLst.findIdx (isIndex index), x.domainLst.findIdx (isDomain domainId),
    m.keyLst.findIdx (isKey key), ()), k, ?_⟩
  simp only [findKeyNode, findIndexNode, shadowModuleFindDev, shadowModuleFindIndexs,
    shadowModuleFindIndex, shadowModuleFindDomain, shadowModuleFindKey, locate_of_find? hd,
    locate_of_find? hs, locate_of_find? hx, locate_of_find? hm, locate_of_find? hk]

theorem push_succ_of_has {g : Modules} {own sn resType domainId key : CString} {index : Int16}
    (h : Has (devName own sn) resType index domainId key g) (value : Option ShadowValue) :
    (shadowCorePropertieChanged own sn resType index domainId key value g).1 = .succ := by
  rcases findKeyNode_of_has h with ⟨⟨i, j, k, m, n, u⟩, node, hfind⟩
  simp only [shadowCorePropertieChanged, hfind]

/-! ### A registration makes its keys reachable -/

/-- Adding keys never loses one and makes the listed ones reachable. -/
theorem NodeDomain.Has.addKeys {d : NodeDomain} {key : CString} (props : List Business)
    (h : d.Has key ∨ ∃ b ∈ props, b.key.toCString = key) : (d.addKeys props).Has key := by
  unfold NodeDomain.Has NodeDomain.addKeys at *
  generalize d.keyLst = lst at h
  induction props generalizing lst with
  | nil => simpa using h
  | cons b props ih =>
      refine ih _ ?_
      rcases h with hold | ⟨c, hc, hkey⟩
      · exact .inl (hold.upsert (fun _ => rfl) fun _ _ => trivial)
      · rcases List.mem_cons.mp hc with rfl | hmem
        · subst hkey
          refine .inl (Hits.upsert_self ?_ ?_ (fun _ _ => trivial) lst)
          · exact decide_eq_true rfl
          · exact fun _ hk => hk
        · exact .inr ⟨c, hmem, hkey⟩

theorem NodeIndex.Has.addDomain_self {domainId key : CString} (hfits : domainId.length ≤ 31)
    {props : List Business} (hkey : ∃ b ∈ props, b.key.toCString = key) (x : NodeIndex) :
    (shadowModuleAddDomain domainId props x).Has domainId key := by
  have hne : props ≠ [] := by
    rcases hkey with ⟨b, hb, -⟩
    exact List.ne_nil_of_mem hb
  simp only [shadowModuleAddDomain, if_neg hne]
  refine Hits.upsert_self ?_ ?_ ?_ x.domainLst
  · exact decide_eq_true (CField.strncpy_of_fits hfits)
  · exact fun _ hd => hd
  · exact fun _ _ => .addKeys props (.inr hkey)

theorem Has.addv3_self {own : CString} {r : Registration} (hr : r.Plain) {key : CString}
    (hkey : ∃ b ∈ r.props, b.key.toCString = key) (g : Modules) :
    Has (devName own r.sn) r.resType r.index r.domainId key (shadowCoreModuleAddv3 own r g).2 := by
  refine Hits.upsert_self ?_ ?_ (fun d _ => ?_) g
  · exact decide_eq_true (CField.strncpy_of_fits (devName_length hr.sn))
  · exact fun _ hd => hd
  refine Hits.upsert_self ?_ ?_ (fun s _ => ?_) d.typeLst
  · simpa [isType, newIndexSet, shadowModuleAddIndex, if_neg hr.resType.1] using
      CField.strncpy_of_fits hr.resType.2
  · exact fun _ hs => hs
  refine Hits.upsert_self ?_ ?_ (fun x _ => .addDomain_self hr.domainId hkey x) s.indexLst
  · simp [isIndex, shadowModuleAddDomain_index, newIndex]
  · intro x hx
    simpa [isIndex, shadowModuleAddDomain_index] using hx

/-! ### Later calls keep them reachable -/

section Kept

variable {domainId key : CString} {index : Int16}

theorem NodeIndex.Has.addDomain {x : NodeIndex} (h : x.Has domainId key) (domainId' : CString)
    (props : List Business) : (shadowModuleAddDomain domainId' props x).Has domainId key := by
  unfold shadowModuleAddDomain
  split
  · exact h
  · exact Hits.upsert h (fun _ => rfl) fun _ hd => .addKeys props (.inl hd)

theorem NodeIndexSet.Has.addIndex {s : NodeIndexSet} (h : s.Has index domainId key)
    (r : Registration) :
    (shadowModuleAddIndex r.index (shadowModuleAddDomain r.domainId r.props) s).Has
      index domainId key := by
  refine Hits.upsert h (fun x => ?_) fun _ hx => hx.addDomain _ _
  simp [isIndex, shadowModuleAddDomain_index]

theorem Has.addv3 {devSn resType : CString} {g : Modules}
    (h : Has devSn resType index domainId key g) (own : CString) (r : Registration) :
    Has devSn resType index domainId key (shadowCoreModuleAddv3 own r g).2 :=
  Hits.upsert h (fun _ => rfl) fun _ hd =>
    Hits.upsert hd (fun _ => rfl) fun _ hs => hs.addIndex r

theorem Has.clear {devSn resType : CString} {g : Modules}
    (h : Has devSn resType index domainId key g) {own sn : CString}
    (hne : devName own sn ≠ devSn) :
    Has devSn resType index domainId key (shadowCoreModuleClear own sn g) := by
  refine Hits.eraseP h fun d hd => ?_
  simp only [isDev, decide_eq_true_eq, decide_eq_false_iff_not] at hd ⊢
  exact fun heq => hne (hd.symm.trans heq)

end Kept

/-! ## Runs -/

/-- A call that stores its names as given: the resource type is not empty and
the domain fits its field. -/
def Call.Plain : Call → Prop
  | .reg res domainId _ => res.resType.length ≠ 0 ∧ domainId.length ≤ 31
  | .unreg _ => True

instance : DecidablePred Call.Plain
  | .reg res domainId _ =>
      inferInstanceAs (Decidable (res.resType.length ≠ 0 ∧ domainId.length ≤ 31))
  | .unreg _ => inferInstanceAs (Decidable True)

def Call.Clears (own devSn : CString) : Call → Prop
  | .reg _ _ _ => False
  | .unreg sn => devName own sn = devSn

theorem registration_plain {res : ShadowRes} {domainId : CString} {module : List Business}
    (h : (Call.reg res domainId module).Plain) : (registration res domainId module).Plain where
  sn := Nat.le_of_lt_succ res.devSerial.fits
  resType := ⟨h.1, Nat.le_of_lt_succ res.resType.fits⟩
  domainId := h.2

theorem DistinctNames.apply {g : Modules} (h : DistinctNames g) (own : CString) {c : Call}
    (hc : c.Plain) : DistinctNames (c.apply own g) := by
  cases c with
  | reg res domainId module => exact h.addv3 own (registration_plain hc)
  | unreg sn => exact h.clear own sn

theorem Has.apply {devSn resType domainId key : CString} {index : Int16} {g : Modules}
    (h : Has devSn resType index domainId key g) {own : CString} {c : Call}
    (hc : ¬ c.Clears own devSn) : Has devSn resType index domainId key (c.apply own g) := by
  cases c with
  | reg res domainId module => exact h.addv3 own _
  | unreg sn => exact h.clear hc

section Runs

variable {own : CString} {calls : List Call}

/-- The tree before call `n` of a run from the empty registry. -/
abbrev treeAt (own : CString) (calls : List Call) (n : Nat) : Modules :=
  stateAt (Call.apply own) [] calls n

theorem distinctNames_treeAt (hplain : ∀ c ∈ calls, c.Plain) {n : Nat} (hn : n ≤ calls.length) :
    DistinctNames (treeAt own calls n) := by
  refine stateAt_induction (Call.apply own) (I := fun _ g => DistinctNames g) Distinct.nil ?_ n hn
  intro m c hc hg
  exact hg.apply own (hplain c (List.mem_of_getElem? hc))

theorem has_treeAt {devSn resType domainId key : CString} {index : Int16} {n m : Nat}
    (hstart : Has devSn resType index domainId key (treeAt own calls n)) (hnm : n ≤ m)
    (hm : m ≤ calls.length)
    (hkept : ∀ k c, n ≤ k → k < m → calls[k]? = some c → ¬ c.Clears own devSn) :
    Has devSn resType index domainId key (treeAt own calls m) := by
  induction m, hnm using Nat.le_induction with
  | base => exact hstart
  | succ m hnm ih =>
      have hget : calls[m]? = some calls[m] := List.getElem?_eq_getElem hm
      have hbefore := ih (by omega) fun k c hk hkm => hkept k c hk (by omega)
      rw [treeAt, stateAt_succ _ hget]
      exact hbefore.apply (hkept m _ hnm (by omega) hget)

end Runs

/-- What the registry promises over a run of calls. -/
structure RegistryConsistent (own : CString) (calls : List Call) : Prop where
  distinct : ∀ n, n ≤ calls.length → DistinctNames (treeAt own calls n)
  reachable : ∀ n res domainId module, calls[n]? = some (.reg res domainId module) →
    (shadowCoreModuleAddv3 own (registration res domainId module) (treeAt own calls n)).1 = .succ →
    ∀ m, n < m → m ≤ calls.length →
    (∀ k c, n < k → k < m → calls[k]? = some c →
      ¬ c.Clears own (devName own res.devSerial.toCString)) →
    ∀ b ∈ module, ∀ value, (shadowCorePropertieChanged own res.devSerial.toCString
      res.resType.toCString res.localIndex domainId b.key.toCString value
      (treeAt own calls m)).1 = .succ
  cleared : ∀ n sn, calls[n]? = some (.unreg sn) →
    treeAt own calls (n + 1) =
      (treeAt own calls n).filter fun d => d.devSn.toCString ≠ devName own sn

def sampleRes (resType : CField 32) : ShadowRes := ⟨.strncpy (.lit "SUB1"), resType, 0⟩

def sampleBusiness : Business := ⟨.strncpy (.lit "power"), none, some 1⟩

end EzIot.Shadow
