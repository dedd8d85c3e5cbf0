import EzIot.Shadow.Tree

/-! # What the operations do to one key

Each operation on the tree, seen at one path: which keys it writes and what it
leaves alone.
-/

namespace EzIot.Shadow

open CText Nested

/-! ## Resets and pushes -/

section Paths

variable {g : Modules}

theorem keyAt_reset (q : KeyPath) :
    keyAt (shadowStatusReset g) q =
      (keyAt g q).map fun k => { k with needReport := true } := by
  refine itemAt_map (fun dev p => ?_) g q
  refine itemAt_map (fun t p => ?_) dev.typeLst p
  refine itemAt_map (fun x p => ?_) t.indexLst p
  refine itemAt_map (fun d p => ?_) x.domainLst p
  exact itemAt_map (fun k p => rfl) d.keyLst p

/-- The write of a push, as the nested updates it is. -/
def pushAt (value : Option ShadowValue) (g : Modules) : KeyPath → Modules
  | (i, j, k, m, n, _) => modifyIndex g i j k fun x =>
      { NodeIndex.modifyKey m n (NodeKey.changed value) x with syncTimer := .zero }

theorem keyAt_pushAt (value : Option ShadowValue) (q : KeyPath) :
    keyAt (pushAt value g q) q = (keyAt g q).map (NodeKey.changed value) := by
  rcases q with ⟨i, j, k, m, n, u⟩
  refine itemAt_modify (fun dev => ?_) g i
  refine itemAt_modify (fun t => ?_) dev.typeLst j
  refine itemAt_modify (fun x => ?_) t.indexLst k
  refine itemAt_modify (fun d => ?_) x.domainLst m
  exact itemAt_modify (fun _ => rfl) d.keyLst n

theorem keyAt_pushAt_of_ne (value : Option ShadowValue) {p q : KeyPath} (hne : q ≠ p) :
    keyAt (pushAt value g p) q = keyAt g q := by
  obtain ⟨i, j, k, m, n, u⟩ := p
  refine itemAt_modify_of_ne (fun dev p hp => ?_) g i hne
  refine itemAt_modify_of_ne (fun t p hp => ?_) dev.typeLst j hp
  refine itemAt_modify_of_ne (fun x p hp => ?_) t.indexLst k hp
  refine itemAt_modify_of_ne (fun d p hp => ?_) x.domainLst m hp
  exact itemAt_modify_of_ne (fun _ _ hq => absurd rfl hq) d.keyLst n hp

theorem propertieChanged_eq (own sn resType : CString) (index : Int16) (domainId pkey : CString)
    (value : Option ShadowValue) :
    (shadowCorePropertieChanged own sn resType index domainId pkey value g).2 =
      match findKeyNode g (devName own sn) resType index domainId pkey with
      | .error _ => g
      | .ok (p, _) => pushAt value g p := by
  unfold shadowCorePropertieChanged
  cases findKeyNode g (devName own sn) resType index domainId pkey with
  | error e => rfl
  | ok r => rfl

theorem keyAt_of_findKeyNode {devSn resType domainId key : CString} {index : Int16} {q : KeyPath}
    {k : NodeKey} (h : findKeyNode g devSn resType index domainId key = .ok (q, k)) :
    keyAt g q = some k := by
  unfold findKeyNode findIndexNode at h
  split at h
  next => cases h
  next _ i j c x hfind =>
    split at hfind
    next => cases hfind
    next i' dev hdev =>
      split at hfind
      next => cases hfind
      next j' t ht =>
        split at hfind
        next => cases hfind
        next c' x' hx =>
          cases hfind
          split at h
          next => cases h
          next m d hd =>
            split at h
            next => cases h
            next n k' hk =>
              cases h
              simp only [keyAt, itemAt, NodeDev.keyAt, NodeIndexSet.keyAt, NodeIndex.keyAt,
                NodeDomain.keyAt, getElem?_of_locate hdev, getElem?_of_locate ht,
                getElem?_of_locate hx, getElem?_of_locate hd, getElem?_of_locate hk,
                Option.bind_some]

/-! ## Registrations -/

/-- A write that leaves the number of the last report alone. -/
def KeepsSeq (k k' : NodeKey) : Prop := k'.msgSeq = k.msgSeq

def NoSeq (k : NodeKey) : Prop := k.msgSeq = 0

theorem keepsSeq_refl (k : NodeKey) : KeepsSeq k k := rfl

theorem newDomain_keyAt (domainId : CString) (p : Nat × Unit) :
    (newDomain domainId).keyAt p = none := itemAt_nil _ p

theorem newIndex_keyAt (index : Int16) (p : Nat × Nat × Unit) :
    (newIndex index).keyAt p = none := itemAt_nil _ p

theorem newIndexSet_keyAt (resType : CString) (p : Nat × Nat × Nat × Unit) :
    (newIndexSet resType).keyAt p = none := itemAt_nil _ p

theorem newDev_keyAt (sn : CString) (p : Nat × Nat × Nat × Nat × Unit) :
    (newDev sn).keyAt p = none := itemAt_nil _ p

/-- The keys of a domain that a registration writes. -/
def NodeDomain.Writes (props : List Business) (d : NodeDomain) (p : Nat × Unit) : Prop :=
  ∃ k ∈ (d.addKeys props).keyLst[p.1]?, ∃ b ∈ props, k.key = b.key

def NodeIndex.Writes (r : Registration) (x : NodeIndex) : Nat × Nat × Unit → Prop :=
  UpsertAt (isDomain r.domainId) (newDomain r.domainId) (NodeDomain.Writes r.props) x.domainLst

def NodeIndexSet.Writes (r : Registration) (s : NodeIndexSet) : Nat × Nat × Nat × Unit → Prop :=
  UpsertAt (isIndex r.index) (newIndex r.index) (NodeIndex.Writes r) s.indexLst

def NodeDev.Writes (r : Registration) (d : NodeDev) : Nat × Nat × Nat × Nat × Unit → Prop :=
  UpsertAt (isType r.resType) (newIndexSet r.resType) (NodeIndexSet.Writes r) d.typeLst

/-- The keys that a registration writes: those of the domain it finds or adds,
under one of its property names. -/
def Registration.Writes (own : CString) (r : Registration) (g : Modules) : KeyPath → Prop :=
  UpsertAt (isDev (devName own r.sn)) (newDev (devName own r.sn)) (NodeDev.Writes r) g

theorem addKey_at (lst : List NodeKey) (b : Business) (n : Nat) :
    (addKey lst b)[n]? = lst[n]? ∨ ∃ k, (addKey lst b)[n]? = some k ∧ k.key = b.key := by
  unfold addKey
  rw [getElem?_upsert]
  split
  · rename_i hn
    cases hfind : lst.find? (isKey b.key.toCString) with
    | none => exact .inr ⟨_, rfl, rfl⟩
    | some k =>
        have hkey : k.key = b.key := CField.ext (by simpa [isKey] using List.find?_some hfind)
        exact .inr ⟨_, rfl, hkey⟩
  · exact .inl rfl

theorem addKeys_at (props : List Business) (lst : List NodeKey) (n : Nat) :
    (props.foldl addKey lst)[n]? = lst[n]? ∨
      ∃ k, (props.foldl addKey lst)[n]? = some k ∧ ∃ b ∈ props, k.key = b.key := by
  induction props generalizing lst with
  | nil => exact .inl rfl
  | cons b props ih =>
      rw [List.foldl_cons]
      rcases ih (addKey lst b) with hrest | ⟨k, hget, c, hc, hkey⟩
      · rcases addKey_at lst b n with hsame | ⟨k, hget, hkey⟩
        · exact .inl (hrest.trans hsame)
        · exact .inr ⟨k, hrest.trans hget, b, List.mem_cons_self, hkey⟩
      · exact .inr ⟨k, hget, c, List.mem_cons_of_mem b hc, hkey⟩

theorem NodeDomain.keyAt_eq (d : NodeDomain) (p : Nat × Unit) : d.keyAt p = d.keyLst[p.1]? := by
  simp [NodeDomain.keyAt, itemAt]

theorem addKeys_unchanged {props : List Business} {d : NodeDomain} {p : Nat × Unit}
    (h : ¬ d.Writes props p) : (d.addKeys props).keyAt p = d.keyAt p := by
  rw [NodeDomain.keyAt_eq, NodeDomain.keyAt_eq]
  rcases addKeys_at props d.keyLst p.1 with hsame | ⟨k, hget, hname⟩
  · exact hsame
  · exact absurd ⟨k, hget, hname⟩ h

section Extending

variable {R : NodeKey → NodeKey → Prop} {F : NodeKey → Prop} (hrefl : ∀ k, R k k)
  (htrans : ∀ k₁ k₂ k₃, R k₁ k₂ → R k₂ k₃ → R k₁ k₃) (hF : ∀ k k', F k → R k k' → F k')
  (hwrite : ∀ b k, R k (k.reRegister b)) (hnew : ∀ b, F ((newKey b).reRegister b))

include hrefl htrans hF hwrite hnew

theorem addKeys_extends (props : List Business) (d : NodeDomain) (p : Nat × Unit) :
    Extends R F (d.keyAt p) ((d.addKeys props).keyAt p) := by
  rw [NodeDomain.keyAt_eq, NodeDomain.keyAt_eq]
  change Extends R F d.keyLst[p.1]? (props.foldl addKey d.keyLst)[p.1]?
  generalize d.keyLst = lst
  induction props generalizing lst with
  | nil => exact Extends.refl hrefl _
  | cons b props ih =>
      refine Extends.trans htrans hF ?_ (ih (addKey lst b))
      unfold addKey
      rw [getElem?_upsert]
      split
      next hn =>
        rw [hn, ← List.find?_eq_getElem?_findIdx]
        cases lst.find? (isKey b.key.toCString) with
        | none => exact .added (hnew b)
        | some k => exact .kept (hwrite b k)
      next => exact Extends.refl hrefl _

/-- What a registration does to the keys, if it is right for each of its writes. -/
theorem keyAt_addv3_rel (own : CString) (r : Registration) (q : KeyPath) :
    Extends R F (keyAt g q) (keyAt (shadowCoreModuleAddv3 own r g).2 q) := by
  refine itemAt_upsert hrefl (fun d p => ?_) (newDev_keyAt _) g q
  refine itemAt_upsert hrefl (fun s p => ?_) (newIndexSet_keyAt _) d.typeLst p
  refine itemAt_upsert hrefl (fun x p => ?_) (newIndex_keyAt _) s.indexLst p
  unfold shadowModuleAddDomain
  split
  · exact Extends.refl hrefl _
  · exact itemAt_upsert hrefl (addKeys_extends hrefl htrans hF hwrite hnew r.props)
      (newDomain_keyAt _) x.domainLst p

end Extending

theorem addDomain_unchanged {r : Registration} {x : NodeIndex} {p : Nat × Nat × Unit}
    (h : ¬ x.Writes r p) : (shadowModuleAddDomain r.domainId r.props x).keyAt p = x.keyAt p := by
  unfold shadowModuleAddDomain
  split
  · rfl
  · exact itemAt_upsert_of_not (fun _ _ => addKeys_unchanged) (newDomain_keyAt _) h

/-- A registration leaves every key alone that it does not write. -/
theorem keyAt_addv3_unchanged {own : CString} {r : Registration} {q : KeyPath}
    (h : ¬ r.Writes own g q) : keyAt (shadowCoreModuleAddv3 own r g).2 q = keyAt g q := by
  refine itemAt_upsert_of_not (fun d p hp => ?_) (newDev_keyAt _) h
  refine itemAt_upsert_of_not (fun s p hp => ?_) (newIndexSet_keyAt _) hp
  exact itemAt_upsert_of_not (fun x p hp => addDomain_unchanged hp) (newIndex_keyAt _) hp

/-- A registration never writes `msg_seq` of an existing key. -/
theorem keyAt_addv3_extends (own : CString) (r : Registration) (q : KeyPath) :
    Extends KeepsSeq NoSeq (keyAt g q) (keyAt (shadowCoreModuleAddv3 own r g).2 q) :=
  keyAt_addv3_rel keepsSeq_refl (fun _ _ _ h₁ h₂ => Eq.trans h₂ h₁) (fun _ _ hf hr => Eq.trans hr hf)
    (fun _ _ => rfl) (fun _ => rfl) own r q

end Paths

/-! ## Traversals -/

section Sweep

variable {σ : Type} {L : σ → σ → Prop} {R : σ → NodeKey → NodeKey → Prop}

/-- The traversal rule for the nested loops over the keys. -/
theorem keyAt_sweepKeys
    {f : CField 48 → CField 32 → Int16 → CField 32 → σ → NodeKey → σ × NodeKey × Bool}
    (hle : ∀ s, L s s) (htrans : ∀ s t u, L s t → L t u → L s u) (hR : ∀ s k, R s k k)
    (hmono : ∀ s t k k', L s t → R s k k' → R t k k')
    (h : ∀ devSn type index domain s k, L s (f devSn type index domain s k).1 ∧
      R (f devSn type index domain s k).1 k (f devSn type index domain s k).2.1)
    (s : σ) (g : Modules) :
    L s (sweepKeys f s g).1 ∧ ∀ q, Extends (R (sweepKeys f s g).1) (fun _ => False)
      (keyAt g q) (keyAt (sweepKeys f s g).2.1 q) := by
  refine itemAt_sweep hle htrans hR hmono (fun s dev => ?_) g s
  refine itemAt_sweep hle htrans hR hmono (fun s t => ?_) dev.typeLst s
  refine itemAt_sweep hle htrans hR hmono (fun s x => ?_) t.indexLst s
  refine itemAt_sweep hle htrans hR hmono (fun s d => ?_) x.domainLst s
  refine itemAt_sweep hle htrans hR hmono (fun s k => ?_) d.keyLst s
  rcases h dev.devSn t.type x.index d.domainString s k with ⟨hstep, hkey⟩
  exact ⟨hstep, fun _ => .kept hkey⟩

end Sweep

/-- An acknowledgement writes only keys that wait for its number. -/
theorem keyAt_reply2report (seq : UInt32) (code : Int) (g : Modules) (q : KeyPath) :
    Extends (fun k k' => k' = k ∨ k.msgSeq = seq ∧ k' = k.acknowledged code) (fun _ => False)
      (keyAt g q) (keyAt (shadowReply2report seq code g) q) := by
  refine (keyAt_sweepKeys (L := fun _ _ => True)
    (R := fun _ k k' => k' = k ∨ k.msgSeq = seq ∧ k' = k.acknowledged code) (fun _ => trivial)
    (fun _ _ _ _ _ => trivial) (fun _ _ => .inl rfl) (fun _ _ _ _ _ hr => hr)
    (fun _ _ _ _ _ k => ⟨trivial, ?_⟩) () g).2 q
  by_cases hseq : k.msgSeq = seq
  · simp [hseq]
  · simp [hseq]

end EzIot.Shadow
