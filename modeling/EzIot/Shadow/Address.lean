import Mathlib.Data.List.Induction
import Mathlib.Data.List.Nodup
import EzIot.CJson.Print
import EzIot.Shadow.Registry
import EzIot.Shadow.Route

/-! # Addresses of index nodes

Reports, queries and replies name an index node by three texts: serial, resource
type and index. A message of the cloud carries the same three texts back, and the
searches behind `shadow_data_route_cb` have to end at the node they were printed
for. They do as long as the resource types of one device have distinct names.
-/

namespace EzIot.Shadow

open CText CJson Nested Kernel

/-! ## What is sent and what comes back -/

/-- `ezos_sprintf(dst, "%d", i)`. -/
def sprintfD (i : Int) : Bytes :=
  if i < 0 then ch '-' :: decimal i.natAbs else decimal i.natAbs

/-- `sub_serial`, `resource_type` and `resource_id` of a message. -/
structure Address where
  subSerial : CField 72
  resourceType : CField 64
  resourceId : CField 64
deriving DecidableEq

/-- The address of a published message. The printed index has at most eleven
characters, so the copy never shortens it. -/
def pubAddress (devsn : CField 48) (resType : CField 32) (index : Int) : Address where
  subSerial := .strncpy devsn.toCString
  resourceType := .strncpy resType.toCString
  resourceId := .strncpy (.ofMem (sprintfD index))

/-- The address in `shadow_protocol_query_desired`, called for an index node. -/
def queryDesiredAddress (dev : NodeDev) (s : NodeIndexSet) (x : NodeIndex) : Address :=
  pubAddress dev.devSn s.type x.index.toInt

def Report.address (r : Report) : Address where
  subSerial := r.subSerial
  resourceType := r.resourceType
  resourceId := .strncpy (.ofMem (sprintfD r.resourceId.toNat))

/-- The address in `shadow_protocol_set_reply`. -/
def SetReply.address (r : SetReply) : Address :=
  pubAddress r.res.devSerial r.res.resType r.res.localIndex.toInt

/-- The address that a message of the cloud carries. -/
def messageAddress (m : SubmsgV3) : Address := ⟨m.subSerial, m.resourceType, m.resourceId⟩

def messageTo (a : Address) : SubmsgV3 where
  buf := none
  bufLen := 0
  msgSeq := 0
  resourceId := a.resourceId
  resourceType := a.resourceType
  module := .strncpy (.lit "basic")
  method := .strncpy (.lit "shadow")
  msgType := .strncpy (.lit "query_reply")
  subSerial := a.subSerial
  extMsg := .strncpy (.lit "")

/-- The resource that `shadow_data_route_cb` reads off a message. -/
def routeRes (m : SubmsgV3) : ShadowRes where
  devSerial := .strncpy (if m.subSerial.length = 0 then defaultName else m.subSerial.toCString)
  resType := .strncpy m.resourceType.toCString
  localIndex := Int16.ofInt (atoi m.resourceId.val)

theorem shadowDataRouteCb_eq {app : App} {m : SubmsgV3} (h : m.method.toCString = .lit "shadow")
    (g : Modules) : shadowDataRouteCb app m g =
      shadowCoreCloudDataIn app (some (routeRes m)) m.msgSeq m.msgType.toCString m.buf g :=
  if_pos h

/-- The index node behind a position, with the nodes above it. -/
def indexAt (g : Modules) : Nat × Nat × Nat → Option (NodeDev × NodeIndexSet × NodeIndex)
  | (i, j, k) =>
      g[i]?.bind fun dev => dev.typeLst[j]?.bind fun s => s.indexLst[k]?.map fun x => (dev, s, x)

/-- What addressing promises of a tree. -/
structure AddressesFaithful (g : Modules) : Prop where
  /-- reports carry the address of the query -/
  report : ∀ p dev s x, indexAt g p = some (dev, s, x) → ∀ domain key value ver seq,
    (shadowProtocolReport dev.devSn s.type x.index domain key value ver seq).address =
      queryDesiredAddress dev s x
  /-- and so does the reply to a message for the node -/
  reply : ∀ p dev s x, indexAt g p = some (dev, s, x) → ∀ app m,
    m.method.toCString = .lit "shadow" → messageAddress m = queryDesiredAddress dev s x →
    ∀ r, (shadowDataRouteCb app m g).reply = some r → r.address = queryDesiredAddress dev s x
  injective : ∀ p q dev s x dev' s' x', indexAt g p = some (dev, s, x) →
    indexAt g q = some (dev', s', x') →
    queryDesiredAddress dev s x = queryDesiredAddress dev' s' x' → p = q
  /-- the searches of `do_set` and `shadow_status_sync_disable` end at the node -/
  resolved : ∀ p dev s x, indexAt g p = some (dev, s, x) → ∀ m : SubmsgV3,
    messageAddress m = queryDesiredAddress dev s x →
    findIndexNode g (routeRes m).devSerial.toCString (routeRes m).resType.toCString
      (routeRes m).localIndex = .ok (p, x)
  /-- so `do_set` works as if the registry held this node alone -/
  set : ∀ p dev s x, indexAt g p = some (dev, s, x) → ∀ m : SubmsgV3,
    messageAddress m = queryDesiredAddress dev s x → ∀ app domain key value,
    doSet app (routeRes m) domain key value g =
      doSet app (routeRes m) domain key value [⟨dev.devSn, [⟨s.type, [x]⟩]⟩]
  /-- and a query reply ends the synchronisation of this node -/
  sync : ∀ p dev s x, indexAt g p = some (dev, s, x) → ∀ m : SubmsgV3,
    messageAddress m = queryDesiredAddress dev s x →
    shadowStatusSyncDisable (routeRes m) g = modifyIndex g p.1 p.2.1 p.2.2 fun x =>
      { x with needSync := false, syncTimer := .zero, retryCount := 0 }

/-! ## The printed index -/

theorem zero_not_mem_sprintfD (i : Int) : (0 : UInt8) ∉ sprintfD i := by
  have hdigits : (0 : UInt8) ∉ decimal i.natAbs := fun h =>
    absurd (isDigit_of_mem_decimal h) (by decide)
  unfold sprintfD
  split
  · intro h
    rcases List.mem_cons.mp h with h0 | h0
    · exact absurd h0 (by decide)
    · exact hdigits h0
  · exact hdigits

theorem atoi_decimal (n : Nat) : atoi (decimal n) = n := by
  have hall : ∀ b ∈ decimal n, isDigit b := fun b => isDigit_of_mem_decimal
  have htake : (decimal n).takeWhile isDigit = decimal n := List.takeWhile_eq_self_iff.mpr hall
  cases hd : decimal n with
  | nil => exact absurd hd (decimal_ne_nil n)
  | cons b t =>
      have hb : isDigit b := isDigit_of_mem_decimal (hd ▸ List.mem_cons_self)
      have hspace : isSpace b = false := by
        simp only [isDigit, Bool.and_eq_true, decide_eq_true_eq, UInt8.le_iff_toNat_le] at hb
        simp only [isSpace, Bool.or_eq_false_iff, beq_eq_false_iff_ne, Bool.and_eq_false_iff,
          decide_eq_false_iff_not, UInt8.le_iff_toNat_le, ne_eq, ← UInt8.toNat_inj]
        simp only [UInt8.reduceToNat] at hb ⊢
        omega
      have hsign : takeSign (b :: t) = (false, b :: t) := by
        have hne : b ≠ 45 ∧ b ≠ 43 := by
          constructor
          · intro h
            subst h
            exact absurd hb (by decide)
          · intro h
            subst h
            exact absurd hb (by decide)
        simp [takeSign, hne.1, hne.2]
      rw [hd] at htake
      have hvalue := digitsValue_decimal n
      rw [hd] at hvalue
      simp [atoi, hspace, hsign, htake, hvalue]

theorem length_sprintfD {i : Int16} (h : 0 ≤ i) : (sprintfD i.toInt).length ≤ 5 := by
  have hnonneg : 0 ≤ i.toInt := Int16.le_iff_toInt_le.mp h
  have hlt : i.toInt < 2 ^ 15 := i.toInt_lt
  rw [sprintfD, if_neg (by omega)]
  exact length_decimal (by decide) (by omega)

/-- The index of a message is the one that was printed. -/
theorem ofInt_atoi_sprintfD {i : Int16} (h : 0 ≤ i) :
    Int16.ofInt (atoi (CField.strncpy (n := 63) (.ofMem (sprintfD i.toInt))).val) = i := by
  have hnonneg : 0 ≤ i.toInt := Int16.le_iff_toInt_le.mp h
  have htext : (CField.strncpy (n := 63) (.ofMem (sprintfD i.toInt))).val = sprintfD i.toInt := by
    change (cstr (sprintfD i.toInt)).take 63 = _
    rw [cstr_of_no_zero (zero_not_mem_sprintfD _)]
    exact List.take_of_length_le (Nat.le_trans (length_sprintfD h) (by decide))
  rw [htext, sprintfD, if_neg (by omega), atoi_decimal]
  have hcast : ((i.toInt.natAbs : Nat) : Int) = i.toInt := by omega
  rw [hcast, Int16.ofInt_toInt]

/-! ## Trees in which every search is unambiguous

`Ready` collects what every registration keeps, whatever its names are: distinct
device names, distinct indexes, no empty name and no empty resource type.
-/

structure NodeIndexSet.Ready (s : NodeIndexSet) : Prop where
  named : s.type.length ≠ 0
  inhabited : s.indexLst ≠ []
  indexes : Distinct NodeIndex.index (fun x => 0 ≤ x.index) s.indexLst

structure NodeDev.Ready (d : NodeDev) : Prop where
  named : d.devSn.length ≠ 0
  types : ∀ s ∈ d.typeLst, s.Ready

def Ready (g : Modules) : Prop := Distinct NodeDev.devSn NodeDev.Ready g

/-- The names of the resource types of a device. -/
def NodeDev.typeNames (d : NodeDev) : List CString := d.typeLst.map fun s => s.type.toCString

section Trees

variable {g : Modules} {i j k : Nat} {dev : NodeDev} {s : NodeIndexSet} {x : NodeIndex}

theorem indexAt_eq_some : indexAt g (i, j, k) = some (dev, s, x) ↔
    g[i]? = some dev ∧ dev.typeLst[j]? = some s ∧ s.indexLst[k]? = some x := by
  constructor
  · intro h
    rcases Option.bind_eq_some_iff.mp h with ⟨dev', hdev, h⟩
    rcases Option.bind_eq_some_iff.mp h with ⟨s', hs, h⟩
    rcases Option.map_eq_some_iff.mp h with ⟨x', hx, heq⟩
    cases heq
    exact ⟨hdev, hs, hx⟩
  · intro ⟨hdev, hs, hx⟩
    simp [indexAt, hdev, hs, hx]

/-- A message with the address of a node is read as the names of that node. -/
theorem routeRes_of_address {m : SubmsgV3} (hdev : dev.Ready) (hs : s.Ready)
    (hx : x ∈ s.indexLst) (h : messageAddress m = queryDesiredAddress dev s x) :
    routeRes m = ⟨dev.devSn, s.type, x.index⟩ := by
  simp only [messageAddress, queryDesiredAddress, pubAddress, Address.mk.injEq] at h
  rcases h with ⟨hserial, htype, hid⟩
  have hdevText : m.subSerial.toCString = dev.devSn.toCString := by
    rw [hserial]
    exact CField.strncpy_of_fits (Nat.le_trans (Nat.le_of_lt dev.devSn.fits) (by decide))
  have htypeText : m.resourceType.toCString = s.type.toCString := by
    rw [htype]
    exact CField.strncpy_of_fits (Nat.le_trans (Nat.le_of_lt s.type.fits) (by decide))
  have hnamed : m.subSerial.length ≠ 0 := by
    rw [hdevText]
    exact hdev.named
  have hindex : Int16.ofInt (atoi m.resourceId.val) = x.index := by
    rw [hid]
    exact ofInt_atoi_sprintfD (hs.indexes.2 x hx)
  unfold routeRes
  rw [if_neg hnamed, hdevText, htypeText, hindex, CField.strncpy_toCString,
    CField.strncpy_toCString]

/-- Below distinct names the chain of searches ends where the names came from. -/
theorem findIndexNode_of_indexAt (hg : Ready g) (htypes : ∀ d ∈ g, d.typeNames.Nodup)
    (h : indexAt g (i, j, k) = some (dev, s, x)) :
    findIndexNode g dev.devSn.toCString s.type.toCString x.index = .ok ((i, j, k), x) := by
  rcases indexAt_eq_some.mp h with ⟨hdev, hs, hx⟩
  have hdevMem : dev ∈ g := List.mem_of_getElem? hdev
  have hsMem : s ∈ dev.typeLst := List.mem_of_getElem? hs
  have hfindDev : shadowModuleFindDev g dev.devSn.toCString = some (i, dev) := by
    refine locate_of_nodup hg.1 (fun d => ?_) hdev
    simp only [isDev, decide_eq_true_eq]
    exact ⟨CField.ext, congrArg _⟩
  have hfindType : shadowModuleFindIndexs dev.typeLst s.type.toCString = some (j, s) := by
    refine locate_of_nodup (htypes dev hdevMem) (fun t => ?_) hs
    simp only [isType, decide_eq_true_eq]
  have hfindIndex : shadowModuleFindIndex s.indexLst x.index = some (k, x) := by
    refine locate_of_nodup ((hg.2 dev hdevMem).types s hsMem).indexes.1 (fun y => ?_) hx
    simp only [isIndex, decide_eq_true_eq]
    exact eq_comm
  simp only [findIndexNode, hfindDev, hfindType, hfindIndex]

/-- The search of `do_set` goes on in the node that the first three searches find. -/
theorem doSet_of_findIndexNode {app : App} {res : ShadowRes} {p : Nat × Nat × Nat}
    {g' : Modules} {p' : Nat × Nat × Nat}
    (h : findIndexNode g res.devSerial.toCString res.resType.toCString res.localIndex = .ok (p, x))
    (h' : findIndexNode g' res.devSerial.toCString res.resType.toCString res.localIndex =
      .ok (p', x)) (domain key : CString) (value : Value) :
    doSet app res domain key value g = doSet app res domain key value g' := by
  unfold doSet findKeyNode
  rw [h, h']
  dsimp only
  cases shadowModuleFindDomain x.domainLst domain with
  | none => rfl
  | some dom =>
      dsimp only
      cases shadowModuleFindKey dom.2.keyLst key with
      | none => rfl
      | some pkey => rfl

theorem findIndexNode_alone (devSn : CField 48) (type : CField 32) (x : NodeIndex) :
    findIndexNode [⟨devSn, [⟨type, [x]⟩]⟩] devSn.toCString type.toCString x.index =
      .ok ((0, 0, 0), x) := by
  simp [findIndexNode, shadowModuleFindDev, shadowModuleFindIndexs, shadowModuleFindIndex, locate,
    isDev, isType, isIndex, List.findIdx_cons]

theorem report_address (hx : 0 ≤ x.index) (domain key : CField 32) (value : Value)
    (ver seq : UInt32) :
    (shadowProtocolReport dev.devSn s.type x.index domain key value ver seq).address =
      queryDesiredAddress dev s x := by
  have hindex : ((x.index.toUInt16.toNat : Nat) : Int) = x.index.toInt := by
    have hnonneg : 0 ≤ x.index.toInt := Int16.le_iff_toInt_le.mp hx
    change (x.index.toBitVec.toNat : Int) = x.index.toBitVec.toInt
    change 0 ≤ x.index.toBitVec.toInt at hnonneg
    have hbound := x.index.toBitVec.isLt
    rw [BitVec.toInt_eq_toNat_cond] at hnonneg ⊢
    split at hnonneg <;> omega
  simp only [Report.address, shadowProtocolReport, queryDesiredAddress, pubAddress, hindex]

theorem reply_res {app : App} {m : SubmsgV3} (hm : m.method.toCString = .lit "shadow")
    {r : SetReply} (h : (shadowDataRouteCb app m g).reply = some r) : r.res = routeRes m := by
  rw [shadowDataRouteCb_eq hm] at h
  unfold shadowCoreCloudDataIn at h
  cases hh : businessHandler m.msgType.toCString with
  | none => simp [hh, Outcome.ignored] at h
  | some hd =>
      cases hd with
      | set2dev =>
          simp only [hh, Option.bind_some] at h
          cases hset : shadowSet2dev app (routeRes m) m.buf g with
          | none => simp [hset, Outcome.fault] at h
          | some result =>
              simp only [hset, Option.map_some, Option.some.injEq] at h
              rw [← h]
      | reply2query =>
          simp only [hh] at h
          split at h
          · simp [Outcome.fault] at h
          · simp at h
      | reply2report =>
          simp only [hh] at h
          split at h
          · simp [Outcome.fault] at h
          · simp at h

theorem addressesFaithful_of_nodup (hg : Ready g) (htypes : ∀ d ∈ g, d.typeNames.Nodup) :
    AddressesFaithful g := by
  -- every part starts from the names the message is read as and the node they lead to
  have hread : ∀ p dev s x, indexAt g p = some (dev, s, x) → ∀ m : SubmsgV3,
      messageAddress m = queryDesiredAddress dev s x →
      routeRes m = ⟨dev.devSn, s.type, x.index⟩ := by
    intro ⟨i, j, k⟩ dev s x h m hm
    rcases indexAt_eq_some.mp h with ⟨hdev, hs, hx⟩
    have hdevReady := hg.2 dev (List.mem_of_getElem? hdev)
    exact routeRes_of_address hdevReady (hdevReady.types s (List.mem_of_getElem? hs))
      (List.mem_of_getElem? hx) hm
  have hfound : ∀ p dev s x, indexAt g p = some (dev, s, x) → ∀ m : SubmsgV3,
      messageAddress m = queryDesiredAddress dev s x →
      findIndexNode g (routeRes m).devSerial.toCString (routeRes m).resType.toCString
        (routeRes m).localIndex = .ok (p, x) := by
    intro ⟨i, j, k⟩ dev s x h m hm
    rw [hread _ _ _ _ h m hm]
    exact findIndexNode_of_indexAt hg htypes h
  refine ⟨?_, ?_, ?_, hfound, ?_, ?_⟩
  · intro ⟨i, j, k⟩ dev s x h domain key value ver seq
    rcases indexAt_eq_some.mp h with ⟨hdev, hs, hx⟩
    have hready := (hg.2 dev (List.mem_of_getElem? hdev)).types s (List.mem_of_getElem? hs)
    exact report_address (hready.indexes.2 x (List.mem_of_getElem? hx)) domain key value ver seq
  · intro p dev s x h app m hmethod hm r hr
    rw [SetReply.address, reply_res hmethod hr, hread p dev s x h m hm, queryDesiredAddress]
  · intro p q dev s x dev' s' x' hp hq heq
    have hfirst := hfound p dev s x hp (messageTo (queryDesiredAddress dev s x)) rfl
    have hsecond := hfound q dev' s' x' hq (messageTo (queryDesiredAddress dev s x)) heq
    rw [hfirst] at hsecond
    exact congrArg Prod.fst (Except.ok.inj hsecond)
  · intro p dev s x h m hm app domain key value
    have halone : findIndexNode [⟨dev.devSn, [⟨s.type, [x]⟩]⟩] (routeRes m).devSerial.toCString
        (routeRes m).resType.toCString (routeRes m).localIndex = .ok ((0, 0, 0), x) := by
      rw [hread p dev s x h m hm]
      exact findIndexNode_alone dev.devSn s.type x
    exact doSet_of_findIndexNode (hfound p dev s x h m hm) halone domain key value
  · intro p dev s x h m hm
    unfold shadowStatusSyncDisable
    rw [hfound p dev s x h m hm]

/-- Two resource types of one name hide the nodes of the second. -/
theorem nodup_of_addressesFaithful (hg : Ready g) (h : AddressesFaithful g) :
    ∀ d ∈ g, d.typeNames.Nodup := by
  intro d hd
  rcases List.getElem?_of_mem hd with ⟨i, hi⟩
  have hready := hg.2 d hd
  rw [List.nodup_iff_getElem?_ne_getElem?]
  intro j j' hjj hj' heq
  rw [NodeDev.typeNames, List.getElem?_map, List.getElem?_map] at heq
  have hlen : j' < d.typeLst.length := by simpa [NodeDev.typeNames] using hj'
  have hsecond : d.typeLst[j']? = some d.typeLst[j'] := List.getElem?_eq_getElem hlen
  have hfirst : d.typeLst[j]? = some d.typeLst[j] := List.getElem?_eq_getElem (by omega)
  rw [hfirst, hsecond, Option.map_some, Option.map_some, Option.some.injEq] at heq
  have hs := hready.types _ (List.mem_of_getElem? hsecond)
  obtain ⟨x, hx⟩ : ∃ x, d.typeLst[j'].indexLst[0]? = some x := by
    cases hl : d.typeLst[j'].indexLst with
    | nil => exact absurd hl hs.inhabited
    | cons x l => exact ⟨x, rfl⟩
  have hat : indexAt g (i, j', 0) = some (d, d.typeLst[j'], x) :=
    indexAt_eq_some.mpr ⟨hi, hsecond, hx⟩
  have hfound := h.resolved (i, j', 0) d d.typeLst[j'] x hat
    (messageTo (queryDesiredAddress d d.typeLst[j'] x)) rfl
  rw [routeRes_of_address hready hs (List.mem_of_getElem? hx) rfl] at hfound
  have hdev : shadowModuleFindDev g d.devSn.toCString = some (i, d) := by
    refine locate_of_nodup hg.1 (fun e => ?_) hi
    simp only [isDev, decide_eq_true_eq]
    exact ⟨CField.ext, congrArg _⟩
  -- the search for the type stops at the first of the two
  have hidx : d.typeLst.findIdx (isType d.typeLst[j'].type.toCString) ≤ j := by
    by_contra hgt
    have hnot := List.not_of_lt_findIdx (Nat.lt_of_not_le hgt)
    simp [isType, heq] at hnot
  simp only [findIndexNode, hdev, shadowModuleFindIndexs, locate] at hfound
  cases hfind : d.typeLst.find? (isType d.typeLst[j'].type.toCString) with
  | none => simp [hfind] at hfound
  | some t =>
      simp only [hfind, Option.map_some] at hfound
      split at hfound
      · cases hfound
      · simp only [Except.ok.injEq, Prod.mk.injEq] at hfound
        omega

theorem addressesFaithful_iff (hg : Ready g) :
    AddressesFaithful g ↔ ∀ d ∈ g, d.typeNames.Nodup :=
  ⟨nodup_of_addressesFaithful hg, addressesFaithful_of_nodup hg⟩

end Trees

/-! ## Registrations -/

/-- Names and index of a registration can be stored and printed in full; the
resource type may be empty. -/
structure Registration.Addressable (r : Registration) : Prop where
  sn : r.sn.length ≠ 0 ∧ r.sn.length ≤ 47
  resType : r.resType.length ≤ 31
  index : 0 ≤ r.index

def register (own : CString) (rs : List Registration) : Modules :=
  rs.foldl (fun g r => (shadowCoreModuleAddv3 own r g).2) []

/-- The name that a resource type is stored under. -/
def storedType (resType : CString) : CString :=
  if resType.length = 0 then defaultName else resType

/-- An empty resource type is registered at most once for a device, and not after
the default name: a search for the empty text never finds what it was stored as. -/
def DefaultOnce (own : CString) (rs : List Registration) : Prop :=
  rs.Pairwise fun r r' => devName own r.sn = devName own r'.sn → r'.resType.length = 0 →
    r.resType.length ≠ 0 ∧ r.resType ≠ defaultName

section Registrations

variable {g : Modules} {own : CString} {r : Registration}

theorem storedType_length (t : CString) : (storedType t).length ≠ 0 := by
  unfold storedType
  split
  · decide
  · assumption

theorem storedType_fits {t : CString} (h : t.length ≤ 31) : (storedType t).length ≤ 31 := by
  unfold storedType
  split
  · decide
  · exact h

theorem devName_named (h : r.Addressable) :
    (devName own r.sn).length ≠ 0 ∧ (devName own r.sn).length ≤ 47 := by
  refine ⟨?_, devName_length h.sn.2⟩
  unfold devName
  split
  · decide
  · exact h.sn.1

theorem newIndexSet_type {t : CString} (h : t.length ≤ 31) :
    (newIndexSet t).type.toCString = storedType t :=
  CField.strncpy_of_fits (storedType_fits h)

/-- The part of a registration below the device. -/
def Registration.onDev (r : Registration) : NodeDev → NodeDev :=
  shadowModuleAddIndexSet r.resType
    (shadowModuleAddIndex r.index (shadowModuleAddDomain r.domainId r.props))

theorem addIndex_ready {s : NodeIndexSet} (hnamed : s.type.length ≠ 0)
    (hindexes : Distinct NodeIndex.index (fun x => 0 ≤ x.index) s.indexLst)
    (hr : r.Addressable) :
    (shadowModuleAddIndex r.index (shadowModuleAddDomain r.domainId r.props) s).Ready where
  named := hnamed
  inhabited := upsert_ne_nil _
  indexes := by
    refine Distinct.upsert hindexes (k := r.index) (fun x => ?_) rfl
      (shadowModuleAddDomain_index _ _) (fun x hx => ?_) hr.index
    · simp only [isIndex, decide_eq_true_eq]
      exact eq_comm
    · rw [shadowModuleAddDomain_index]
      exact hx

theorem NodeDev.Ready.onDev {d : NodeDev} (h : d.Ready) (hr : r.Addressable) :
    (r.onDev d).Ready where
  named := h.named
  types := by
    intro s hs
    rcases mem_upsert hs with hold | ⟨a, ha, rfl⟩
    · exact h.types s hold
    · rcases ha with hmem | rfl
      · exact addIndex_ready (h.types a hmem).named (h.types a hmem).indexes hr
      · refine addIndex_ready ?_ Distinct.nil hr
        rw [newIndexSet_type hr.resType]
        exact storedType_length _

theorem Ready.addv3 (h : Ready g) (hr : r.Addressable) :
    Ready (shadowCoreModuleAddv3 own r g).2 := by
  have hname : (devName own r.sn).length ≠ 0 ∧ (devName own r.sn).length ≤ 47 :=
    devName_named hr
  have hstored := CField.strncpy_of_fits (n := 47) hname.2
  refine Distinct.upsert h (k := .strncpy (devName own r.sn)) (fun d => ?_) rfl (fun _ => rfl)
    (fun d hd => hd.onDev hr) ⟨?_, fun s hs => nomatch hs⟩
  · simp only [isDev, decide_eq_true_eq]
    exact CField.toCString_eq_iff hname.2 d.devSn
  · change (CField.strncpy (n := 47) (devName own r.sn)).toCString.length ≠ 0
    rw [hstored]
    exact hname.1

theorem ready_register {rs : List Registration} (h : ∀ r ∈ rs, r.Addressable) :
    Ready (register own rs) := by
  induction rs using List.reverseRecOn with
  | nil => exact Distinct.nil
  | append_singleton rs r ih =>
      rw [register, List.foldl_append]
      exact (ih fun r' hr' => h r' (by simp [hr'])).addv3 (h r (by simp))

/-! ### The resource types of one device -/

/-- The type names found under a device name. -/
def typesAt (g : Modules) (sn : CString) : List CString :=
  ((g.find? (isDev sn)).map NodeDev.typeNames).getD []

def addName (names : List CString) (t : CString) : List CString :=
  if t ∈ names then names else names ++ [storedType t]

theorem typeNames_onDev (hr : r.Addressable) (d : NodeDev) :
    (r.onDev d).typeNames = addName d.typeNames r.resType := by
  have hany : d.typeLst.any (isType r.resType) = true ↔ r.resType ∈ d.typeNames := by
    simp [NodeDev.typeNames, isType]
  have hnames : (r.onDev d).typeNames = if d.typeLst.any (isType r.resType) then d.typeNames
      else d.typeNames ++ [(newIndexSet r.resType).type.toCString] := by
    refine map_upsert ?_ d.typeLst
    intro s
    rfl
  rw [hnames, newIndexSet_type hr.resType, addName]
  by_cases hmem : r.resType ∈ d.typeNames
  · rw [if_pos (hany.mpr hmem), if_pos hmem]
  · rw [if_neg (fun h => hmem (hany.mp h)), if_neg hmem]

theorem typesAt_addv3 (hr : r.Addressable) (sn : CString) :
    typesAt (shadowCoreModuleAddv3 own r g).2 sn =
      if devName own r.sn = sn then addName (typesAt g sn) r.resType else typesAt g sn := by
  have hstored : (newDev (devName own r.sn)).devSn.toCString = devName own r.sn :=
    CField.strncpy_of_fits (devName_named hr).2
  have hstep : (shadowCoreModuleAddv3 own r g).2 =
      upsert (isDev (devName own r.sn)) (newDev (devName own r.sn)) r.onDev g := rfl
  unfold typesAt
  rw [hstep]
  by_cases hsn : devName own r.sn = sn
  · subst hsn
    have hself : isDev (devName own r.sn) (r.onDev (newDev (devName own r.sn))) :=
      decide_eq_true hstored
    have hkeep : ∀ d, isDev (devName own r.sn) (r.onDev d) = isDev (devName own r.sn) d :=
      fun _ => rfl
    rw [if_pos rfl, find?_upsert_self hself hkeep, Option.map_some, Option.getD_some,
      typeNames_onDev hr]
    cases g.find? (isDev (devName own r.sn)) with
    | none => rfl
    | some d => rfl
  · rw [if_neg hsn, find?_upsert_of_disjoint]
    · intro d hd
      simp only [isDev, decide_eq_true_eq] at hd
      have hne : isDev sn d = false := by
        simp only [isDev, decide_eq_false_iff_not]
        exact fun heq => hsn (hd.symm.trans heq)
      exact ⟨hne, hne⟩
    · change decide ((newDev (devName own r.sn)).devSn.toCString = sn) = false
      rw [hstored]
      exact decide_eq_false hsn

theorem typesAt_register {rs : List Registration} (h : ∀ r ∈ rs, r.Addressable) (sn : CString) :
    typesAt (register own rs) sn =
      ((rs.filter fun r => devName own r.sn = sn).map Registration.resType).foldl addName [] := by
  induction rs using List.reverseRecOn with
  | nil => rfl
  | append_singleton rs r ih =>
      have hrs : ∀ r' ∈ rs, r'.Addressable := fun r' hr' => h r' (by simp [hr'])
      have hstep : register own (rs ++ [r]) =
          (shadowCoreModuleAddv3 own r (register own rs)).2 := by
        rw [register, List.foldl_append]
        rfl
      rw [hstep, typesAt_addv3 (h r (by simp)), ih hrs]
      by_cases hsn : devName own r.sn = sn
      · simp [hsn]
      · simp [hsn]

theorem mem_addNames {ts : List CString} {n : CString} :
    n ∈ ts.foldl addName [] ↔ ∃ t ∈ ts, storedType t = n := by
  induction ts using List.reverseRecOn generalizing n with
  | nil => simp
  | append_singleton ts t ih =>
      rw [List.foldl_append, List.foldl_cons, List.foldl_nil, addName]
      split
      · next hmem =>
          have hown : storedType t = t := by
            rcases ih.mp hmem with ⟨u, -, rfl⟩
            exact if_neg (storedType_length u)
          rw [ih]
          constructor
          · intro ⟨u, hu, heq⟩
            exact ⟨u, by simp [hu], heq⟩
          · intro ⟨u, hu, heq⟩
            rcases List.mem_append.mp hu with hold | hnew
            · exact ⟨u, hold, heq⟩
            · have hut : u = t := by simpa using hnew
              subst hut
              rw [hown] at heq
              subst heq
              exact ih.mp hmem
      · rw [List.mem_append, ih, List.mem_singleton]
        constructor
        · rintro (⟨u, hu, heq⟩ | rfl)
          · exact ⟨u, by simp [hu], heq⟩
          · exact ⟨t, by simp, rfl⟩
        · intro ⟨u, hu, heq⟩
          rcases List.mem_append.mp hu with hold | hnew
          · exact .inl ⟨u, hold, heq⟩
          · have hut : u = t := by simpa using hnew
            subst hut
            exact .inr heq.symm

theorem storedType_eq_default {t : CString} :
    storedType t = defaultName ↔ ¬ (t.length ≠ 0 ∧ t ≠ defaultName) := by
  unfold storedType
  split
  · simp_all
  · simp_all

theorem nodup_addNames (ts : List CString) : (ts.foldl addName []).Nodup ↔
    ts.Pairwise fun t u => u.length = 0 → t.length ≠ 0 ∧ t ≠ defaultName := by
  induction ts using List.reverseRecOn with
  | nil => simp
  | append_singleton ts t ih =>
      have hmem : ∀ n, n ∈ ts.foldl addName [] ↔ ∃ u ∈ ts, storedType u = n := fun n => mem_addNames
      rw [List.foldl_append, List.foldl_cons, List.foldl_nil, List.pairwise_append, ← ih, addName]
      by_cases ht : t.length = 0
      · have hstored : storedType t = defaultName := if_pos ht
        have hnot : t ∉ ts.foldl addName [] := by
          intro h
          rcases (hmem t).mp h with ⟨u, -, rfl⟩
          exact storedType_length u ht
        rw [if_neg hnot, hstored, List.nodup_append]
        constructor
        · rintro ⟨hnodup, -, hfresh⟩
          refine ⟨hnodup, List.pairwise_singleton _ _, ?_⟩
          intro u hu t' ht' _
          by_contra hdef
          have huName : storedType u = defaultName := storedType_eq_default.mpr hdef
          exact hfresh _ ((hmem _).mpr ⟨u, hu, huName⟩) _ (List.mem_singleton.mpr rfl) rfl
        · rintro ⟨hnodup, -, hpair⟩
          refine ⟨hnodup, List.nodup_singleton _, ?_⟩
          intro n hn d hd heq
          rw [List.mem_singleton.mp hd] at heq
          rcases (hmem n).mp hn with ⟨u, hu, huName⟩
          exact storedType_eq_default.mp (huName.trans heq)
            (hpair u hu t (List.mem_singleton.mpr rfl) ht)
      · have hstored : storedType t = t := if_neg ht
        have hpair : ∀ u ∈ ts, ∀ t' ∈ [t], t'.length = 0 → u.length ≠ 0 ∧ u ≠ defaultName := by
          intro u _ t' ht' hzero
          rw [List.mem_singleton.mp ht'] at hzero
          exact absurd hzero ht
        rw [hstored]
        split
        · exact ⟨fun h => ⟨h, List.pairwise_singleton _ _, hpair⟩, fun h => h.1⟩
        · next hfresh =>
            rw [List.nodup_append]
            have hnew : ∀ n ∈ ts.foldl addName [], ∀ t' ∈ [t], n ≠ t' := by
              intro n hn t' ht' heq
              rw [List.mem_singleton.mp ht'] at heq
              exact hfresh (heq ▸ hn)
            exact ⟨fun h => ⟨h.1, List.pairwise_singleton _ _, hpair⟩,
              fun h => ⟨h.1, List.nodup_singleton _, hnew⟩⟩

theorem typeNames_eq_typesAt (hg : Ready g) {d : NodeDev} (hd : d ∈ g) :
    d.typeNames = typesAt g d.devSn.toCString := by
  rcases List.getElem?_of_mem hd with ⟨i, hi⟩
  have hfind : locate (isDev d.devSn.toCString) g = some (i, d) := by
    refine locate_of_nodup hg.1 (fun e => ?_) hi
    simp only [isDev, decide_eq_true_eq]
    exact ⟨CField.ext, congrArg _⟩
  obtain ⟨e, he, heq⟩ := Option.map_eq_some_iff.mp hfind
  rw [typesAt, he, Option.map_some, Option.getD_some, (Prod.mk.inj heq).2]

theorem nodup_typeNames_iff (hg : Ready g) :
    (∀ d ∈ g, d.typeNames.Nodup) ↔ ∀ sn, (typesAt g sn).Nodup := by
  constructor
  · intro h sn
    unfold typesAt
    cases hfind : g.find? (isDev sn) with
    | none => exact List.nodup_nil
    | some d => exact h d (List.mem_of_find?_eq_some hfind)
  · intro h d hd
    rw [typeNames_eq_typesAt hg hd]
    exact h _

end Registrations

/-- Addressing works on a registered tree exactly when no empty resource type
follows, on its device, one that is stored under the default name. -/
theorem addresses_faithful_iff_default_once (own : CString) (rs : List Registration)
    (h : ∀ r ∈ rs, r.Addressable) :
    AddressesFaithful (register own rs) ↔ DefaultOnce own rs := by
  have hready : Ready (register own rs) := ready_register h
  rw [addressesFaithful_iff hready, nodup_typeNames_iff hready]
  constructor
  · intro hall
    refine List.pairwise_iff_getElem.mpr fun i j hi hj hij hdev hempty => ?_
    have hnodup := hall (devName own rs[j].sn)
    rw [typesAt_register h, nodup_addNames, List.pairwise_map, List.pairwise_filter] at hnodup
    exact List.pairwise_iff_getElem.mp hnodup i j hi hj hij (by simpa using hdev) (by simp) hempty
  · intro honce sn
    rw [typesAt_register h, nodup_addNames, List.pairwise_map, List.pairwise_filter]
    refine honce.imp ?_
    intro r r' hpair hr hr' hempty
    simp only [decide_eq_true_eq] at hr hr'
    exact hpair (hr.trans hr'.symm) hempty

/-- The registration of an empty type and of named ones on two channels. -/
def mixedRegistrations : List Registration :=
  [⟨.lit "SUB1", .lit "", 0, .lit "light", [sampleBusiness]⟩,
    ⟨.lit "SUB1", .lit "global", 1, .lit "light", [sampleBusiness]⟩,
    ⟨.lit "SUB1", .lit "lamp", 0, .lit "light", [sampleBusiness]⟩,
    ⟨.lit "OWN", .lit "", 0, .lit "light", [sampleBusiness]⟩]

theorem mixedRegistrations_faithful :
    (∀ r ∈ mixedRegistrations, r.Addressable) ∧ DefaultOnce (.lit "OWN") mixedRegistrations ∧
      AddressesFaithful (register (.lit "OWN") mixedRegistrations) := by
  have haddr : ∀ r ∈ mixedRegistrations, r.Addressable := by
    intro r hr
    have hall : r.sn.length ≠ 0 ∧ r.sn.length ≤ 47 ∧ r.resType.length ≤ 31 ∧ 0 ≤ r.index := by
      revert r
      decide
    exact ⟨⟨hall.1, hall.2.1⟩, hall.2.2.1, hall.2.2.2⟩
  have honce : DefaultOnce (.lit "OWN") mixedRegistrations := by
    unfold DefaultOnce
    decide
  exact ⟨haddr, honce, (addresses_faithful_iff_default_once _ _ haddr).mpr honce⟩

/-- Two domains registered under the empty type: the second registration makes a
second node that is printed like the first one and never found. -/
theorem empty_type_twice_not_faithful : ¬ AddressesFaithful (register (.lit "OWN")
    [⟨.lit "SUB1", .lit "", 0, .lit "light", [sampleBusiness]⟩,
      ⟨.lit "SUB1", .lit "", 0, .lit "lock", [sampleBusiness]⟩]) := by
  intro h
  exact absurd (h.injective (0, 0, 0) (0, 1, 0) _ _ _ _ _ _ rfl rfl rfl) (by decide)

end EzIot.Shadow
