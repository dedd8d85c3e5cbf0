import EzIot.Das.Send
import EzIot.Kernel.Risk

/-! # Dispatch of the messages of the older protocol

`handle_sub_msg` hands a received message to the bus of the access domain or puts it
into the queue, and `consume_extend_data` later takes every queued message to the
domain with its number. The domains stand in a zeroed table, so a free slot looks
like a domain with the number 0 and without a route.
-/

namespace EzIot.Das

open CText Kernel Slots

/-! ## The two stages -/

def dasCmdPu2cenpltupgradersp : Int32 := 0x2864

inductive Fate
  -- `access_domain_bus_handle` gets it, and it is freed
  | bus
  -- neither queued nor freed
  | kept
  | queued
  -- the queue does not take it, and it is freed
  | discarded
deriving DecidableEq

/-- `handle_sub_msg`; `alloc` says whether an element of the queue can be allocated. -/
def handleSubMsg (alloc : Bool) (m : Submsg) (q : Queue Submsg) : Fate × Queue Submsg :=
  if m.msgDomainId = dasCmdDomain.toInt32 then (.bus, q)
  else if m.msgDomainId = dasCmdCommonFun.toInt32 ∨
      m.msgCommandId = dasCmdPu2cenpltupgradersp then (.kept, q)
  else
    let r := q.push alloc m
    if r.1 ≠ .succ then (.discarded, r.2) else (.queued, r.2)

/-- What `consume_extend_data` does with a message before it frees it. -/
inductive Delivery
  | routed (cb : Nat) (m : Submsg) (pUser : Nat)
  | dropped (m : Submsg)
  -- a call through a null pointer, which nothing follows
  | nullRoute (m : Submsg)
deriving DecidableEq

/-- The loop of `consume_extend_data` over the messages that it takes from the queue
until there are none. -/
def consumeExtendData (t : ExtendTables) : List Submsg → List Delivery
  | [] => []
  | m :: rest =>
      match extendGet m.msgDomainId.toUInt32 t with
      | none => .dropped m :: consumeExtendData t rest
      | some s =>
          match s.kernelExtend.dataRoute with
          | none => [.nullRoute m]
          | some cb => .routed cb m s.kernelExtend.pUser :: consumeExtendData t rest

/-! ## What is meant -/

/-- A loaded domain has the number that a message names. -/
def Addresses (m : Submsg) (d : KernelExtend) : Prop :=
  (d.domainId.toNat : Int) = m.msgDomainId.toInt

/-- The route of the loaded domain with the number is called; without such a domain
the message is dropped. -/
def Serves (s : Loaded) (m : Submsg) (delivery : Delivery) : Prop :=
  (∃ d ∈ s.domains, Addresses m d ∧
    ∃ cb, d.dataRoute = some cb ∧ delivery = .routed cb m d.pUser) ∨
  ((∀ d ∈ s.domains, ¬ Addresses m d) ∧ delivery = .dropped m)

/-- A message goes to the bus if its domain is the access domain. Otherwise it joins
the queue or is freed, and all that is queued is served, each message once. -/
structure Dispatched (s : Loaded) (q : Queue Submsg) (alloc : Bool) (m : Submsg) : Prop where
  bus : m.msgDomainId = dasCmdDomain.toInt32 → handleSubMsg alloc m q = (.bus, q)
  received : m.msgDomainId ≠ dasCmdDomain.toInt32 →
    ((handleSubMsg alloc m q).1 = .queued ∧
      (handleSubMsg alloc m q).2.elems = q.elems ++ [m]) ∨
    handleSubMsg alloc m q = (.discarded, q)
  served : List.Forall₂ (Serves s) (handleSubMsg alloc m q).2.elems
    (consumeExtendData s.tables (handleSubMsg alloc m q).2.elems)

/-- The slot that a message for the domain 0 finds is the right one: no domain 0 was
loaded and the table has no free slot, or it was loaded last. -/
def ZeroServed (c : ExtendConfig) (s : Loaded) : Prop :=
  ((∀ d ∈ s.domains, d.domainId ≠ 0) ∧ s.domains.length = c.extendCount) ∨
    ∃ d ∈ s.domains.getLast?, d.domainId = 0

/-- The message is not of the kind that is kept, and no message for the domain 0
waits for a slot that is not meant for it. -/
structure Dispatchable (c : ExtendConfig) (s : Loaded) (q : Queue Submsg) (alloc : Bool)
    (m : Submsg) : Prop where
  ordinary : m.msgDomainId = dasCmdDomain.toInt32 ∨
    m.msgDomainId ≠ dasCmdCommonFun.toInt32 ∧ m.msgCommandId ≠ dasCmdPu2cenpltupgradersp
  zero : ((∃ x ∈ q.elems, x.msgDomainId = 0) ∨
    m.msgDomainId = 0 ∧ q.full = false ∧ alloc = true) → ZeroServed c s

/-! ## The table -/

/-- Every loaded domain has a route. -/
def Routed (s : Loaded) : Prop := ∀ d ∈ s.domains, d.dataRoute ≠ none

/-- The slots behind the domains with a number: they are as zeroed at the start, but
that the domain 0 stands in the first one if it was loaded last. -/
structure FreeSlots (c : ExtendConfig) (s : Loaded) : Prop where
  length : s.tables.kernelDomains.length = c.extendCount
  first : (∃ d ∈ s.domains.getLast?, d.domainId = 0 ∧
      ∃ x ∈ (s.tables.kernelDomains.dropWhile fun x => !x.free).head?, x.kernelExtend = d) ∨
    (∀ d ∈ s.domains.getLast?, d.domainId ≠ 0) ∧
      ∀ x ∈ (s.tables.kernelDomains.dropWhile fun x => !x.free).head?,
        x.kernelExtend.dataRoute = none
  others : ∀ x ∈ (s.tables.kernelDomains.dropWhile fun x => !x.free).tail,
    x.kernelExtend.dataRoute = none

section Table

variable {c : ExtendConfig} {s : Loaded} {d : KernelExtend} {t : ExtendTables}

theorem dataRoute_of_load {myState : SdkState}
    (h : (ezKernelExtendLoad myState (some d) t).1 = .succ) : d.dataRoute ≠ none := by
  intro hnone
  unfold ezKernelExtendLoad at h
  simp only [hnone, if_true] at h
  split at h <;> cases h

theorem routed_loadAll (c : ExtendConfig) (calls : List LoadCall) : Routed (loadAll c calls) := by
  refine List.foldlRecOn calls LoadCall.apply (fun d hd => absurd hd List.not_mem_nil) ?_
  intro s h call _
  cases call with
  | load myState e =>
      unfold LoadCall.apply Routed
      dsimp only
      split
      · next hsucc =>
          intro d hd
          rcases List.mem_append.mp hd with hold | hnew
          · exact h d hold
          · cases e with
            | none => exact absurd hnew List.not_mem_nil
            | some e =>
                rw [Option.toList_some, List.mem_singleton] at hnew
                subst hnew
                exact dataRoute_of_load hsucc
      · exact h
  | loadV3 myState e => exact h

theorem freeSlots_init (c : ExtendConfig) : FreeSlots c (.init c) := by
  have hzero : ∀ x ∈ (Loaded.init c).tables.kernelDomains.dropWhile fun x => !x.free,
      x.kernelExtend.dataRoute = none := by
    intro x hx
    rw [List.eq_of_mem_replicate ((List.dropWhile_suffix _).subset hx)]
    rfl
  refine ⟨List.length_replicate, ?_, ?_⟩
  · refine .inr ⟨by simp [Loaded.init], fun x hx => hzero x (List.mem_of_mem_head? hx)⟩
  · intro x hx
    exact hzero x (List.mem_of_mem_tail hx)

/-- A domain with a number takes the first free slot, and the domain 0 leaves it
free. -/
theorem FreeSlots.load (h : FreeSlots c s) (hf : Kernel.Follows s)
    (hload : (extendLoad d s.tables).1 = .succ) :
    FreeSlots c ⟨(extendLoad d s.tables).2, s.domains ++ [d], s.modules⟩ := by
  obtain ⟨a, x, b, htable, ha, hx, hput⟩ := put_stored (loadError_succ.mp hload)
  have hlast : (s.domains ++ [d]).getLast? = some d := List.getLast?_concat
  have hused : ∀ y ∈ a, (!y.free) = true := fun y hy => by simp [(ha y hy).1]
  have hdrop : s.tables.kernelDomains.dropWhile (fun y => !y.free) = x :: b := by
    rw [htable, List.dropWhile_append_of_pos hused, List.dropWhile_cons_of_neg (by simp [hx])]
  have hb : ∀ y ∈ b, y.kernelExtend.dataRoute = none := by
    intro y hy
    refine h.others y ?_
    rwa [hdrop]
  have hfree : ∀ y ∈ b, y.free = true := by
    intro y hy
    refine hf.compact y ?_
    rw [hdrop]
    exact List.mem_cons_of_mem x hy
  have hlen : (a ++ { x with kernelExtend := d, domainRisk := .noRiskControl } :: b).length =
      c.extendCount := by
    rw [← h.length, htable]
    simp
  by_cases hd : d.domainId = 0
  · have hnew : (a ++ { x with kernelExtend := d, domainRisk := .noRiskControl } :: b).dropWhile
        (fun y => !y.free) = { x with kernelExtend := d, domainRisk := .noRiskControl } :: b := by
      rw [List.dropWhile_append_of_pos hused,
        List.dropWhile_cons_of_neg (by simp [DomainInfo.free, hd])]
    refine ⟨(congrArg _ hput).trans hlen, .inl ⟨d, hlast, hd, ?_⟩, ?_⟩
    · simp only [extendLoad, hput, hnew, List.head?_cons, Option.mem_some_iff]
      exact ⟨_, rfl, rfl⟩
    · intro y hy
      simp only [extendLoad, hput, hnew, List.tail_cons] at hy
      exact hb y hy
  · have hnew : (a ++ { x with kernelExtend := d, domainRisk := .noRiskControl } :: b).dropWhile
        (fun y => !y.free) = b := by
      rw [List.dropWhile_append_of_pos hused,
        List.dropWhile_cons_of_pos (by simp [DomainInfo.free, hd])]
      cases b with
      | nil => rfl
      | cons y b => rw [List.dropWhile_cons_of_neg (by simp [hfree y List.mem_cons_self])]
    refine ⟨(congrArg _ hput).trans hlen, .inr ⟨by simpa [hlast] using hd, ?_⟩, ?_⟩
    · intro y hy
      simp only [extendLoad, hput, hnew] at hy
      exact hb y (List.mem_of_mem_head? hy)
    · intro y hy
      simp only [extendLoad, hput, hnew] at hy
      exact hb y (List.mem_of_mem_tail hy)

theorem freeSlots_loadAll (c : ExtendConfig) (calls : List LoadCall) :
    FreeSlots c (loadAll c calls) := by
  suffices h : Kernel.Follows (loadAll c calls) ∧ FreeSlots c (loadAll c calls) from h.2
  refine List.foldlRecOn (motive := fun s => Kernel.Follows s ∧ FreeSlots c s) calls
    LoadCall.apply ⟨follows_init c, freeSlots_init c⟩ ?_
  intro s ⟨hf, h⟩ call _
  cases call with
  | load myState e =>
      refine ⟨hf.load myState e, ?_⟩
      unfold LoadCall.apply
      rcases ezKernelExtendLoad_cases myState e s.tables with ⟨d, rfl, hcall, hload⟩ | ⟨hfail, hsame⟩
      · simp only [hcall, if_pos, Option.toList_some]
        exact h.load hf hload
      · simp only [if_neg hfail, hsame]
        exact h
  | loadV3 myState e =>
      refine ⟨hf.loadV3 myState e, ?_⟩
      have htable : (ezKernelExtendLoadV3 myState e s.tables).2.kernelDomains =
          s.tables.kernelDomains := by
        rcases ezKernelExtendLoadV3_cases myState e s.tables with ⟨m, rfl, hcall, -⟩ | ⟨-, hsame⟩
        · rw [hcall]
          rfl
        · rw [hsame]
      unfold LoadCall.apply
      exact ⟨(congrArg _ htable).trans h.length, by simpa only [htable] using h.first,
        by simpa only [htable] using h.others⟩

end Table

/-! ## One message -/

/-- What the loop does with one message. -/
def delivery (t : ExtendTables) (m : Submsg) : Delivery :=
  match extendGet m.msgDomainId.toUInt32 t with
  | none => .dropped m
  | some x =>
      match x.kernelExtend.dataRoute with
      | none => .nullRoute m
      | some cb => .routed cb m x.kernelExtend.pUser

section Message

variable {c : ExtendConfig} {s : Loaded} {m : Submsg} {t : ExtendTables}

/-- The comparison of the 16-bit number with the signed one as unsigned numbers is
the one of their values. -/
theorem addresses_iff (m : Submsg) (d : KernelExtend) :
    Addresses m d ↔ d.domainId.toUInt32 = m.msgDomainId.toUInt32 := by
  have hd := d.domainId.toNat_lt
  have hm := m.msgDomainId.toUInt32.toNat_lt
  have hint : m.msgDomainId.toInt =
      if 2 * m.msgDomainId.toUInt32.toNat < 2 ^ 32 then (m.msgDomainId.toUInt32.toNat : Int)
      else (m.msgDomainId.toUInt32.toNat : Int) - 2 ^ 32 := rfl
  unfold Addresses
  rw [← UInt32.toNat_inj, UInt16.toNat_toUInt32, hint]
  split <;> omega

theorem extendGet_of_ne_zero (hc : Compact DomainInfo.free t.kernelDomains) {w : UInt32}
    (hw : w ≠ 0) :
    extendGet w t = (used DomainInfo.free t.kernelDomains).find? (DomainInfo.is w) := by
  have hbehind : (t.kernelDomains.dropWhile fun x => !x.free).find? (DomainInfo.is w) = none := by
    rw [List.find?_eq_none]
    intro x hx his
    have hzero : x.kernelExtend.domainId = 0 := by simpa [DomainInfo.free] using hc x hx
    simp only [DomainInfo.is, hzero, decide_eq_true_eq] at his
    exact hw his.symm
  unfold extendGet used
  conv_lhs => rw [← List.takeWhile_append_dropWhile (p := fun x : DomainInfo => !x.free)
    (l := t.kernelDomains)]
  rw [List.find?_append, hbehind, Option.or_none]

theorem extendGet_zero (t : ExtendTables) :
    extendGet 0 t = (t.kernelDomains.dropWhile fun x => !x.free).head? := by
  unfold extendGet
  rw [List.find?_eq_head?_dropWhile_not]
  congr 2
  funext x
  rw [DomainInfo.is, DomainInfo.free]
  exact congrArg _ (decide_eq_decide.mpr (UInt16.toUInt32_inj (b := 0)))

theorem serves_of_ne_zero (hf : Kernel.Follows s) (hr : Routed s) (hm : m.msgDomainId ≠ 0) :
    Serves s m (delivery s.tables m) := by
  have hw : m.msgDomainId.toUInt32 ≠ 0 := fun h => hm (congrArg Int32.ofUInt32 h)
  unfold delivery
  rw [extendGet_of_ne_zero hf.compact hw]
  cases hfind : (used DomainInfo.free s.tables.kernelDomains).find?
      (DomainInfo.is m.msgDomainId.toUInt32) with
  | none =>
      refine .inr ⟨fun d hd haddr => ?_, rfl⟩
      rw [addresses_iff] at haddr
      have hnumber : d.domainId ≠ 0 := by
        intro h
        rw [h] at haddr
        exact hw haddr.symm
      have hmem : d ∈ (used DomainInfo.free s.tables.kernelDomains).map DomainInfo.kernelExtend := by
        rw [hf.domains]
        exact List.mem_filter.mpr ⟨hd, by simpa using hnumber⟩
      obtain ⟨x, hx, rfl⟩ := List.mem_map.mp hmem
      exact List.find?_eq_none.mp hfind x hx (by simpa [DomainInfo.is] using haddr)
  | some x =>
      have hmem : x.kernelExtend ∈ s.domains.filter fun d => d.domainId ≠ 0 := by
        rw [← hf.domains]
        exact List.mem_map_of_mem (List.mem_of_find?_eq_some hfind)
      have hloaded := (List.mem_filter.mp hmem).1
      have haddr : Addresses m x.kernelExtend :=
        (addresses_iff m _).mpr (by simpa [DomainInfo.is] using List.find?_some hfind)
      cases hroute : x.kernelExtend.dataRoute with
      | none => exact absurd hroute (hr _ hloaded)
      | some cb => exact .inl ⟨_, hloaded, haddr, cb, hroute, by simp [hroute]⟩

theorem addresses_zero (hm : m.msgDomainId = 0) (d : KernelExtend) :
    Addresses m d ↔ d.domainId = 0 := by
  rw [addresses_iff, hm]
  exact UInt16.toUInt32_inj (b := 0)

theorem serves_zero_iff (hf : Kernel.Follows s) (hr : Routed s) (hs : FreeSlots c s)
    (hm : m.msgDomainId = 0) : Serves s m (delivery s.tables m) ↔ ZeroServed c s := by
  have hcount : (s.domains.filter fun d => d.domainId ≠ 0).length =
      (used DomainInfo.free s.tables.kernelDomains).length := by
    rw [← hf.domains, List.length_map]
  have hsplit : (used DomainInfo.free s.tables.kernelDomains).length +
      (s.tables.kernelDomains.dropWhile fun x => !x.free).length = c.extendCount := by
    rw [← hs.length, ← List.length_append, used, List.takeWhile_append_dropWhile]
  unfold Serves ZeroServed delivery
  simp only [addresses_zero hm]
  rw [hm]
  rw [show (0 : Int32).toUInt32 = 0 from rfl, extendGet_zero]
  rcases hs.first with ⟨d, hlast, hzero, x, hx, rfl⟩ | ⟨hnotlast, hblank⟩
  · have hloaded := List.mem_of_getLast? hlast
    obtain ⟨cb, hroute⟩ := Option.ne_none_iff_exists'.mp (hr _ hloaded)
    rw [Option.mem_def.mp hx]
    simp only [hroute]
    exact ⟨fun _ => .inr ⟨_, hlast, hzero⟩, fun _ => .inl ⟨_, hloaded, hzero, cb, hroute, rfl⟩⟩
  · have hnone : ¬ ∃ d ∈ s.domains.getLast?, d.domainId = 0 := by
      intro hlast
      obtain ⟨d, hd, hzero⟩ := hlast
      exact hnotlast d hd hzero
    simp only [hnone, or_false]
    cases hslots : s.tables.kernelDomains.dropWhile fun x => !x.free with
    | nil =>
        rw [hslots, List.length_nil, Nat.add_zero, ← hcount] at hsplit
        simp only [List.head?_nil, and_true, reduceCtorEq, and_false, exists_false, false_or]
        refine ⟨fun h => ⟨h, ?_⟩, fun h => h.1⟩
        rw [← hsplit, List.filter_eq_self.mpr fun d hd => by simpa using h d hd]
    | cons x rest =>
        have hroute : x.kernelExtend.dataRoute = none := hblank x (by rw [hslots]; rfl)
        simp only [List.head?_cons, hroute, reduceCtorEq, and_false, exists_false, or_false,
          false_iff, not_and]
        intro hall hfull
        rw [hslots, List.length_cons, ← hcount,
          List.filter_eq_self.mpr fun d hd => by simpa using hall d hd] at hsplit
        omega

theorem not_serves_nullRoute (s : Loaded) (m : Submsg) : ¬ Serves s m (.nullRoute m) := by
  simp [Serves]

theorem consumeExtendData_cons (t : ExtendTables) (m : Submsg) (rest : List Submsg) :
    consumeExtendData t (m :: rest) =
      delivery t m :: if delivery t m = .nullRoute m then [] else consumeExtendData t rest := by
  unfold delivery
  rw [consumeExtendData]
  cases extendGet m.msgDomainId.toUInt32 t with
  | none => simp
  | some x => cases h : x.kernelExtend.dataRoute <;> simp [h]

/-- The loop serves every message that it takes, if no call ends it. -/
theorem forall₂_consumeExtendData (s : Loaded) (ms : List Submsg) :
    List.Forall₂ (Serves s) ms (consumeExtendData s.tables ms) ↔
      ∀ m ∈ ms, Serves s m (delivery s.tables m) := by
  induction ms with
  | nil => simp [consumeExtendData]
  | cons m ms ih =>
      rw [consumeExtendData_cons, List.forall₂_cons, List.forall_mem_cons]
      by_cases hnull : delivery s.tables m = .nullRoute m
      · rw [hnull]
        simp [not_serves_nullRoute]
      · rw [if_neg hnull, ih]

theorem handleSubMsg_cases (alloc : Bool) (m : Submsg) (q : Queue Submsg) :
    (m.msgDomainId = dasCmdDomain.toInt32 ∧ handleSubMsg alloc m q = (.bus, q)) ∨
    (m.msgDomainId ≠ dasCmdDomain.toInt32 ∧ (m.msgDomainId = dasCmdCommonFun.toInt32 ∨
      m.msgCommandId = dasCmdPu2cenpltupgradersp) ∧ handleSubMsg alloc m q = (.kept, q)) ∨
    (m.msgDomainId ≠ dasCmdDomain.toInt32 ∧ m.msgDomainId ≠ dasCmdCommonFun.toInt32 ∧
      m.msgCommandId ≠ dasCmdPu2cenpltupgradersp ∧
      ((q.full = false ∧ alloc = true ∧ (handleSubMsg alloc m q).1 = .queued ∧
          (handleSubMsg alloc m q).2.elems = q.elems ++ [m]) ∨
        (¬ (q.full = false ∧ alloc = true) ∧ handleSubMsg alloc m q = (.discarded, q)))) := by
  unfold handleSubMsg
  by_cases hbus : m.msgDomainId = dasCmdDomain.toInt32
  · exact .inl ⟨hbus, if_pos hbus⟩
  · by_cases hkept : m.msgDomainId = dasCmdCommonFun.toInt32 ∨
        m.msgCommandId = dasCmdPu2cenpltupgradersp
    · exact .inr (.inl ⟨hbus, hkept, by rw [if_neg hbus, if_pos hkept]⟩)
    · obtain ⟨hfun, hcmd⟩ := not_or.mp hkept
      refine .inr (.inr ⟨hbus, hfun, hcmd, ?_⟩)
      rw [if_neg hbus, if_neg hkept]
      by_cases hfull : q.full = true
      · simp [Queue.push, hfull]
      · have hroom : q.full = false := by simpa using hfull
        cases alloc <;> simp [Queue.push, hroom]

end Message

/-- What is queued is served as meant exactly when no message of it for the domain 0 is
taken to a slot that is not meant for it. -/
theorem served_iff (c : ExtendConfig) (calls : List LoadCall) (ms : List Submsg) :
    List.Forall₂ (Serves (loadAll c calls)) ms (consumeExtendData (loadAll c calls).tables ms) ↔
      ((∃ x ∈ ms, x.msgDomainId = 0) → ZeroServed c (loadAll c calls)) := by
  have hserves : ∀ x, Serves (loadAll c calls) x (delivery (loadAll c calls).tables x) ↔
      (x.msgDomainId = 0 → ZeroServed c (loadAll c calls)) := by
    intro x
    by_cases hx : x.msgDomainId = 0
    · rw [serves_zero_iff (follows_loadAll c calls) (routed_loadAll c calls)
        (freeSlots_loadAll c calls) hx]
      simp [hx]
    · exact ⟨fun _ h => absurd h hx,
        fun _ => serves_of_ne_zero (follows_loadAll c calls) (routed_loadAll c calls) hx⟩
  rw [forall₂_consumeExtendData]
  simp only [hserves]
  exact ⟨fun h ⟨x, hx, hzero⟩ => h x hx hzero, fun h x hx hzero => h ⟨x, hx, hzero⟩⟩

/-- A message is dispatched as meant exactly when it is not kept and no message for
the domain 0 is taken to a slot that is not meant for it. -/
theorem dispatched_iff (c : ExtendConfig) (calls : List LoadCall) (q : Queue Submsg) (alloc : Bool)
    (m : Submsg) : Dispatched (loadAll c calls) q alloc m ↔
      Dispatchable c (loadAll c calls) q alloc m := by
  have hsystem : dasCmdDomain.toInt32 ≠ 0 := by decide
  rcases handleSubMsg_cases alloc m q with ⟨hbus, hdo⟩ | ⟨hbus, hkept, hdo⟩ |
    ⟨hbus, hfun, hcmd, ⟨hroom, halloc, hfate, helems⟩ | ⟨hroom, hdo⟩⟩
  · have hzero : m.msgDomainId ≠ 0 := fun h => hsystem (hbus.symm.trans h)
    constructor
    · intro h
      refine ⟨.inl hbus, ?_⟩
      have hserved := h.served
      rw [hdo, served_iff] at hserved
      rintro (hold | hnew)
      · exact hserved hold
      · exact absurd hnew.1 hzero
    · intro h
      refine ⟨fun _ => hdo, fun hne => absurd hbus hne, ?_⟩
      rw [hdo, served_iff]
      exact fun hold => h.zero (.inl hold)
  · constructor
    · intro h
      rcases h.received hbus with ⟨hfate, -⟩ | hfate <;> rw [hdo] at hfate <;> cases hfate
    · intro h
      rcases h.ordinary with hord | ⟨hfun, hcmd⟩
      · exact absurd hord hbus
      · exact absurd hkept (not_or.mpr ⟨hfun, hcmd⟩)
  · constructor
    · intro h
      refine ⟨.inr ⟨hfun, hcmd⟩, ?_⟩
      have hserved := h.served
      rw [helems, served_iff] at hserved
      rintro (⟨x, hx, hzero⟩ | hnew)
      · exact hserved ⟨x, List.mem_append_left _ hx, hzero⟩
      · exact hserved ⟨m, by simp, hnew.1⟩
    · intro h
      refine ⟨fun heq => absurd heq hbus, fun _ => .inl ⟨hfate, helems⟩, ?_⟩
      rw [helems, served_iff]
      rintro ⟨x, hx, hzero⟩
      rcases List.mem_append.mp hx with hold | hnew
      · exact h.zero (.inl ⟨x, hold, hzero⟩)
      · rw [List.mem_singleton.mp hnew] at hzero
        exact h.zero (.inr ⟨hzero, hroom, halloc⟩)
  · constructor
    · intro h
      refine ⟨.inr ⟨hfun, hcmd⟩, ?_⟩
      have hserved := h.served
      rw [hdo, served_iff] at hserved
      rintro (hold | hnew)
      · exact hserved hold
      · exact absurd hnew.2 hroom
    · intro h
      refine ⟨fun heq => absurd heq hbus, fun _ => .inr hdo, ?_⟩
      rw [hdo, served_iff]
      exact fun hold => h.zero (.inl hold)

/-- The frame of the sending example, with the topic of the domain 0. -/
def zeroDomainMsg : MqttMessage where
  topicName := ascii "/D1/0/1"
  payload := [149, 70, 219, 177, 207, 250, 75, 125, 205, 191, 159, 109, 22, 144, 79, 150, 233, 75,
    6, 180, 144, 236, 234, 221, 36, 116, 99, 192, 121, 44, 185, 151, 246, 138, 115, 9, 180, 235,
    201, 147, 109, 206, 117, 112, 180, 159, 134, 24]
  payload_lt := by decide

/-- With one domain loaded, a message for the domain 0 is taken to a free slot, and
its null route is called. -/
theorem zeroDomainMsg_not_dispatched :
    ∃ m, dasMessageReceive sampleCipher plentiful zeroDomainMsg = .ok m ∧
      ¬ Dispatched (loadAll sampleConfig [sampleLoad 1100 none]) (Queue.init 4) true m := by
  have hread : (dasMessageReceive sampleCipher plentiful zeroDomainMsg).toOption.map
      (fun m => (m.msgDomainId, m.msgCommandId)) = some (0, 1) := by decide +kernel
  cases hm : dasMessageReceive sampleCipher plentiful zeroDomainMsg with
  | error e =>
      rw [hm] at hread
      cases hread
  | ok m =>
      rw [hm] at hread
      obtain ⟨hdomain, hcmd⟩ := Prod.mk.inj (Option.some.inj hread)
      refine ⟨m, rfl, fun h => ?_⟩
      have hqueued : (handleSubMsg true m (Queue.init 4)).2.elems = [m] := by
        simp only [handleSubMsg, hdomain, hcmd]
        rfl
      have hnull : delivery (loadAll sampleConfig [sampleLoad 1100 none]).tables m = .nullRoute m := by
        unfold delivery
        rw [hdomain]
        rfl
      have hserved := h.served
      rw [hqueued, forall₂_consumeExtendData] at hserved
      have hone := hserved m List.mem_cons_self
      rw [hnull] at hone
      exact not_serves_nullRoute _ m hone

end EzIot.Das
