import Mathlib.Data.List.Perm.Basic
import EzIot.Kernel.Queue
import EzIot.Lib.Slots

/-! # Domains, modules and the distribution of events

Domains of the older protocol and modules of the newer one are loaded into two
fixed tables. A queued notice is taken by `consume_extend_event` and goes to what
the tables hold. A callback is known by a number, and a call of one is recorded
with its arguments.
-/

namespace EzIot.Kernel

open CText Slots

/-! ## The tables -/

/-- `ez_kernel_extend_t` without the name and version of the module. -/
structure KernelExtend where
  domainId : UInt16
  start : Option Nat
  stop : Option Nat
  dataRoute : Option Nat
  event : Option Nat
  pUser : Nat
deriving DecidableEq

structure KernelExtendV3 where
  module : CField 16
  dataRoute : Option Nat
  eventRoute : Option Nat
deriving DecidableEq

/-- `sdk_risk_control_flag`. -/
inductive RiskFlag
  | noRiskControl
  | riskControl
deriving DecidableEq

/-- `ezdev_sdk_kernel_domain_info`. -/
structure DomainInfo where
  domainRisk : RiskFlag
  cmdRiskArray : List UInt32
  kernelExtend : KernelExtend
deriving DecidableEq

/-- `CONFIG_EZIOT_CORE_EXTEND_COUNT`, `CONFIG_EZIOT_CORE_EXTEND_COUNT_V3` and
`CONFIG_EZIOT_CORE_RISK_CONTROL_CMD_MAX`. -/
structure ExtendConfig where
  extendCount : Nat
  extendCountV3 : Nat
  riskControlCmdMax : Nat

/-- `g_kernel_domains` and `g_kernel_extend`. -/
structure ExtendTables where
  kernelDomains : List DomainInfo
  kernelExtend : List KernelExtendV3
deriving DecidableEq

/-- A zeroed slot of `g_kernel_domains`. -/
def DomainInfo.zero (cmdMax : Nat) : DomainInfo :=
  ⟨.noRiskControl, List.replicate cmdMax 0, ⟨0, none, none, none, none, 0⟩⟩

def extendInit (c : ExtendConfig) : ExtendTables :=
  ⟨List.replicate c.extendCount (.zero c.riskControlCmdMax),
    List.replicate c.extendCountV3 ⟨.strncpy (.lit ""), none, none⟩⟩

/-- The loops over the domains take a slot with domain number 0 for the end. -/
def DomainInfo.free (s : DomainInfo) : Bool := s.kernelExtend.domainId = 0

/-- The loops over the modules take a slot without a name for the end. -/
def KernelExtendV3.free (s : KernelExtendV3) : Bool := s.module.length = 0

/-! ## Loading -/

def loadError : Put → MkernelError
  | .stored => .succ
  | .present => .extendReady
  | .full => .extendFull

def extendLoad (e : KernelExtend) (t : ExtendTables) : MkernelError × ExtendTables :=
  let r := put DomainInfo.free (fun s => s.kernelExtend.domainId = e.domainId)
    (fun s => { s with kernelExtend := e, domainRisk := .noRiskControl }) t.kernelDomains
  (loadError r.1, { t with kernelDomains := r.2 })

def extendLoadV3 (e : KernelExtendV3) (t : ExtendTables) : MkernelError × ExtendTables :=
  let r := put KernelExtendV3.free (fun s => s.module.toCString = e.module.toCString)
    (fun _ => e) t.kernelExtend
  (loadError r.1, { t with kernelExtend := r.2 })

inductive SdkState
  | idle0
  | idle
  | start
  | stop
deriving DecidableEq

def ezKernelExtendLoad (myState : SdkState) (externalExtend : Option KernelExtend)
    (t : ExtendTables) : EzErr × ExtendTables :=
  if myState ≠ .idle ∧ myState ≠ .start then (.notInit, t)
  else match externalExtend with
  | none => (.paramInvalid, t)
  | some e =>
      if e.dataRoute = none then (.paramInvalid, t)
      else if e.start = none then (.paramInvalid, t)
      else if e.stop = none then (.paramInvalid, t)
      else
        let r := extendLoad e t
        (if r.1 = .succ then .succ else .general, r.2)

def ezKernelExtendLoadV3 (myState : SdkState) (externalExtend : Option KernelExtendV3)
    (t : ExtendTables) : EzErr × ExtendTables :=
  if myState ≠ .idle ∧ myState ≠ .start then (.notInit, t)
  else match externalExtend with
  | none => (.paramInvalid, t)
  | some e =>
      if e.dataRoute = none then (.paramInvalid, t)
      else if e.eventRoute = none then (.paramInvalid, t)
      else if e.module.length = 0 then (.paramInvalid, t)
      else
        let r := extendLoadV3 e t
        (if r.1 = .extendFull then .memory else if r.1 = .succ then .succ else .general, r.2)

/-! ## Distribution -/

inductive InnerCbNotic
  | start
  | stop
  | event (e : KernelEvent)
deriving DecidableEq

/-- A call of a callback with its arguments. -/
inductive Invocation
  | domainStart (cb pUser : Nat)
  | domainStop (cb pUser : Nat)
  | domainEvent (cb : Nat) (e : KernelEvent) (pUser : Nat)
  | moduleEvent (cb : Nat) (e : KernelEvent)
  | eventNotice (e : KernelEvent)
deriving DecidableEq

/-- The loops over `g_kernel_domains`: a free slot ends them, and so does a domain
without the callback. -/
def eachDomain (call : KernelExtend → Option Invocation) : List DomainInfo → List Invocation
  | [] => []
  | s :: t =>
      if s.free then []
      else match call s.kernelExtend with
      | none => []
      | some i => i :: eachDomain call t

/-- The loop over `g_kernel_extend`. The branch for an acknowledgement only skips
a second call; the modules that it does not name reach the call below it. -/
def eachModule (e : KernelEvent) : List KernelExtendV3 → List Invocation
  | [] => []
  | s :: t =>
      if s.free then []
      else match s.eventRoute with
      | none => []
      | some cb =>
          match e with
          | .publishAck packCtx =>
              if s.module.toCString = packCtx.moduleName.toCString then
                .moduleEvent cb e :: eachModule e t
              else .moduleEvent cb e :: eachModule e t
          | _ => .moduleEvent cb e :: eachModule e t

def startCall (d : KernelExtend) : Option Invocation := d.start.map fun cb => .domainStart cb d.pUser

def stopCall (d : KernelExtend) : Option Invocation := d.stop.map fun cb => .domainStop cb d.pUser

def eventCall (e : KernelEvent) (d : KernelExtend) : Option Invocation :=
  d.event.map fun cb => .domainEvent cb e d.pUser

/-- What `consume_extend_event` does with the notice it has taken. -/
def distribute (t : ExtendTables) : InnerCbNotic → List Invocation
  | .start => eachDomain startCall t.kernelDomains
  | .stop => eachDomain stopCall t.kernelDomains
  | .event e => eachDomain (eventCall e) t.kernelDomains ++ eachModule e t.kernelExtend ++
      [.eventNotice e]

def consumeExtendEvent (t : ExtendTables) (q : Queue InnerCbNotic) :
    MkernelError × List Invocation × Queue InnerCbNotic :=
  match q.pop with
  | none => (.queueEmpty, [], q)
  | some (notic, q') => (.succ, distribute t notic, q')

/-! ## What was loaded

The history of the successful calls stands beside the tables.
-/

inductive LoadCall
  | load (myState : SdkState) (externalExtend : Option KernelExtend)
  | loadV3 (myState : SdkState) (externalExtend : Option KernelExtendV3)

structure Loaded where
  tables : ExtendTables
  domains : List KernelExtend
  modules : List KernelExtendV3

def Loaded.init (c : ExtendConfig) : Loaded := ⟨extendInit c, [], []⟩

def LoadCall.apply (s : Loaded) : LoadCall → Loaded
  | .load myState e =>
      let r := ezKernelExtendLoad myState e s.tables
      ⟨r.2, if r.1 = .succ then s.domains ++ e.toList else s.domains, s.modules⟩
  | .loadV3 myState e =>
      let r := ezKernelExtendLoadV3 myState e s.tables
      ⟨r.2, s.domains, if r.1 = .succ then s.modules ++ e.toList else s.modules⟩

/-- The state after a sequence of calls. -/
def loadAll (c : ExtendConfig) (calls : List LoadCall) : Loaded :=
  calls.foldl LoadCall.apply (.init c)

/-- The modules that an event is meant for: an acknowledgement goes to the module
that it names. -/
def addressed (e : KernelEvent) (m : KernelExtendV3) : Bool :=
  match e with
  | .publishAck packCtx => m.module.toCString = packCtx.moduleName.toCString
  | _ => true

def moduleCall (e : KernelEvent) (m : KernelExtendV3) : Option Invocation :=
  m.eventRoute.map fun cb => .moduleEvent cb e

/-- The application is told everything but acknowledgements. -/
def noticeCall : KernelEvent → List Invocation
  | .publishAck _ => []
  | e => [.eventNotice e]

/-- One call for every receiver. -/
def meantCalls (s : Loaded) (e : KernelEvent) : List Invocation :=
  s.domains.filterMap (eventCall e) ++ (s.modules.filter (addressed e)).filterMap (moduleCall e) ++
    noticeCall e

/-- The calls that are made are those that are meant, each as often. -/
def FansOut (s : Loaded) (q : Queue InnerCbNotic) (e : KernelEvent) : Prop :=
  (consumeExtendEvent s.tables q).2.1.Perm (meantCalls s e)

/-- Every domain with an event callback has a number and was loaded before every
domain that has a number and no event callback. -/
structure CallbacksFirst (domains : List KernelExtend) : Prop where
  numbered : ∀ d ∈ domains, d.event.isSome → d.domainId ≠ 0
  first : domains.Pairwise fun d d' => d.domainId ≠ 0 → d'.event.isSome → d.event.isSome

/-! ### The tables follow the history -/

/-- The domains with a number are in the table, in the order of the calls; the
modules all are. -/
structure Follows (s : Loaded) : Prop where
  compact : Compact DomainInfo.free s.tables.kernelDomains
  domains : (used DomainInfo.free s.tables.kernelDomains).map DomainInfo.kernelExtend =
    s.domains.filter fun d => d.domainId ≠ 0
  compactV3 : Compact KernelExtendV3.free s.tables.kernelExtend
  modules : used KernelExtendV3.free s.tables.kernelExtend = s.modules
  routed : ∀ m ∈ s.modules, m.eventRoute ≠ none

section Follows

variable {s : Loaded} {t : ExtendTables} {myState : SdkState}

theorem follows_init (c : ExtendConfig) : Follows (.init c) := by
  have hdomains : ∀ x ∈ (extendInit c).kernelDomains, x.free = true := by
    intro x hx
    rw [List.eq_of_mem_replicate hx]
    rfl
  have hmodules : ∀ x ∈ (extendInit c).kernelExtend, x.free = true := by
    intro x hx
    rw [List.eq_of_mem_replicate hx]
    rfl
  refine ⟨compact_of_all_free hdomains, ?_, compact_of_all_free hmodules,
    used_of_all_free hmodules, fun m hm => nomatch hm⟩
  rw [Loaded.init, used_of_all_free hdomains]
  rfl

theorem loadError_succ {r : Put} : loadError r = .succ ↔ r = .stored := by
  cases r with
  | stored => simp [loadError]
  | present => simp [loadError]
  | full => simp [loadError]

/-- A load fails and changes nothing, or its argument went to a free slot. -/
theorem ezKernelExtendLoad_cases (myState : SdkState) (e : Option KernelExtend)
    (t : ExtendTables) :
    (∃ d, e = some d ∧ ezKernelExtendLoad myState e t = (.succ, (extendLoad d t).2) ∧
      (extendLoad d t).1 = .succ) ∨
    ((ezKernelExtendLoad myState e t).1 ≠ .succ ∧ (ezKernelExtendLoad myState e t).2 = t) := by
  unfold ezKernelExtendLoad
  split
  · exact .inr ⟨by simp, rfl⟩
  · cases e with
    | none => exact .inr ⟨by simp, rfl⟩
    | some d =>
        dsimp only
        split
        · exact .inr ⟨by simp, rfl⟩
        · split
          · exact .inr ⟨by simp, rfl⟩
          · split
            · exact .inr ⟨by simp, rfl⟩
            · by_cases hload : (extendLoad d t).1 = .succ
              · exact .inl ⟨d, rfl, by simp [hload], hload⟩
              · refine .inr ⟨by simp [hload], ?_⟩
                have hput : (extendLoad d t).2.kernelDomains = t.kernelDomains :=
                  put_unchanged fun h => hload (loadError_succ.mpr h)
                cases t
                exact congrArg (ExtendTables.mk · _) hput

/-- The same for modules; what is loaded has a name and a route for events. -/
theorem ezKernelExtendLoadV3_cases (myState : SdkState) (e : Option KernelExtendV3)
    (t : ExtendTables) :
    (∃ m, e = some m ∧ ezKernelExtendLoadV3 myState e t = (.succ, (extendLoadV3 m t).2) ∧
      (extendLoadV3 m t).1 = .succ ∧ m.eventRoute ≠ none ∧ m.module.length ≠ 0) ∨
    ((ezKernelExtendLoadV3 myState e t).1 ≠ .succ ∧ (ezKernelExtendLoadV3 myState e t).2 = t) := by
  unfold ezKernelExtendLoadV3
  split
  · exact .inr ⟨by simp, rfl⟩
  · cases e with
    | none => exact .inr ⟨by simp, rfl⟩
    | some m =>
        dsimp only
        split
        · exact .inr ⟨by simp, rfl⟩
        · split
          · exact .inr ⟨by simp, rfl⟩
          · split
            · exact .inr ⟨by simp, rfl⟩
            · next hroute hname =>
                by_cases hload : (extendLoadV3 m t).1 = .succ
                · exact .inl ⟨m, rfl, by simp [hload], hload, hroute, hname⟩
                · refine .inr ⟨by split <;> simp, ?_⟩
                  have hput : (extendLoadV3 m t).2.kernelExtend = t.kernelExtend :=
                    put_unchanged fun h => hload (loadError_succ.mpr h)
                  cases t
                  exact congrArg (ExtendTables.mk _) hput

theorem Follows.load (h : Follows s) (myState : SdkState) (e : Option KernelExtend) :
    Follows ((LoadCall.load myState e).apply s) := by
  unfold LoadCall.apply
  rcases ezKernelExtendLoad_cases myState e s.tables with ⟨d, rfl, hcall, hload⟩ | ⟨hfail, hsame⟩
  · have hstored := loadError_succ.mp hload
    simp only [hcall, if_pos, Option.toList_some]
    by_cases hd : d.domainId = 0
    · have hfree := used_put_of_free h.compact (fun _ => by simp [DomainInfo.free, hd]) hstored
      refine ⟨hfree.1, ?_, h.compactV3, h.modules, h.routed⟩
      rw [List.filter_append, List.filter_cons_of_neg (by simpa using hd), List.filter_nil,
        List.append_nil, ← h.domains]
      exact congrArg _ hfree.2
    · have hput := used_put h.compact (fun _ => by simp [DomainInfo.free, hd]) hstored
      refine ⟨hput.1, ?_, h.compactV3, h.modules, h.routed⟩
      rcases hput.2 with ⟨slot, hused⟩
      rw [List.filter_append, List.filter_cons_of_pos (by simpa using hd), List.filter_nil,
        ← h.domains]
      exact (congrArg _ hused).trans (List.map_append ..)
  · simp only [if_neg hfail, hsame]
    exact h

theorem Follows.loadV3 (h : Follows s) (myState : SdkState) (e : Option KernelExtendV3) :
    Follows ((LoadCall.loadV3 myState e).apply s) := by
  unfold LoadCall.apply
  rcases ezKernelExtendLoadV3_cases myState e s.tables with
    ⟨m, rfl, hcall, hload, hroute, hname⟩ | ⟨hfail, hsame⟩
  · have hstored := loadError_succ.mp hload
    simp only [hcall, if_pos, Option.toList_some]
    have hput := used_put h.compactV3 (fun _ => by simp [KernelExtendV3.free, hname]) hstored
    refine ⟨h.compact, h.domains, hput.1, ?_, ?_⟩
    · rcases hput.2 with ⟨slot, hused⟩
      exact hused.trans (congrArg (· ++ [m]) h.modules)
    · intro m' hm'
      rcases List.mem_append.mp hm' with hold | hnew
      · exact h.routed m' hold
      · rw [List.mem_singleton.mp hnew]
        exact hroute
  · simp only [if_neg hfail, hsame]
    exact h

theorem follows_loadAll (c : ExtendConfig) (calls : List LoadCall) : Follows (loadAll c calls) := by
  refine List.foldlRecOn calls LoadCall.apply (follows_init c) ?_
  intro s h call _
  cases call with
  | load myState e => exact h.load myState e
  | loadV3 myState e => exact h.loadV3 myState e

end Follows

/-! ### What the loops call -/

section Loops

variable {s : Loaded} {e : KernelEvent}

/-- The loop stops at the first used slot without the callback. -/
theorem eachDomain_eq (call : KernelExtend → Option Invocation) (t : List DomainInfo) :
    eachDomain call t =
      (((used DomainInfo.free t).map DomainInfo.kernelExtend).takeWhile
        fun d => (call d).isSome).filterMap call := by
  induction t with
  | nil => rfl
  | cons x t ih =>
      by_cases hx : x.free
      · simp [eachDomain, used, hx]
      · cases hcall : call x.kernelExtend with
        | none => simp [eachDomain, used, hx, hcall]
        | some i =>
            simp only [used] at ih
            simp [eachDomain, used, hx, hcall, ih]

theorem eachModule_eq {t : List KernelExtendV3}
    (h : ∀ m ∈ used KernelExtendV3.free t, m.eventRoute ≠ none) :
    eachModule e t = (used KernelExtendV3.free t).filterMap (moduleCall e) := by
  induction t with
  | nil => rfl
  | cons x t ih =>
      by_cases hx : x.free
      · simp [eachModule, used, hx]
      · have hused : used KernelExtendV3.free (x :: t) = x :: used KernelExtendV3.free t := by
          simp [used, hx]
        rw [hused] at h ⊢
        rcases Option.ne_none_iff_exists'.mp (h x List.mem_cons_self) with ⟨cb, hcb⟩
        have hrest := ih fun m hm => h m (List.mem_cons_of_mem x hm)
        have hcall : moduleCall e x = some (.moduleEvent cb e) := by simp [moduleCall, hcb]
        rw [List.filterMap_cons_some hcall, ← hrest]
        cases e with
        | publishAck packCtx => simp [eachModule, hx, hcb]
        | _ => simp [eachModule, hx, hcb]

theorem isSome_eventCall (d : KernelExtend) : (eventCall e d).isSome = d.event.isSome := by
  simp [eventCall]

theorem callbacksFirst_iff (domains : List KernelExtend) :
    ((∀ d ∈ domains, (eventCall e d).isSome → decide (d.domainId ≠ 0) = true) ∧
      (domains.filter fun d => decide (d.domainId ≠ 0)).Pairwise fun d d' =>
        (eventCall e d').isSome → (eventCall e d).isSome) ↔ CallbacksFirst domains := by
  simp only [isSome_eventCall, List.pairwise_filter, decide_eq_true_eq]
  constructor
  · intro ⟨hnumbered, hpair⟩
    refine ⟨hnumbered, hpair.imp_of_mem ?_⟩
    intro d d' _ hd' h hnum hev
    exact h hnum (hnumbered d' hd' hev) hev
  · intro h
    refine ⟨h.numbered, h.first.imp ?_⟩
    intro d d' h hnum _ hev
    exact h hnum hev

/-- The loop over the domains makes the calls that are meant for them. -/
theorem eachDomain_perm_iff (h : Follows s) :
    (eachDomain (eventCall e) s.tables.kernelDomains).Perm (s.domains.filterMap (eventCall e)) ↔
      CallbacksFirst s.domains := by
  rw [eachDomain_eq, h.domains, filterMap_takeWhile_perm, callbacksFirst_iff]

theorem eachModule_of_follows (h : Follows s) :
    eachModule e s.tables.kernelExtend = s.modules.filterMap (moduleCall e) := by
  have hroute : ∀ m ∈ used KernelExtendV3.free s.tables.kernelExtend, m.eventRoute ≠ none := by
    rw [h.modules]
    exact h.routed
  rw [eachModule_eq hroute, h.modules]

theorem consumeExtendEvent_calls {q : Queue InnerCbNotic} {notic : InnerCbNotic}
    {rest : List InnerCbNotic} (h : q.elems = notic :: rest) (t : ExtendTables) :
    (consumeExtendEvent t q).2.1 = distribute t notic := by
  cases hpop : q.pop with
  | none =>
      unfold Queue.pop at hpop
      split at hpop
      · simp_all
      · cases hpop
  | some r =>
      have helems : q.elems = r.1 :: r.2.elems := Queue.pop_some hpop
      rw [h, List.cons.injEq] at helems
      rw [consumeExtendEvent, hpop, helems.1]

theorem addressed_of_not_ack (h : ∀ ack, e ≠ .publishAck ack) (m : KernelExtendV3) :
    addressed e m = true := by
  cases e with
  | publishAck ack => exact absurd rfl (h ack)
  | _ => rfl

theorem noticeCall_of_not_ack (h : ∀ ack, e ≠ .publishAck ack) : noticeCall e = [.eventNotice e] := by
  cases e with
  | publishAck ack => exact absurd rfl (h ack)
  | _ => rfl

end Loops

/-- An event reaches its receivers, each once, exactly when it is no
acknowledgement and no loop over the domains ends too early: acknowledgements go
to every module and to the application. -/
theorem fans_out_iff (c : ExtendConfig) (calls : List LoadCall) (q : Queue InnerCbNotic)
    (e : KernelEvent) (rest : List InnerCbNotic) (h : q.elems = .event e :: rest) :
    FansOut (loadAll c calls) q e ↔
      (∀ ack, e ≠ .publishAck ack) ∧ CallbacksFirst (loadAll c calls).domains := by
  have hfollows := follows_loadAll c calls
  unfold FansOut meantCalls
  rw [consumeExtendEvent_calls h, distribute, eachModule_of_follows hfollows]
  by_cases hack : ∃ ack, e = .publishAck ack
  · rcases hack with ⟨ack, rfl⟩
    constructor
    · intro hperm
      have hmem := hperm.mem_iff (a := .eventNotice (.publishAck ack))
      simp [eventCall, moduleCall, noticeCall] at hmem
    · intro ⟨hnot, _⟩
      exact absurd rfl (hnot ack)
  · have hnot : ∀ ack, e ≠ .publishAck ack := fun ack heq => hack ⟨ack, heq⟩
    have hmodules : (loadAll c calls).modules.filter (addressed e) = (loadAll c calls).modules :=
      List.filter_eq_self.mpr fun m _ => addressed_of_not_ack hnot m
    rw [hmodules, noticeCall_of_not_ack hnot, List.perm_append_right_iff,
      List.perm_append_right_iff, eachDomain_perm_iff hfollows, and_iff_right hnot]

def sampleConfig : ExtendConfig := ⟨8, 8, 16⟩

/-- A load of a domain with all callbacks but possibly the one for events. -/
def sampleLoad (domainId : UInt16) (event : Option Nat) : LoadCall :=
  .load .idle (some ⟨domainId, some 1, some 2, some 3, event, 0⟩)

def onlineQueue : Queue InnerCbNotic := ((Queue.init 4).push true (.event .online)).2

theorem fans_out_callbacks_first : FansOut (loadAll sampleConfig
    [sampleLoad 1100 (some 4), .loadV3 .start (some ⟨.strncpy (.lit "ota"), some 5, some 6⟩),
      sampleLoad 1200 none]) onlineQueue .online := by
  refine (fans_out_iff _ _ onlineQueue .online [] rfl).mpr ⟨?_, ?_, ?_⟩
  · intro ack h
    cases h
  · decide
  · decide

/-- The domain that was loaded second is not told that the device is online. -/
theorem fans_out_fails_after_silent_domain : ¬ FansOut (loadAll sampleConfig
    [sampleLoad 1100 none, sampleLoad 1200 (some 4)]) onlineQueue .online := by
  unfold FansOut
  decide

end EzIot.Kernel
