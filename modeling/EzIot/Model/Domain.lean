import Mathlib.Data.List.Nodup
import EzIot.Kernel.Extend
import EzIot.Lib.Run

/-! # The domains of the model module

The model module routes the messages of the things model to the domains that registered
for them. It sets itself up when the first of them does, and is torn down as they leave.
-/

namespace EzIot.Model

open CText Kernel Slots Run

/-! ## State -/

inductive ModelErrcode
  | sucess
  | notInited
  | invalidParam
  | modelRegFail
  | modelDomainReged
  | modelMallocErr
deriving DecidableEq

structure EzDomainReg where
  domain : CField 64
  dasReqRouter : Option Nat
  dasReplyRouter : Option Nat
deriving DecidableEq

inductive Lock
  | null
  | live
  | destroyed
deriving DecidableEq

/-- The static variables of the module, and the tables of the kernel it is loaded into. -/
structure ModelState where
  gInited : Bool
  gModelDomains : List EzDomainReg
  gModelDomainLockH : Lock
  gModelCbLockH : Lock
  gEzModelDataRouter : Option Nat
  tables : ExtendTables
deriving DecidableEq

structure Allocs where
  domainLock : Bool
  cbLock : Bool
  node : Bool
  domainInfo : Bool
deriving DecidableEq

/-- The kernel the module runs on, and the functions it hands to it. -/
structure Env where
  myState : SdkState
  ezModelDataRoute : Nat
  ezModelEventRoute : Nat

/-! ## The module -/

/-- `ezos_mutex_lock`, which does nothing for a null handle. A mutex that was destroyed
has no defined behaviour. -/
def Lock.lock (l : Lock) : Option Unit := if l = .destroyed then none else some ()

/-- `ezos_mutex_destroy` behind the check for a null handle; the handle stays. -/
def Lock.destroy : Lock → Option Lock
  | .null => some .null
  | .live => some .destroyed
  | .destroyed => none

/-- `extern_info` of `ez_model_extern_init`. -/
def externInfo (env : Env) : KernelExtendV3 :=
  ⟨.strncpy (.lit "model"), some env.ezModelDataRoute, some env.ezModelEventRoute⟩

def ezModelExternInit (env : Env) (a : Allocs) (s : ModelState) : ModelErrcode × ModelState :=
  let r := ezKernelExtendLoadV3 env.myState (some (externInfo env)) s.tables
  let s := { s with tables := r.2, gModelDomains := [] }
  if a.domainLock = false then (.modelMallocErr, { s with gModelDomainLockH := .null })
  else if a.cbLock = false then
    (.modelMallocErr, { s with gModelDomainLockH := .destroyed, gModelCbLockH := .null })
  else if r.1 = .succ then
    (.sucess, { s with gModelDomainLockH := .live, gModelCbLockH := .live })
  else (.modelRegFail, { s with gModelDomainLockH := .destroyed, gModelCbLockH := .live })

/-- Both handles stay as they are, whatever is left of the mutexes. -/
def ezModelExternDeinit (s : ModelState) : Option ModelState :=
  match s.gModelDomainLockH.destroy, s.gModelCbLockH.destroy with
  | some domainLock, some cbLock =>
      some { s with gModelDomainLockH := domainLock, gModelCbLockH := cbLock }
  | _, _ => none

def ezModelInit (env : Env) (a : Allocs) (s : ModelState) : ModelErrcode × ModelState :=
  let r := ezModelExternInit env a s
  (r.1, if r.1 = .sucess then { r.2 with gInited := true } else r.2)

def ezModelFini (s : ModelState) : Option ModelState :=
  if s.gInited = false then some s
  else
    s.gModelDomainLockH.lock.bind fun _ =>
      ezModelExternDeinit (if s.gModelDomains.length = 0 then { s with gInited := false } else s)

/-- `ez_model_find_domain_info`. -/
def findDomainInfo (domain : CString) (l : List EzDomainReg) : Option EzDomainReg :=
  l.find? fun d => decide (d.domain.toCString = domain)

def ezModelAddDomainInfo (a : Allocs) (d : EzDomainReg) (l : List EzDomainReg) :
    ModelErrcode × List EzDomainReg :=
  if (findDomainInfo d.domain.toCString l).isSome then (.modelDomainReged, l)
  else if a.node = false then (.modelMallocErr, l)
  else if a.domainInfo = false then (.modelMallocErr, l)
  else (.sucess, l ++ [d])

def EzDomainReg.valid (d : EzDomainReg) : Bool :=
  d.dasReplyRouter.isSome && d.dasReqRouter.isSome && decide (d.domain.length ≠ 0)

def ezRegDomain (a : Allocs) (d : EzDomainReg) (s : ModelState) :
    Option (ModelErrcode × ModelState) :=
  if d.valid = false then some (.invalidParam, s)
  else
    s.gModelDomainLockH.lock.map fun _ =>
      let r := ezModelAddDomainInfo a d s.gModelDomains
      (r.1, { s with gModelDomains := r.2 })

def ezDeregDomain (domain : CString) (s : ModelState) : Option ModelState :=
  s.gModelDomainLockH.lock.map fun _ =>
    { s with gModelDomains := s.gModelDomains.eraseP fun d => decide (d.domain.toCString = domain) }

/-- `ez_get_reg_domain`, by which a message finds the callbacks of its domain. -/
def ezGetRegDomain (domain : CString) (s : ModelState) : Option (Option EzDomainReg) :=
  s.gModelDomainLockH.lock.map fun _ => findDomainInfo domain s.gModelDomains

def ezSetDataRouteCb (router : Option (Option Nat)) (s : ModelState) :
    Option (ModelErrcode × ModelState) :=
  match router with
  | none => some (.invalidParam, s)
  | some cb => s.gModelCbLockH.lock.map fun _ => (.sucess, { s with gEzModelDataRouter := cb })

/-! ## The interface -/

/-- What the functions that register do first. -/
def withInit (env : Env) (a : Allocs) (s : ModelState)
    (k : ModelState → Option (ModelErrcode × ModelState)) : Option (ModelErrcode × ModelState) :=
  if s.gInited then k s
  else
    let r := ezModelInit env a s
    if r.1 ≠ .sucess then some r else k r.2

def ezIotModelDomainReg (env : Env) (a : Allocs) (domainReg : Option EzDomainReg)
    (s : ModelState) : Option (ModelErrcode × ModelState) :=
  match domainReg with
  | none => some (.invalidParam, s)
  | some d => withInit env a s (ezRegDomain a d)

def ezIotModelDomainDereg (domain : Option CString) (s : ModelState) :
    Option (ModelErrcode × ModelState) :=
  if s.gInited = false then some (.notInited, s)
  else
    match domain with
    | none => some (.invalidParam, s)
    | some name => ((ezDeregDomain name s).bind ezModelFini).map fun s => (.sucess, s)

def ezIotModelRegDefaultCb (env : Env) (a : Allocs) (router : Option (Option Nat))
    (s : ModelState) : Option (ModelErrcode × ModelState) :=
  withInit env a s (ezSetDataRouteCb router)

def ezIotModelDeregDefaultCb (router : Option (Option Nat)) (s : ModelState) :
    Option (ModelErrcode × ModelState) :=
  (ezSetDataRouteCb router s).bind fun r => (ezModelFini r.2).map fun s => (.sucess, s)

inductive ModelCall
  | domainReg (d : Option EzDomainReg)
  | domainDereg (domain : Option CString)
  | regDefaultCb (router : Option (Option Nat))
  | deregDefaultCb (router : Option (Option Nat))
deriving DecidableEq

def ModelCall.run (env : Env) (a : Allocs) (s : ModelState) :
    ModelCall → Option (ModelErrcode × ModelState)
  | .domainReg d => ezIotModelDomainReg env a d s
  | .domainDereg domain => ezIotModelDomainDereg domain s
  | .regDefaultCb router => ezIotModelRegDefaultCb env a router s
  | .deregDefaultCb router => ezIotModelDeregDefaultCb router s

/-! ## Who is registered -/

/-- The module, and the domains whose registration succeeded since they were last
deregistered. -/
structure Session where
  model : ModelState
  domains : List EzDomainReg
deriving DecidableEq

/-- What a call that returned `rv` makes of the registered domains. -/
def ModelCall.registered (rv : ModelErrcode) (l : List EzDomainReg) : ModelCall → List EzDomainReg
  | .domainReg (some d) => if rv = .sucess then l ++ [d] else l
  | .domainDereg (some name) =>
      if rv = .sucess then l.filter fun d => !decide (d.domain.toCString = name) else l
  | _ => l

def Session.step (env : Env) (s : Session) (i : ModelCall × Allocs) : Option Session :=
  (i.1.run env i.2 s.model).map fun r => ⟨r.2, i.1.registered r.1 s.domains⟩

def Allocs.fine : Allocs := ⟨true, true, true, true⟩

/-- A domain that is not registered can be, and one that is has its own callbacks. -/
structure Works (env : Env) (s : Session) : Prop where
  registers : ∀ d : EzDomainReg, d.valid = true → (∀ e ∈ s.domains, e.domain ≠ d.domain) →
    ∃ s', ezIotModelDomainReg env .fine (some d) s.model = some (.sucess, s') ∧
      ezGetRegDomain d.domain.toCString s' = some (some d)
  routes : ∀ d ∈ s.domains, ezGetRegDomain d.domain.toCString s.model = some (some d)

/-- Nothing is deregistered once the module is set up, and it gets its mutexes when it is. -/
def KeepsWorking (s : Session) (i : ModelCall × Allocs) : Prop :=
  match i.1 with
  | .domainReg none => True
  | .domainReg (some _) => s.model.gInited = false → i.2.domainLock = true ∧ i.2.cbLock = true
  | .regDefaultCb _ => s.model.gInited = false → i.2.domainLock = true ∧ i.2.cbLock = true
  | .domainDereg none => True
  | .domainDereg (some _) => s.model.gInited = false
  | .deregDefaultCb _ => s.model.gInited = false

/-! ## The two good phases -/

/-- The kernel takes the module. -/
def Loads (env : Env) (t : ExtendTables) : Prop :=
  (ezKernelExtendLoadV3 env.myState (some (externInfo env)) t).1 = .succ

structure Fresh (env : Env) (s : Session) : Prop where
  inited : s.model.gInited = false
  domains : s.domains = []
  domainLock : s.model.gModelDomainLockH = .null
  cbLock : s.model.gModelCbLockH = .null
  loads : Loads env s.model.tables

structure Running (env : Env) (s : Session) : Prop where
  inited : s.model.gInited = true
  listed : s.model.gModelDomains = s.domains
  domainLock : s.model.gModelDomainLockH = .live
  cbLock : s.model.gModelCbLockH = .live
  loaded : ¬ Loads env s.model.tables
  nodup : (s.domains.map EzDomainReg.domain).Nodup

section Phases

variable {env : Env} {s : Session} {a : Allocs} {m : ModelState}

theorem loads_once {t : ExtendTables} (h : Loads env t) :
    ¬ Loads env (ezKernelExtendLoadV3 env.myState (some (externInfo env)) t).2 := by
  intro hagain
  rcases ezKernelExtendLoadV3_cases env.myState (some (externInfo env)) t with
    ⟨e, he, hcall, hload, -, hname⟩ | ⟨hfail, -⟩
  · rw [hcall] at hagain
    cases he
    rcases ezKernelExtendLoadV3_cases env.myState (some (externInfo env))
      (extendLoadV3 (externInfo env) t).2 with ⟨e', he', -, hload', -⟩ | ⟨hfail', -⟩
    · cases he'
      have hpresent := put_again (loadError_succ.mp hload)
        (fun _ => decide_eq_false hname) (fun _ => decide_eq_true rfl)
      have hstored := loadError_succ.mp hload'
      exact absurd (hpresent.symm.trans hstored) (by decide)
    · exact hfail' hagain
  · exact hfail h

/-- What a successful set-up makes of the state. -/
def setUp (env : Env) (m : ModelState) : ModelState where
  gInited := true
  gModelDomains := []
  gModelDomainLockH := .live
  gModelCbLockH := .live
  gEzModelDataRouter := m.gEzModelDataRouter
  tables := (ezKernelExtendLoadV3 env.myState (some (externInfo env)) m.tables).2

/-- The set-up succeeds once, with both mutexes. -/
theorem ezModelInit_sucess (hloads : Loads env m.tables)
    (hlocks : a.domainLock = true ∧ a.cbLock = true) :
    ezModelInit env a m = (.sucess, setUp env m) := by
  have hload : (ezKernelExtendLoadV3 env.myState (some (externInfo env)) m.tables).1 = .succ := hloads
  unfold ezModelInit ezModelExternInit setUp
  simp [hlocks, hload]

theorem ezModelExternInit_kept (env : Env) (a : Allocs) (m : ModelState) :
    (ezModelExternInit env a m).2.gInited = m.gInited ∧
      (ezModelExternInit env a m).2.tables =
        (ezKernelExtendLoadV3 env.myState (some (externInfo env)) m.tables).2 := by
  unfold ezModelExternInit
  dsimp only
  split
  · exact ⟨rfl, rfl⟩
  split
  · exact ⟨rfl, rfl⟩
  split <;> exact ⟨rfl, rfl⟩

theorem ezModelExternInit_sucess_iff :
    (ezModelExternInit env a m).1 = .sucess ↔
      (a.domainLock = true ∧ a.cbLock = true) ∧ Loads env m.tables := by
  unfold ezModelExternInit Loads
  dsimp only
  split
  next hdomain => simp [hdomain]
  next hdomain =>
    split
    next hcb => simp [hcb]
    next hcb =>
      rw [Bool.not_eq_false] at hdomain hcb
      split
      next hload => simp [hdomain, hcb, hload]
      next hload => simp [hload]

/-- What a failed set-up leaves: the module is loaded, and not set up. -/
theorem ezModelInit_failed (h : ¬ ((a.domainLock = true ∧ a.cbLock = true) ∧ Loads env m.tables)) :
    ezModelInit env a m = ezModelExternInit env a m ∧ (ezModelExternInit env a m).1 ≠ .sucess := by
  have hne := mt ezModelExternInit_sucess_iff.mp h
  exact ⟨Prod.ext rfl (if_neg hne), hne⟩

theorem Fresh.running (h : Fresh env s) : Running env ⟨setUp env s.model, []⟩ :=
  ⟨rfl, rfl, rfl, rfl, loads_once h.loads, List.nodup_nil⟩

variable {k : ModelState → Option (ModelErrcode × ModelState)}

theorem Running.withInit (h : Running env s) : withInit env a s.model k = k s.model :=
  if_pos h.inited

theorem Fresh.withInit (h : Fresh env s) (hlocks : a.domainLock = true ∧ a.cbLock = true) :
    withInit env a s.model k = k (setUp env s.model) := by
  rw [Model.withInit, h.inited, if_neg (by simp), ezModelInit_sucess h.loads hlocks]
  rfl

theorem withInit_failed (hinit : m.gInited = false)
    (hfail : ¬ ((a.domainLock = true ∧ a.cbLock = true) ∧ Loads env m.tables)) :
    Model.withInit env a m k = some (ezModelExternInit env a m) ∧
      (ezModelExternInit env a m).1 ≠ .sucess := by
  obtain ⟨heq, hne⟩ := ezModelInit_failed hfail
  rw [Model.withInit, hinit, if_neg (by simp), heq]
  exact ⟨if_pos hne, hne⟩

/-! ## Registered domains are found -/

theorem findDomainInfo_of_mem {l : List EzDomainReg} (hnodup : (l.map EzDomainReg.domain).Nodup)
    {d : EzDomainReg} (hd : d ∈ l) : findDomainInfo d.domain.toCString l = some d := by
  unfold findDomainInfo
  obtain ⟨e, hfind⟩ : ∃ e, l.find? (fun e => decide (e.domain.toCString = d.domain.toCString)) =
      some e := Option.isSome_iff_exists.mp (List.find?_isSome.mpr ⟨d, hd, decide_eq_true rfl⟩)
  have hself := List.find?_some hfind
  have hname : e.domain = d.domain := CField.ext (of_decide_eq_true hself)
  rw [hfind, List.inj_on_of_nodup_map hnodup (List.mem_of_find?_eq_some hfind) hd hname]

theorem findDomainInfo_of_not_mem {l : List EzDomainReg} {d : EzDomainReg}
    (hd : ∀ e ∈ l, e.domain ≠ d.domain) : findDomainInfo d.domain.toCString l = none := by
  unfold findDomainInfo
  rw [List.find?_eq_none]
  intro e he hname
  exact hd e he (CField.ext (of_decide_eq_true hname))

theorem Running.routes (h : Running env s) {d : EzDomainReg} (hd : d ∈ s.domains) :
    ezGetRegDomain d.domain.toCString s.model = some (some d) := by
  rw [ezGetRegDomain, h.domainLock, h.listed, findDomainInfo_of_mem h.nodup hd]
  rfl

theorem Running.reg (h : Running env s) {d : EzDomainReg} (hd : d.valid = true) :
    ezIotModelDomainReg env a (some d) s.model = some
      ((ezModelAddDomainInfo a d s.domains).1,
        { s.model with gModelDomains := (ezModelAddDomainInfo a d s.domains).2 }) := by
  have hlock : s.model.gModelDomainLockH.lock = some () := by
    rw [h.domainLock]
    rfl
  rw [ezIotModelDomainReg, h.withInit, ezRegDomain, hd, if_neg (by simp), hlock, Option.map_some,
    h.listed]

/-- A registration adds its domain, or nothing. -/
theorem ezModelAddDomainInfo_cases (a : Allocs) (d : EzDomainReg) (l : List EzDomainReg) :
    ((ezModelAddDomainInfo a d l).1 ≠ .sucess ∧ (ezModelAddDomainInfo a d l).2 = l) ∨
      ((ezModelAddDomainInfo a d l) = (.sucess, l ++ [d]) ∧ ∀ e ∈ l, e.domain ≠ d.domain) := by
  unfold ezModelAddDomainInfo
  split
  · exact .inl ⟨by simp, rfl⟩
  next hnew =>
    split
    · exact .inl ⟨by simp, rfl⟩
    split
    · exact .inl ⟨by simp, rfl⟩
    · refine .inr ⟨rfl, fun e he hname => hnew ?_⟩
      exact List.find?_isSome.mpr ⟨e, he, decide_eq_true (congrArg CField.toCString hname)⟩

theorem Running.add (h : Running env s) {d : EzDomainReg}
    (hnew : ∀ e ∈ s.domains, e.domain ≠ d.domain) :
    Running env ⟨{ s.model with gModelDomains := s.domains ++ [d] }, s.domains ++ [d]⟩ := by
  refine ⟨h.inited, rfl, h.domainLock, h.cbLock, h.loaded, ?_⟩
  rw [List.map_append, List.map_singleton]
  refine List.nodup_append.mpr ⟨h.nodup, List.nodup_singleton _, fun x hx y hy => ?_⟩
  obtain ⟨e, he, rfl⟩ := List.mem_map.mp hx
  rw [List.mem_singleton.mp hy]
  exact hnew e he

theorem Running.registers (h : Running env s) {d : EzDomainReg} (hd : d.valid = true)
    (hnew : ∀ e ∈ s.domains, e.domain ≠ d.domain) :
    ∃ m, ezIotModelDomainReg env .fine (some d) s.model = some (.sucess, m) ∧
      ezGetRegDomain d.domain.toCString m = some (some d) := by
  have hadd : ezModelAddDomainInfo .fine d s.domains = (.sucess, s.domains ++ [d]) := by
    rw [ezModelAddDomainInfo, findDomainInfo_of_not_mem hnew]
    rfl
  refine ⟨_, (h.reg hd).trans (by rw [hadd]), ?_⟩
  exact (h.add hnew).routes (List.mem_append_right _ (List.mem_singleton_self d))

theorem Running.works (h : Running env s) : Works env s :=
  ⟨fun _ hd hnew => h.registers hd hnew, fun _ hd => h.routes hd⟩

theorem Fresh.works (h : Fresh env s) : Works env s := by
  refine ⟨fun d hd _ => ?_, fun d hd => ?_⟩
  · obtain ⟨m, hreg, hroute⟩ := h.running.registers hd fun e he => absurd he List.not_mem_nil
    refine ⟨m, ?_, hroute⟩
    rw [← hreg]
    exact h.withInit ⟨rfl, rfl⟩
  · rw [h.domains] at hd
    exact absurd hd List.not_mem_nil

/-! ## Steps -/

theorem Running.regStep (h : Running env s) (a : Allocs) (d : EzDomainReg) :
    ∃ s', s.step env (.domainReg (some d), a) = some s' ∧ Running env s' := by
  by_cases hd : d.valid = true
  · have hrun : ModelCall.run env a s.model (.domainReg (some d)) = _ := h.reg hd
    rcases ezModelAddDomainInfo_cases a d s.domains with ⟨hne, hsame⟩ | ⟨hadd, hnew⟩
    · refine ⟨⟨{ s.model with gModelDomains := s.domains }, s.domains⟩, ?_,
        ⟨h.inited, rfl, h.domainLock, h.cbLock, h.loaded, h.nodup⟩⟩
      rw [Session.step, hrun, hsame]
      simp [ModelCall.registered, hne]
    · refine ⟨⟨_, s.domains ++ [d]⟩, ?_, h.add hnew⟩
      rw [Session.step, hrun, hadd]
      rfl
  · refine ⟨s, ?_, h⟩
    have hrun : ModelCall.run env a s.model (.domainReg (some d)) = some (.invalidParam, s.model) := by
      rw [ModelCall.run, ezIotModelDomainReg, h.withInit, ezRegDomain, if_pos (by simpa using hd)]
    rw [Session.step, hrun]
    rfl

theorem Running.regDefaultCbStep (h : Running env s) (a : Allocs) (router : Option (Option Nat)) :
    ∃ s', s.step env (.regDefaultCb router, a) = some s' ∧ Running env s' := by
  have hlock : s.model.gModelCbLockH.lock = some () := by
    rw [h.cbLock]
    rfl
  rw [Session.step, ModelCall.run, ezIotModelRegDefaultCb, h.withInit]
  cases router with
  | none => exact ⟨s, rfl, h⟩
  | some cb =>
      refine ⟨⟨{ s.model with gEzModelDataRouter := cb }, s.domains⟩, ?_,
        ⟨h.inited, h.listed, h.domainLock, h.cbLock, h.loaded, h.nodup⟩⟩
      rw [ezSetDataRouteCb, hlock]
      rfl

/-- A call that keeps a new module working leaves it new or sets it up. -/
theorem Fresh.step (h : Fresh env s) {i : ModelCall × Allocs} (hkeeps : KeepsWorking s i) :
    ∃ s', s.step env i = some s' ∧ (Fresh env s' ∨ Running env s') := by
  obtain ⟨call, a⟩ := i
  cases call with
  | domainReg d =>
      cases d with
      | none => exact ⟨s, rfl, .inl h⟩
      | some d =>
          have hlocks := hkeeps h.inited
          obtain ⟨s', hstep, hrunning⟩ := h.running.regStep a d
          refine ⟨s', ?_, .inr hrunning⟩
          rw [← hstep, Session.step, Session.step, h.domains]
          exact congrArg (Option.map _) ((h.withInit hlocks).trans (h.running.withInit (a := a)).symm)
  | regDefaultCb router =>
      have hlocks := hkeeps h.inited
      obtain ⟨s', hstep, hrunning⟩ := h.running.regDefaultCbStep a router
      refine ⟨s', ?_, .inr hrunning⟩
      rw [← hstep, Session.step, Session.step, h.domains]
      exact congrArg (Option.map _) ((h.withInit hlocks).trans (h.running.withInit (a := a)).symm)
  | domainDereg domain =>
      have hrun : ModelCall.run env a s.model (.domainDereg domain) = some (.notInited, s.model) := by
        simp [ModelCall.run, ezIotModelDomainDereg, h.inited]
      refine ⟨s, ?_, .inl h⟩
      rw [Session.step, hrun]
      cases domain <;> rfl
  | deregDefaultCb router =>
      have hlock : s.model.gModelCbLockH.lock = some () := by
        rw [h.cbLock]
        rfl
      cases router with
      | none =>
          refine ⟨s, ?_, .inl h⟩
          simp [Session.step, ModelCall.run, ezIotModelDeregDefaultCb, ezSetDataRouteCb, ezModelFini,
            h.inited, ModelCall.registered]
      | some cb =>
          refine ⟨⟨{ s.model with gEzModelDataRouter := cb }, s.domains⟩, ?_,
            .inl ⟨h.inited, h.domains, h.domainLock, h.cbLock, h.loads⟩⟩
          simp [Session.step, ModelCall.run, ezIotModelDeregDefaultCb, ezSetDataRouteCb, ezModelFini,
            h.inited, hlock, ModelCall.registered]

theorem Running.step (h : Running env s) {i : ModelCall × Allocs} (hkeeps : KeepsWorking s i) :
    ∃ s', s.step env i = some s' ∧ Running env s' := by
  obtain ⟨call, a⟩ := i
  cases call with
  | domainReg d =>
      cases d with
      | none => exact ⟨s, rfl, h⟩
      | some d => exact h.regStep a d
  | regDefaultCb router => exact h.regDefaultCbStep a router
  | domainDereg domain =>
      cases domain with
      | none =>
          refine ⟨s, ?_, h⟩
          simp [Session.step, ModelCall.run, ezIotModelDomainDereg, h.inited, ModelCall.registered]
      | some name => exact absurd (h.inited.symm.trans hkeeps) (by simp)
  | deregDefaultCb router => exact absurd (h.inited.symm.trans hkeeps) (by simp)

/-! ## What breaks -/

/-- Torn down: mutexes that are gone under the domains that stay, or no domains and a
set-up that the kernel refuses. -/
inductive Broken (env : Env) (s : Session) : Prop
  | dangling : s.domains ≠ [] → s.model.gModelDomainLockH = .destroyed → Broken env s
  | refused : s.domains = [] → s.model.gInited = false → ¬ Loads env s.model.tables → Broken env s

def sampleDomain : EzDomainReg := ⟨.strncpy (.lit "light"), some 1, some 2⟩

theorem Broken.not_works (h : Broken env s) : ¬ Works env s := by
  intro hworks
  cases h with
  | dangling hne hlock =>
      obtain ⟨d, hd⟩ := List.exists_mem_of_ne_nil _ hne
      have hroute := hworks.routes d hd
      rw [ezGetRegDomain, hlock] at hroute
      cases hroute
  | refused hnil hinit hloads =>
      obtain ⟨m, hreg, -⟩ := hworks.registers sampleDomain (by decide) fun e he => by
        rw [hnil] at he
        exact absurd he List.not_mem_nil
      obtain ⟨heq, hne⟩ := withInit_failed (a := .fine) (k := ezRegDomain .fine sampleDomain) hinit
        fun hboth => hloads hboth.2
      have hfailed : ezIotModelDomainReg env .fine (some sampleDomain) s.model = _ := heq
      rw [hfailed, Option.some_inj] at hreg
      exact hne (congrArg Prod.fst hreg)

theorem Fresh.breaks (h : Fresh env s) {i : ModelCall × Allocs} (hkeeps : ¬ KeepsWorking s i)
    {s' : Session} (hstep : s.step env i = some s') : Broken env s' := by
  have hfailed (k : ModelState → Option (ModelErrcode × ModelState)) (call : ModelCall)
      (hlocks : ¬ (i.2.domainLock = true ∧ i.2.cbLock = true))
      (hcall : call.run env i.2 s.model = Model.withInit env i.2 s.model k)
      (hsame : ∀ rv, rv ≠ .sucess → call.registered rv s.domains = s.domains)
      (hstep : (call.run env i.2 s.model).map (fun r => (⟨r.2, call.registered r.1 s.domains⟩ : Session)) =
        some s') : Broken env s' := by
    obtain ⟨heq, hne⟩ := withInit_failed (k := k) h.inited fun hboth => hlocks hboth.1
    rw [hcall, heq] at hstep
    cases hstep
    obtain ⟨hinit, htables⟩ := ezModelExternInit_kept env i.2 s.model
    refine .refused ((hsame _ hne).trans h.domains) (hinit.trans h.inited) ?_
    dsimp only
    rw [htables]
    exact loads_once h.loads
  obtain ⟨call, a⟩ := i
  cases call with
  | domainReg d =>
      cases d with
      | none => exact absurd trivial hkeeps
      | some d =>
          exact hfailed (ezRegDomain a d) (.domainReg (some d)) (fun hlocks => hkeeps fun _ => hlocks) rfl
            (fun rv hrv => by simp [ModelCall.registered, hrv]) hstep
  | regDefaultCb router =>
      exact hfailed (ezSetDataRouteCb router) (.regDefaultCb router)
        (fun hlocks => hkeeps fun _ => hlocks) rfl (fun _ _ => rfl) hstep
  | domainDereg domain =>
      cases domain with
      | none => exact absurd trivial hkeeps
      | some name => exact absurd h.inited hkeeps
  | deregDefaultCb router => exact absurd h.inited hkeeps

theorem ezModelExternDeinit_live (hdomain : m.gModelDomainLockH = .live)
    (hcb : m.gModelCbLockH = .live) : ezModelExternDeinit m = some
      { m with gModelDomainLockH := .destroyed, gModelCbLockH := .destroyed } := by
  rw [ezModelExternDeinit, hdomain, hcb]
  rfl

/-- Whatever is left of the domains, the mutexes are not. -/
theorem Running.fini (h : Running env s) (hm : m.gInited = true ∧ m.gModelDomainLockH = .live ∧
    m.gModelCbLockH = .live) (htables : m.tables = s.model.tables) :
    ∃ m', ezModelFini m = some m' ∧ Broken env ⟨m', m.gModelDomains⟩ := by
  obtain ⟨hinit, hdomain, hcb⟩ := hm
  have hlock : m.gModelDomainLockH.lock = some () := by
    rw [hdomain]
    rfl
  unfold ezModelFini
  rw [if_neg (by simp [hinit]), hlock, Option.bind_some]
  by_cases hnil : m.gModelDomains = []
  · rw [if_pos (by rw [hnil]; rfl)]
    refine ⟨_, ezModelExternDeinit_live hdomain hcb, .refused hnil rfl ?_⟩
    dsimp only
    rw [htables]
    exact h.loaded
  · rw [if_neg fun hlength => hnil (List.length_eq_zero_iff.mp hlength)]
    exact ⟨_, ezModelExternDeinit_live hdomain hcb, .dangling hnil rfl⟩

theorem Running.domainDereg (h : Running env s) (a : Allocs) (name : CString) : ∃ m',
    ModelCall.run env a s.model (.domainDereg (some name)) = some (.sucess, m') ∧
      Broken env ⟨m', s.domains.eraseP fun d => decide (d.domain.toCString = name)⟩ := by
  have hlock : s.model.gModelDomainLockH.lock = some () := by
    rw [h.domainLock]
    rfl
  obtain ⟨m', hfini, hbroken⟩ := h.fini (m := { s.model with
    gModelDomains := s.domains.eraseP fun d => decide (d.domain.toCString = name) })
    ⟨h.inited, h.domainLock, h.cbLock⟩ rfl
  refine ⟨m', ?_, hbroken⟩
  have hinit : ¬ s.model.gInited = false := by simp [h.inited]
  unfold ModelCall.run ezIotModelDomainDereg
  dsimp only
  rw [if_neg hinit, ezDeregDomain, hlock, Option.map_some, Option.bind_some, h.listed, hfini]
  rfl

theorem Running.deregDefaultCb (h : Running env s) (a : Allocs) (router : Option (Option Nat)) :
    ∃ m', ModelCall.run env a s.model (.deregDefaultCb router) = some (.sucess, m') ∧
      Broken env ⟨m', s.domains⟩ := by
  have hlock : s.model.gModelCbLockH.lock = some () := by
    rw [h.cbLock]
    rfl
  have hset : ∃ e, ezSetDataRouteCb router s.model = some (e, { s.model with
      gEzModelDataRouter := router.getD s.model.gEzModelDataRouter }) := by
    cases router with
    | none => exact ⟨.invalidParam, rfl⟩
    | some cb => exact ⟨.sucess, by rw [ezSetDataRouteCb, hlock]; rfl⟩
  obtain ⟨e, hset⟩ := hset
  obtain ⟨m', hfini, hbroken⟩ := h.fini (m := { s.model with
    gEzModelDataRouter := router.getD s.model.gEzModelDataRouter })
    ⟨h.inited, h.domainLock, h.cbLock⟩ rfl
  have hdomains : Broken env ⟨m', s.model.gModelDomains⟩ := hbroken
  refine ⟨m', ?_, h.listed ▸ hdomains⟩
  rw [ModelCall.run, ezIotModelDeregDefaultCb, hset, Option.bind_some, hfini, Option.map_some]

theorem Running.breaks (h : Running env s) {i : ModelCall × Allocs} (hkeeps : ¬ KeepsWorking s i)
    {s' : Session} (hstep : s.step env i = some s') : Broken env s' := by
  obtain ⟨call, a⟩ := i
  cases call with
  | domainReg d =>
      cases d with
      | none => exact absurd trivial hkeeps
      | some d => exact absurd (fun hinit => absurd (h.inited.symm.trans hinit) (by simp)) hkeeps
  | regDefaultCb router =>
      exact absurd (fun hinit => absurd (h.inited.symm.trans hinit) (by simp)) hkeeps
  | domainDereg domain =>
      cases domain with
      | none => exact absurd trivial hkeeps
      | some name =>
          have hunique : s.domains.Pairwise fun x y => decide (x.domain.toCString = name) = true →
              decide (y.domain.toCString = name) = false := by
            refine (List.pairwise_map.mp h.nodup).imp fun hne hx => decide_eq_false fun hy => hne ?_
            exact CField.ext ((of_decide_eq_true hx).trans hy.symm)
          have hleft : ModelCall.registered .sucess s.domains (.domainDereg (some name)) =
              s.domains.eraseP fun d => decide (d.domain.toCString = name) :=
            (Slots.eraseP_eq_filter hunique).symm
          obtain ⟨m', hrun, hbroken⟩ := h.domainDereg a name
          rw [Session.step, hrun] at hstep
          cases hstep
          dsimp only
          rw [hleft]
          exact hbroken
  | deregDefaultCb router =>
      obtain ⟨m', hrun, hbroken⟩ := h.deregDefaultCb a router
      rw [Session.step, hrun] at hstep
      cases hstep
      exact hbroken

def Good (env : Env) (s : Session) : Prop := Fresh env s ∨ Running env s

theorem Good.works (h : Good env s) : Works env s := h.elim Fresh.works Running.works

theorem Good.step (h : Good env s) {i : ModelCall × Allocs} (hkeeps : KeepsWorking s i) :
    ∃ s', s.step env i = some s' ∧ Good env s' := by
  rcases h with hfresh | hrunning
  · exact hfresh.step hkeeps
  · obtain ⟨s', hstep, hs'⟩ := hrunning.step hkeeps
    exact ⟨s', hstep, .inr hs'⟩

theorem Good.breaks (h : Good env s) {i : ModelCall × Allocs} (hkeeps : ¬ KeepsWorking s i)
    {s' : Session} (hstep : s.step env i = some s') : ¬ Works env s' :=
  h.elim (fun hfresh => (hfresh.breaks hkeeps hstep).not_works)
    fun hrunning => (hrunning.breaks hkeeps hstep).not_works

end Phases

/-! ## Runs -/

/-- A module that nobody has used yet, on a kernel with these tables. -/
def Session.initial (t : ExtendTables) : Session :=
  ⟨⟨false, [], .null, .null, none, t⟩, []⟩

/-- As long as nothing is deregistered from a module that is set up, and the set-up gets
its mutexes, every domain can be registered and is routed to its own callbacks. Any other
call ends that. -/
theorem domains_work {env : Env} {t : ExtendTables}
    (hloads : (ezKernelExtendLoadV3 env.myState (some (externInfo env)) t).1 = .succ) {s : Session}
    (hreach : Reach (Session.step env) KeepsWorking (.initial t) s) :
    Works env s ∧ ∀ i, (KeepsWorking s i → ∃ s', s.step env i = some s') ∧
      ∀ s', s.step env i = some s' → (Works env s' ↔ KeepsWorking s i) := by
  have hgood : Good env s := by
    refine hreach.invariant (I := Good env) (.inl ⟨rfl, rfl, rfl, rfl, hloads⟩)
      fun s i s' hs hkeeps hstep => ?_
    obtain ⟨s'', hnext, hs''⟩ := hs.step hkeeps
    cases hnext.symm.trans hstep
    exact hs''
  refine ⟨hgood.works, fun i => ⟨fun hkeeps => ?_, fun s' hstep => ⟨fun hworks => ?_, fun hkeeps => ?_⟩⟩⟩
  · obtain ⟨s', hstep, -⟩ := hgood.step hkeeps
    exact ⟨s', hstep⟩
  · by_contra hkeeps
    exact hgood.breaks hkeeps hstep hworks
  · obtain ⟨s'', hnext, hs''⟩ := hgood.step hkeeps
    cases hnext.symm.trans hstep
    exact hs''.works

def sampleEnv : Env := ⟨.start, 10, 11⟩

/-- A kernel with room for four modules, of which none is loaded. -/
def sampleTables : ExtendTables := extendInit ⟨8, 4, 4⟩

def otherDomain : EzDomainReg := ⟨.strncpy (.lit "lock"), some 3, some 4⟩

instance (s : Session) : ∀ i : ModelCall × Allocs, Decidable (KeepsWorking s i)
  | (.domainReg none, _) => inferInstanceAs (Decidable True)
  | (.domainReg (some _), a) => inferInstanceAs
      (Decidable (s.model.gInited = false → a.domainLock = true ∧ a.cbLock = true))
  | (.regDefaultCb _, a) => inferInstanceAs
      (Decidable (s.model.gInited = false → a.domainLock = true ∧ a.cbLock = true))
  | (.domainDereg none, _) => inferInstanceAs (Decidable True)
  | (.domainDereg (some _), _) => inferInstanceAs (Decidable (s.model.gInited = false))
  | (.deregDefaultCb _, _) => inferInstanceAs (Decidable (s.model.gInited = false))

/-- A domain is deregistered before the module is set up, and then two are registered. -/
def sampleModelCalls : List (ModelCall × Allocs) :=
  [(.domainDereg (some sampleDomain.domain.toCString), .fine), (.domainReg (some sampleDomain), .fine),
    (.domainDereg none, .fine), (.domainReg (some otherDomain), .fine)]

/-- Both domains work. -/
theorem domains_work_registered : ∃ s,
    sampleModelCalls.foldlM (guarded (Session.step sampleEnv) KeepsWorking)
      (.initial sampleTables) = some s ∧
      s.domains = [sampleDomain, otherDomain] ∧ Works sampleEnv s := by
  have hloads : (ezKernelExtendLoadV3 sampleEnv.myState (some (externInfo sampleEnv))
      sampleTables).1 = .succ := by decide +kernel
  have hrun : (sampleModelCalls.foldlM (guarded (Session.step sampleEnv) KeepsWorking)
      (.initial sampleTables)).map Session.domains = some [sampleDomain, otherDomain] := by
    decide +kernel
  obtain ⟨s, hs, hdomains⟩ := Option.map_eq_some_iff.mp hrun
  exact ⟨s, hs, hdomains, (domains_work hloads (Reach.of_guarded hs)).1⟩

/-- Two domains are registered and one is deregistered: the mutex is gone, and with it the
way to the other. When both are, the module cannot be set up any more. -/
theorem dereg_breaks : (∃ s, Reach (Session.step sampleEnv) (fun _ _ => True)
      (.initial sampleTables) s ∧ s.domains = [otherDomain] ∧
        ezGetRegDomain otherDomain.domain.toCString s.model = none) ∧
    ∃ s, Reach (Session.step sampleEnv) (fun _ _ => True) (.initial sampleTables) s ∧
      s.domains = [] ∧ (ezIotModelDomainReg sampleEnv .fine (some sampleDomain) s.model).map
        Prod.fst = some .modelRegFail := by
  constructor
  · have hrun : ([(.domainReg (some sampleDomain), .fine), (.domainReg (some otherDomain), .fine),
        (.domainDereg (some sampleDomain.domain.toCString), .fine)].foldlM
          (Session.step sampleEnv) (.initial sampleTables)).map (fun s =>
            (s.domains, ezGetRegDomain otherDomain.domain.toCString s.model)) =
              some ([otherDomain], none) := by decide +kernel
    obtain ⟨s, hfold, hend⟩ := Option.map_eq_some_iff.mp hrun
    exact ⟨s, Reach.of_foldlM hfold, Prod.mk.inj hend⟩
  · have hrun : ([(.domainReg (some sampleDomain), .fine),
        (.domainDereg (some sampleDomain.domain.toCString), .fine)].foldlM
          (Session.step sampleEnv) (.initial sampleTables)).map (fun s =>
            (s.domains, (ezIotModelDomainReg sampleEnv .fine (some sampleDomain) s.model).map
              Prod.fst)) = some ([], some .modelRegFail) := by decide +kernel
    obtain ⟨s, hfold, hend⟩ := Option.map_eq_some_iff.mp hrun
    exact ⟨s, Reach.of_foldlM hfold, Prod.mk.inj hend⟩

end EzIot.Model
