import Mathlib.Data.List.InsertIdx
import EzIot.Lib.Threads
import EzIot.Tsl.Adapter

/-! # The download of profiles

Devices are registered and removed beside a worker that downloads profiles, and beside the
answers to its queries. A step is one operation on a list, on the flag of the worker or on
its thread. The mutex of the adapter is never made, so it keeps nobody out.
-/

namespace EzIot.Tsl

open CText CJson Run Threads

/-! ## Places -/

inductive DevStatus
  | needUpdate
  | query
  | loading
deriving DecidableEq

/-- A node of `g_download_list`. -/
structure Job where
  info : QueryInfo
  status : DevStatus

def Job.devSn (job : Job) : CString := job.info.devSn.toCString

theorem Job.length_devSn (job : Job) : job.devSn.length ≤ 47 :=
  Nat.le_of_lt_succ job.info.devSn.fits

/-- `g_download_thread`. -/
inductive ThreadHandle
  | null
  | thread (id : Nat)
  | freed

/-- The next operation of `tsl_adapter_add`. The macro that tests `tsl_adapter_profile_download`
evaluates it again for the log when it fails, once. -/
inductive AddPc
  | check
  | refAdd
  | load
  | profileReg (buf : Bytes)
  | shadowInst
  | jobAdd (again : Bool)
  | readRunning (again : Bool)
  | destroy (again : Bool)
  | setRunning (again : Bool)
  | create (again : Bool)

inductive DelPc
  | check
  | refDel
  | shadowUninst

/-- A call of `ez_iot_tsl_reg` or `ez_iot_tsl_unreg` that is under way. -/
inductive Caller
  | adding (devSn : CString) (model : DevModel) (pc : AddPc)
  | deleting (devSn : CString) (pc : DelPc)

def Caller.devSn : Caller → CString
  | .adding devSn _ _ => devSn
  | .deleting devSn _ => devSn

/-- The next operation of `ez_profile_get_thread`; an index stands for `query_info`. -/
inductive WorkerPc
  | top
  | visit (index : Nat)
  | asked (index : Nat) (sent : Bool)
  | downloaded (index : Nat) (buf : Bytes)
  | registered (index : Nat)
  | finished (index : Nat)
  | leaving

/-- What the threads share, and where they are. `gone` are the serials that were removed
and not registered since. -/
structure Downloading where
  list : ProfileList
  shadow : List CString
  jobs : List Job
  running : Bool
  handle : ThreadHandle
  threads : Nat
  workers : Nat → Option WorkerPc
  online : Bool
  callers : Nat → Option Caller
  gone : List CString

namespace Downloading

/-- After `tsl_adapter_init`. -/
def init : Downloading where
  list := []
  shadow := []
  jobs := []
  running := false
  handle := .null
  threads := 0
  workers _ := none
  online := false
  callers _ := none
  gone := []

def moveCaller (s : Downloading) (t : Nat) (c : Caller) : Downloading :=
  { s with callers := Function.update s.callers t (some c) }

def endCaller (s : Downloading) (t : Nat) : Downloading :=
  { s with callers := Function.update s.callers t none }

def moveWorker (s : Downloading) (k : Nat) (pc : WorkerPc) : Downloading :=
  { s with workers := Function.update s.workers k (some pc) }

end Downloading

/-! ## Steps -/

/-- What the storage, the memory and the threads of the platform answer to a call. -/
structure CallAnswer where
  stored : Except Int Bytes
  memory : Bool
  created : Bool

/-- What the network, the clock and the memory answer to the worker. -/
structure WorkerAnswer where
  downloaded : Option Bytes
  expired : Bool
  sent : Option Bool

/-- The devices of the shadow after `tsl_adapter_shadow_inst`: one that registers nothing
there does not enter it. -/
def shadowInst (devSn : CString) (s : Downloading) : Downloading :=
  if (tslAdapterShadowInst 0 1 devSn (tslProfileGetLock devSn s.list)).isEmpty then s
  else { s with shadow := devSn :: s.shadow.filter fun x => x ≠ devSn }

def tslAdapterShadowUninst (devSn : CString) (s : Downloading) : Downloading :=
  { s with shadow := s.shadow.filter fun x => x ≠ devSn }

def tslAdapterQueryJobUpdate (devSn : CString) (status : DevStatus) (jobs : List Job) : List Job :=
  Slots.modifyFirst (fun job => job.devSn = devSn) (fun job => { job with status := status }) jobs

section Steps

variable (p : Platform) (strong : Bool)

/-- `tsl_adapter_add`, up to the creation of a job. -/
def addStep (t : Nat) (devSn : CString) (model : DevModel) (a : CallAnswer) (s : Downloading) :
    AddPc → Option Downloading
  | .check =>
      if tslProfileCheck devSn s.list then some (s.endCaller t)
      else some (s.moveCaller t (.adding devSn model .refAdd))
  | .refAdd =>
      let joined := tslProfileRefAdd devSn model.1 model.2 s.list
      if joined.1 then
        some ({ s with list := joined.2 }.moveCaller t (.adding devSn model .shadowInst))
      else some (s.moveCaller t (.adding devSn model .load))
  | .load =>
      match a.stored with
      | .ok buf => some (s.moveCaller t (.adding devSn model (.profileReg buf)))
      | .error rv =>
          if rv = Err.kvName then some (s.moveCaller t (.adding devSn model (.jobAdd false)))
          else some (s.endCaller t)
  | .profileReg buf =>
      (tslProfileReg p strong devSn model.1 model.2 (.ofMem buf) s.list).map fun r =>
        if r.1 = Err.succ then
          { s with list := r.2 }.moveCaller t (.adding devSn model .shadowInst)
        else s.endCaller t
  | .shadowInst => some ((shadowInst devSn s).endCaller t)
  | .jobAdd again =>
      if a.memory then
        let job : Job := ⟨⟨.strncpy devSn, .strncpy model.1, .strncpy model.2⟩, .needUpdate⟩
        some ({ s with jobs := s.jobs ++ [job] }.moveCaller t
          (.adding devSn model (.readRunning again)))
      else if again then some (s.endCaller t)
      else some (s.moveCaller t (.adding devSn model (.jobAdd true)))
  -- `tsl_adapter_dl_task_yeild`
  | .readRunning again =>
      if s.running then some (s.endCaller t)
      else some (s.moveCaller t (.adding devSn model (.destroy again)))
  | .destroy again =>
      match s.handle with
      | .null => some (s.moveCaller t (.adding devSn model (.setRunning again)))
      | .thread k =>
          -- the thread is joined
          match s.workers k with
          | none =>
              some ({ s with handle := .freed }.moveCaller t (.adding devSn model (.setRunning again)))
          | some _ => none
      | .freed => none
  | .setRunning again =>
      some ({ s with running := true }.moveCaller t (.adding devSn model (.create again)))
  | .create again =>
      if a.created then
        some ({ s with
          handle := .thread s.threads
          threads := s.threads + 1
          workers := Function.update s.workers s.threads (some .top) }.endCaller t)
      else if again then some ({ s with running := false }.endCaller t)
      else some ({ s with running := false }.moveCaller t (.adding devSn model (.jobAdd true)))

/-- `tsl_adapter_del`. A capacity that is no longer found is a null pointer. -/
def delStep (t : Nat) (devSn : CString) (s : Downloading) : DelPc → Option Downloading
  | .check =>
      if tslProfileCheck devSn s.list then some (s.moveCaller t (.deleting devSn .refDel))
      else some ({ s with gone := devSn :: s.gone }.endCaller t)
  | .refDel =>
      if tslProfileCheck devSn s.list then
        some ({ s with list := tslProfileRefDel devSn s.list }.moveCaller t
          (.deleting devSn .shadowUninst))
      else none
  | .shadowUninst =>
      some ({ tslAdapterShadowUninst devSn s with gone := devSn :: s.gone }.endCaller t)

/-- `ez_profile_get_thread`. What it saves changes the storage only. -/
def workerStep (k : Nat) (a : WorkerAnswer) (s : Downloading) : WorkerPc → Option Downloading
  | .top =>
      if s.running = false then some (s.moveWorker k .leaving)
      else if s.online = false then some s
      else if s.jobs.length = 0 then some (s.moveWorker k .leaving)
      else some (s.moveWorker k (.visit 0))
  | .visit index =>
      match s.jobs[index]? with
      | none => some (s.moveWorker k .top)
      | some job =>
          if job.status = .loading then
            match a.downloaded with
            | none => some (s.moveWorker k (.visit (index + 1)))
            | some buf => some (s.moveWorker k (.downloaded index buf))
          else if job.status = .query ∧ a.expired = false then
            some (s.moveWorker k (.visit (index + 1)))
          else
            match a.sent with
            | none => some (s.moveWorker k (.visit (index + 1)))
            | some sent => some (s.moveWorker k (.asked index sent))
  | .asked index sent =>
      match s.jobs[index]? with
      | none => none
      | some job =>
          let status := if sent then .query else .needUpdate
          some ({ s with jobs := tslAdapterQueryJobUpdate job.devSn status s.jobs }.moveWorker k
            (.visit (index + 1)))
  | .downloaded index buf =>
      match s.jobs[index]? with
      | none => none
      | some job =>
          (tslProfileReg p strong job.devSn job.info.model.1 job.info.model.2 (.ofMem buf) s.list).map
            fun r => { s with list := r.2 }.moveWorker k
              (if r.1 = Err.succ then .registered index else .finished index)
  | .registered index =>
      match s.jobs[index]? with
      | none => none
      | some job => some ((shadowInst job.devSn s).moveWorker k (.finished index))
  | .finished index =>
      match s.jobs[index]? with
      | none => none
      | some _ => some ({ s with jobs := s.jobs.eraseIdx index }.moveWorker k .top)
  | .leaving =>
      some { s with running := false, workers := Function.update s.workers k none }

inductive Event
  | reg (t : Nat) (devSn : CString) (model : DevModel)
  | unreg (t : Nat) (devSn : CString)
  | call (t : Nat) (a : CallAnswer)
  | response (devSn : CString)
  | online (up : Bool)
  | worker (k : Nat) (a : WorkerAnswer)

/-- One step of one thread. A thread of the application makes one call at a time. -/
def Downloading.step (s : Downloading) : Event → Option Downloading
  | .reg t devSn model =>
      if (s.callers t).isNone then
        some ({ s with gone := s.gone.filter fun x => x ≠ devSn }.moveCaller t
          (.adding devSn model .check))
      else none
  | .unreg t devSn =>
      if (s.callers t).isNone then some (s.moveCaller t (.deleting devSn .check)) else none
  | .call t a =>
      match s.callers t with
      | none => none
      | some (.adding devSn model pc) => addStep p strong t devSn model a s pc
      | some (.deleting devSn pc) => delStep t devSn s pc
  | .response devSn => some { s with jobs := tslAdapterQueryJobUpdate devSn .loading s.jobs }
  | .online up => some { s with online := up }
  | .worker k a =>
      match s.workers k with
      | none => none
      | some pc => workerStep p strong k a s pc

end Steps

/-! ## What a step can do -/

/-- The call has added its job, if it adds one. -/
def Caller.late : Caller → Bool
  | .adding _ _ (.readRunning _) => true
  | .adding _ _ (.destroy _) => true
  | .adding _ _ (.setRunning _) => true
  | .adding _ _ (.create _) => true
  | _ => false

/-- The serial is in no capacity yet, or no more. -/
def Caller.absent : Caller → Bool
  | .adding _ _ .refAdd => true
  | .adding _ _ .load => true
  | .adding _ _ (.profileReg _) => true
  | .adding _ _ (.jobAdd _) => true
  | .deleting _ .shadowUninst => true
  | _ => false

/-- The steps of a registration. -/
inductive AddDid (t : Nat) (devSn : CString) (model : DevModel) (a : CallAnswer) (s : Downloading) :
    AddPc → Downloading → Prop
  | ends {pc : AddPc} (early : (Caller.adding devSn model pc).late = false) :
      AddDid t devSn model a s pc (s.endCaller t)
  | goes {pc pc' : AddPc} (early : (Caller.adding devSn model pc).late = false)
      (early' : (Caller.adding devSn model pc').late = false)
      (absent : (Caller.adding devSn model pc).absent = true ∨
        ¬ tslProfileCheck devSn s.list = true) :
      AddDid t devSn model a s pc (s.moveCaller t (.adding devSn model pc'))
  | joins {pc : AddPc} {list : ProfileList} (early : (Caller.adding devSn model pc).late = false)
      (absent : (Caller.adding devSn model pc).absent = true)
      (perm : devSn.length ≤ 47 → (serials list).Perm (serials s.list ++ [devSn])) :
      AddDid t devSn model a s pc
        ({ s with list := list }.moveCaller t (.adding devSn model .shadowInst))
  | installs : AddDid t devSn model a s .shadowInst ((shadowInst devSn s).endCaller t)
  | addsJob {job : Job} {again : Bool} (self : devSn.length ≤ 47 → job.devSn = devSn) :
      AddDid t devSn model a s (.jobAdd again)
        ({ s with jobs := s.jobs ++ [job] }.moveCaller t (.adding devSn model (.readRunning again)))
  | relies {again : Bool} (running : s.running = true) :
      AddDid t devSn model a s (.readRunning again) (s.endCaller t)
  | starts {again : Bool} (stopped : s.running = false) :
      AddDid t devSn model a s (.readRunning again)
        (s.moveCaller t (.adding devSn model (.destroy again)))
  | joinsThread {again : Bool} (handle : ThreadHandle) : AddDid t devSn model a s (.destroy again)
      ({ s with handle := handle }.moveCaller t (.adding devSn model (.setRunning again)))
  | sets {again : Bool} : AddDid t devSn model a s (.setRunning again)
      ({ s with running := true }.moveCaller t (.adding devSn model (.create again)))
  | creates {again : Bool} : AddDid t devSn model a s (.create again) ({ s with
      handle := .thread s.threads
      threads := s.threads + 1
      workers := Function.update s.workers s.threads (some .top) }.endCaller t)
  | fails {again : Bool} {s' : Downloading} (created : a.created = false) :
      AddDid t devSn model a s (.create again) s'

/-- The steps of the worker. -/
inductive WorkerDid (k : Nat) (s : Downloading) : WorkerPc → Downloading → Prop
  | waits : WorkerDid k s .top s
  | leaves (why : s.running = false ∨ s.jobs = []) : WorkerDid k s .top (s.moveWorker k .leaving)
  | goes {pc pc' : WorkerPc} (unregistered : ∀ i, pc ≠ .registered i ∧ pc ≠ .finished i)
      (stays : pc' ≠ .leaving) : WorkerDid k s pc (s.moveWorker k pc')
  | updates {index : Nat} {sent : Bool} {job : Job} (at_job : s.jobs[index]? = some job)
      (status : DevStatus) : WorkerDid k s (.asked index sent)
        ({ s with jobs := tslAdapterQueryJobUpdate job.devSn status s.jobs }.moveWorker k
          (.visit (index + 1)))
  | registers {index : Nat} {buf : Bytes} {job : Job} {list : ProfileList}
      (at_job : s.jobs[index]? = some job)
      (perm : (serials list).Perm (serials s.list ++ [job.devSn])) :
      WorkerDid k s (.downloaded index buf)
        ({ s with list := list }.moveWorker k (.registered index))
  | installs {index : Nat} {job : Job} (at_job : s.jobs[index]? = some job) :
      WorkerDid k s (.registered index) ((shadowInst job.devSn s).moveWorker k (.finished index))
  | finishes {index : Nat} {job : Job} (at_job : s.jobs[index]? = some job) :
      WorkerDid k s (.finished index) ({ s with jobs := s.jobs.eraseIdx index }.moveWorker k .top)
  | ends : WorkerDid k s .leaving
      { s with running := false, workers := Function.update s.workers k none }

section Did

variable {p : Platform} {strong : Bool} {s s' : Downloading} {t k : Nat} {devSn : CString}

theorem serials_tslProfileReg {model : DevModel} {buf : CString} {g : ProfileList}
    {r : Nat × ProfileList} (h : tslProfileReg p strong devSn model.1 model.2 buf g = some r) :
    (r.1 = Err.succ ∧ (devSn.length ≤ 47 → (serials r.2).Perm (serials g ++ [devSn]))) ∨
      (r.1 ≠ Err.succ ∧ r.2 = g) := by
  rcases tslProfileReg_cases h with ⟨resource, -, rfl⟩ | ⟨rv, hparse, rfl⟩
  · refine .inl ⟨rfl, fun hfits => ?_⟩
    rw [serials_append, serials_cons, serials_profileRefAdd hfits]
    exact .refl _
  · refine .inr ⟨fun hsucc => ?_, rfl⟩
    have hrv : rv = Err.succ := hsucc
    subst hrv
    exact profileParse_ne_succ hparse

theorem addStep_did {model : DevModel} {a : CallAnswer} {pc : AddPc}
    (hstep : addStep p strong t devSn model a s pc = some s') : AddDid t devSn model a s pc s' := by
  cases pc with
  | check =>
      rw [addStep] at hstep
      split at hstep
      next =>
        cases hstep
        exact .ends rfl
      next hcheck =>
        cases hstep
        exact .goes rfl rfl (.inr hcheck)
  | refAdd =>
      rw [addStep] at hstep
      split at hstep
      next hfor =>
        cases hstep
        exact .joins rfl rfl fun hfits => serials_tslProfileRefAdd hfits hfor
      next =>
        cases hstep
        exact .goes rfl rfl (.inl rfl)
  | load =>
      rw [addStep] at hstep
      split at hstep
      next =>
        cases hstep
        exact .goes rfl rfl (.inl rfl)
      next =>
        split at hstep
        next =>
          cases hstep
          exact .goes rfl rfl (.inl rfl)
        next =>
          cases hstep
          exact .ends rfl
  | profileReg buf =>
      obtain ⟨r, hreg, rfl⟩ := Option.map_eq_some_iff.mp hstep
      rcases serials_tslProfileReg hreg with ⟨hsucc, hperm⟩ | ⟨hfail, -⟩
      · rw [if_pos hsucc]
        exact .joins rfl rfl hperm
      · rw [if_neg hfail]
        exact .ends rfl
  | shadowInst =>
      cases hstep
      exact .installs
  | jobAdd again =>
      rw [addStep] at hstep
      split at hstep
      next =>
        cases hstep
        exact .addsJob fun hfits => CField.strncpy_of_fits hfits
      next =>
        split at hstep
        next =>
          cases hstep
          exact .ends rfl
        next =>
          cases hstep
          exact .goes rfl rfl (.inl rfl)
  | readRunning again =>
      rw [addStep] at hstep
      split at hstep
      next hrunning =>
        cases hstep
        exact .relies hrunning
      next hrunning =>
        cases hstep
        exact .starts (Bool.eq_false_iff.mpr hrunning)
  | destroy again =>
      rw [addStep] at hstep
      split at hstep
      next =>
        cases hstep
        exact .joinsThread s.handle
      next =>
        split at hstep
        next =>
          cases hstep
          exact .joinsThread .freed
        next => cases hstep
      next => cases hstep
  | setRunning again =>
      cases hstep
      exact .sets
  | create again =>
      rw [addStep] at hstep
      split at hstep
      next =>
        cases hstep
        exact .creates
      next hfail => exact .fails (Bool.eq_false_iff.mpr hfail)

/-- A visit of a job only moves the worker. -/
theorem visit_moves {a : WorkerAnswer} {index : Nat}
    (hstep : workerStep p strong k a s (.visit index) = some s') :
    ∃ pc', s' = s.moveWorker k pc' ∧ pc' ≠ WorkerPc.leaving := by
  rw [workerStep] at hstep
  repeat' split at hstep
  all_goals exact ⟨_, (Option.some.inj hstep).symm, nofun⟩

theorem workerStep_did {a : WorkerAnswer} {pc : WorkerPc}
    (hstep : workerStep p strong k a s pc = some s') : WorkerDid k s pc s' := by
  cases pc with
  | top =>
      rw [workerStep] at hstep
      split at hstep
      next hstopped =>
        cases hstep
        exact .leaves (.inl hstopped)
      next =>
        split at hstep
        next =>
          cases hstep
          exact .waits
        next =>
          split at hstep
          next hempty =>
            cases hstep
            exact .leaves (.inr (List.eq_nil_of_length_eq_zero hempty))
          next =>
            cases hstep
            exact .goes (fun i => ⟨nofun, nofun⟩) nofun
  | visit index =>
      obtain ⟨pc', rfl, hne⟩ := visit_moves hstep
      exact .goes (fun i => ⟨nofun, nofun⟩) hne
  | asked index sent =>
      rw [workerStep] at hstep
      split at hstep
      next => cases hstep
      next job hjob =>
        cases hstep
        exact .updates hjob _
  | downloaded index buf =>
      rw [workerStep] at hstep
      split at hstep
      next => cases hstep
      next job hjob =>
        obtain ⟨r, hreg, rfl⟩ := Option.map_eq_some_iff.mp hstep
        rcases serials_tslProfileReg hreg with ⟨hsucc, hperm⟩ | ⟨hfail, hsame⟩
        · rw [if_pos hsucc]
          exact .registers hjob (hperm job.length_devSn)
        · rw [if_neg hfail, hsame]
          exact .goes (fun i => ⟨nofun, nofun⟩) nofun
  | registered index =>
      rw [workerStep] at hstep
      split at hstep
      next => cases hstep
      next job hjob =>
        cases hstep
        exact .installs hjob
  | finished index =>
      rw [workerStep] at hstep
      split at hstep
      next => cases hstep
      next job hjob =>
        cases hstep
        exact .finishes hjob
  | leaving =>
      cases hstep
      exact .ends

end Did

/-! ## The property -/

def jobSerials (jobs : List Job) : List CString := jobs.map Job.devSn

/-- Jobs and devices are kept once, a device that was removed stays away, and whoever has
a job is seen by a thread. -/
structure DownloadsSound (p : Platform) (strong : Bool) (s : Downloading) : Prop where
  jobs : ∀ devSn, (jobSerials s.jobs).count devSn ≤ 1
  lists : ∀ devSn, (serials s.list).count devSn ≤ 1
  gone : ∀ devSn ∈ s.gone, ∀ k a s', s.step p strong (.worker k a) = some s' →
    (tslProfileCheck devSn s'.list = true → tslProfileCheck devSn s.list = true) ∧
      (devSn ∈ s'.shadow → devSn ∈ s.shadow)
  -- the thread comes back to the list, or a call is about to see to one
  seen : s.jobs ≠ [] → (s.running = true ∧ ∃ k pc, s.workers k = some pc ∧ pc ≠ .leaving) ∨
    ∃ t c, s.callers t = some c ∧ c.late = true

/-- Nobody is at work on a serial. -/
def Quiet (s : Downloading) (devSn : CString) : Prop :=
  devSn ∉ jobSerials s.jobs ∧ ∀ t c, s.callers t = some c → c.devSn ≠ devSn

/-- The flag is not read while the worker leaves jobs behind, nor while another call is
about to set it, and a thread can be created. -/
def Attended (s : Downloading) (a : CallAnswer) : Caller → Prop
  | .adding _ _ (.readRunning _) =>
      (s.jobs ≠ [] → ∀ k, s.workers k ≠ some .leaving) ∧
        (s.running = false → ∀ t devSn model again,
          s.callers t ≠ some (.adding devSn model (.destroy again)) ∧
            s.callers t ≠ some (.adding devSn model (.setRunning again)))
  | .adding _ _ (.create _) => a.created = true
  | _ => True

/-- Calls for a serial begin when nobody is at work on it. -/
def Orderly (s : Downloading) : Event → Prop
  | .reg _ devSn _ => devSn.length ≤ 47 ∧ Quiet s devSn
  | .unreg _ devSn => Quiet s devSn
  | .call t a => ∀ c, s.callers t = some c → Attended s a c
  | _ => True

/-! ## Serials -/

/-- At most one call, one job and one capacity have to do with a serial, and they take
turns. -/
structure SerialsOnce (s : Downloading) : Prop where
  callers : ∀ t t' c c', s.callers t = some c → s.callers t' = some c' → c.devSn = c'.devSn → t = t'
  jobs : (jobSerials s.jobs).Nodup
  lists : (serials s.list).Nodup
  early : ∀ t c, s.callers t = some c → c.late = false → c.devSn ∉ jobSerials s.jobs
  absent : ∀ t c, s.callers t = some c → c.absent = true → c.devSn ∉ serials s.list
  fits : ∀ t devSn model pc, s.callers t = some (.adding devSn model pc) → devSn.length ≤ 47
  pending : ∀ i devSn, (jobSerials s.jobs)[i]? = some devSn → devSn ∈ serials s.list →
    ∃ k, s.workers k = some (.registered i) ∨ s.workers k = some (.finished i)
  shadow : ∀ devSn ∈ s.shadow, devSn ∈ serials s.list ∨
    ∃ t, s.callers t = some (.deleting devSn .shadowUninst)
  gone : ∀ devSn ∈ s.gone, devSn ∉ jobSerials s.jobs ∧ devSn ∉ serials s.list ∧
    devSn ∉ s.shadow ∧
    ∀ t c, s.callers t = some c → c.devSn = devSn → c = .deleting devSn .check

section Serials

variable {p : Platform} {strong : Bool} {s s' : Downloading} {t k : Nat} {devSn : CString}
  {c : Caller}

/-- Flags and threads have no part in it. -/
theorem SerialsOnce.congr (h : SerialsOnce s) (hlist : s'.list = s.list)
    (hjobs : jobSerials s'.jobs = jobSerials s.jobs) (hshadow : s'.shadow = s.shadow)
    (hgone : s'.gone = s.gone) (hcallers : s'.callers = s.callers)
    (hworkers : s'.workers = s.workers) : SerialsOnce s' := by
  constructor
  · rw [hcallers]
    exact h.callers
  · rw [hjobs]
    exact h.jobs
  · rw [hlist]
    exact h.lists
  · rw [hcallers, hjobs]
    exact h.early
  · rw [hcallers, hlist]
    exact h.absent
  · rw [hcallers]
    exact h.fits
  · rw [hjobs, hlist, hworkers]
    exact h.pending
  · rw [hshadow, hlist, hcallers]
    exact h.shadow
  · rw [hgone, hjobs, hlist, hshadow, hcallers]
    exact h.gone

theorem SerialsOnce.ended (h : SerialsOnce s)
    (hnot : ∀ devSn, s.callers t = some (.deleting devSn .shadowUninst) → devSn ∉ s.shadow) :
    SerialsOnce (s.endCaller t) := by
  have hof : ∀ {t' c'}, (s.endCaller t).callers t' = some c' → s.callers t' = some c' :=
    fun hc => (of_ended hc).2
  refine ⟨fun t₁ t₂ c₁ c₂ h₁ h₂ => h.callers t₁ t₂ c₁ c₂ (hof h₁) (hof h₂), h.jobs, h.lists,
    fun t' c' hc => h.early t' c' (hof hc), fun t' c' hc => h.absent t' c' (hof hc),
    fun t' sn model pc hc => h.fits t' sn model pc (hof hc), h.pending, fun sn hsn => ?_,
    fun sn hsn => ?_⟩
  · rcases h.shadow sn hsn with hlist | ⟨t', hc⟩
    · exact .inl hlist
    · have hne : t' ≠ t := by
        rintro rfl
        exact hnot sn hc hsn
      exact .inr ⟨t', (Function.update_of_ne hne ..).trans hc⟩
  · obtain ⟨hjobs, hlist, hshadow, hcalls⟩ := h.gone sn hsn
    exact ⟨hjobs, hlist, hshadow, fun t' c' hc => hcalls t' c' (hof hc)⟩

theorem SerialsOnce.entered (h : SerialsOnce s) (hfree : s.callers t = none)
    (hother : ∀ t' c', s.callers t' = some c' → c'.devSn ≠ c.devSn)
    (hearly : c.late = false → c.devSn ∉ jobSerials s.jobs)
    (habsent : c.absent = true → c.devSn ∉ serials s.list)
    (hfits : ∀ devSn model pc, c = .adding devSn model pc → devSn.length ≤ 47)
    (hgone : c.devSn ∈ s.gone → c = .deleting c.devSn .check) :
    SerialsOnce (s.moveCaller t c) := by
  constructor
  · intro t₁ t₂ c₁ c₂ h₁ h₂ hsame
    rcases of_moved h₁ with ⟨rfl, rfl⟩ | ⟨-, hold₁⟩
    · rcases of_moved h₂ with ⟨rfl, -⟩ | ⟨-, hold₂⟩
      · rfl
      · exact absurd hsame.symm (hother t₂ c₂ hold₂)
    · rcases of_moved h₂ with ⟨rfl, rfl⟩ | ⟨-, hold₂⟩
      · exact absurd hsame (hother t₁ c₁ hold₁)
      · exact h.callers t₁ t₂ c₁ c₂ hold₁ hold₂ hsame
  · exact h.jobs
  · exact h.lists
  · intro t' c' hc
    rcases of_moved hc with ⟨-, rfl⟩ | ⟨-, hc⟩
    · exact hearly
    · exact h.early t' c' hc
  · intro t' c' hc
    rcases of_moved hc with ⟨-, rfl⟩ | ⟨-, hc⟩
    · exact habsent
    · exact h.absent t' c' hc
  · intro t' sn model pc hc
    rcases of_moved hc with ⟨-, hself⟩ | ⟨-, hc⟩
    · exact hfits sn model pc hself.symm
    · exact h.fits t' sn model pc hc
  · exact h.pending
  · intro sn hsn
    rcases h.shadow sn hsn with hlist | ⟨t', hc⟩
    · exact .inl hlist
    · have hne : t' ≠ t := by
        rintro rfl
        cases hfree.symm.trans hc
      exact .inr ⟨t', (Function.update_of_ne hne ..).trans hc⟩
  · intro sn hsn
    obtain ⟨hjobs, hlist, hshadow, hcalls⟩ := h.gone sn hsn
    refine ⟨hjobs, hlist, hshadow, fun t' c' hc hself => ?_⟩
    rcases of_moved hc with ⟨-, rfl⟩ | ⟨-, hc⟩
    · subst hself
      exact hgone hsn
    · exact hcalls t' c' hc hself

/-- A serial that nobody else is at work on joins a capacity. -/
theorem SerialsOnce.joined (h : SerialsOnce s) {list : ProfileList}
    (hperm : (serials list).Perm (serials s.list ++ [devSn])) (hnew : devSn ∉ serials s.list)
    (hpending : ∀ i, (jobSerials s.jobs)[i]? = some devSn →
      ∃ k, s.workers k = some (.registered i) ∨ s.workers k = some (.finished i))
    (hcallers : ∀ t c, s.callers t = some c → c.absent = true → c.devSn ≠ devSn)
    (hgone : devSn ∉ s.gone) : SerialsOnce { s with list := list } := by
  have hmem : ∀ sn, sn ∈ serials list ↔ sn ∈ serials s.list ∨ sn = devSn := fun sn => by
    rw [hperm.mem_iff, List.mem_append, List.mem_singleton]
  have hnodup : (serials s.list ++ [devSn]).Nodup := by
    refine List.nodup_append.mpr ⟨h.lists, List.nodup_singleton _, fun x hx y hy hxy => ?_⟩
    rw [hxy, List.mem_singleton.mp hy] at hx
    exact hnew hx
  refine ⟨h.callers, h.jobs, hperm.nodup_iff.mpr hnodup, h.early, fun t c hc habs hin => ?_,
    h.fits, fun i sn hi hin => ?_, fun sn hsn => ?_, fun sn hsn => ?_⟩
  · rcases (hmem c.devSn).mp hin with hold | hself
    · exact h.absent t c hc habs hold
    · exact hcallers t c hc habs hself
  · rcases (hmem sn).mp hin with hold | rfl
    · exact h.pending i sn hi hold
    · exact hpending i hi
  · exact (h.shadow sn hsn).imp_left fun hold => (hmem sn).mpr (.inl hold)
  · obtain ⟨hjobs, hlist, hshadow, hcalls⟩ := h.gone sn hsn
    refine ⟨hjobs, fun hin => ?_, hshadow, hcalls⟩
    rcases (hmem sn).mp hin with hold | rfl
    · exact hlist hold
    · exact hgone hsn

/-- A serial that nobody else is at work on gets a job. -/
theorem SerialsOnce.jobAdded (h : SerialsOnce s) {job : Job} (hself : job.devSn = devSn)
    (hnew : devSn ∉ jobSerials s.jobs) (hlist : devSn ∉ serials s.list)
    (hcallers : ∀ t c, s.callers t = some c → c.devSn ≠ devSn) (hgone : devSn ∉ s.gone) :
    SerialsOnce { s with jobs := s.jobs ++ [job] } := by
  have hjobs : jobSerials (s.jobs ++ [job]) = jobSerials s.jobs ++ [devSn] := by
    rw [jobSerials, List.map_append, List.map_singleton, hself]
    rfl
  have hmem : ∀ sn, sn ∈ jobSerials (s.jobs ++ [job]) ↔ sn ∈ jobSerials s.jobs ∨ sn = devSn :=
    fun sn => by rw [hjobs, List.mem_append, List.mem_singleton]
  refine ⟨h.callers, ?_, h.lists, fun t c hc hearly hin => ?_, h.absent, h.fits,
    fun i sn hi hin => ?_, h.shadow, fun sn hsn => ?_⟩
  · rw [hjobs]
    refine List.nodup_append.mpr ⟨h.jobs, List.nodup_singleton _, fun x hx y hy hxy => ?_⟩
    rw [hxy, List.mem_singleton.mp hy] at hx
    exact hnew hx
  · rcases (hmem c.devSn).mp hin with hold | heq
    · exact h.early t c hc hearly hold
    · exact hcallers t c hc heq
  · rw [hjobs] at hi
    rcases Nat.lt_or_ge i (jobSerials s.jobs).length with hlt | hge
    · rw [List.getElem?_append_left hlt] at hi
      exact h.pending i sn hi hin
    · rw [List.getElem?_append_right hge] at hi
      obtain rfl := List.mem_singleton.mp (List.mem_of_getElem? hi)
      exact absurd hin hlist
  · obtain ⟨hnot, hrest⟩ := h.gone sn hsn
    refine ⟨fun hin => ?_, hrest⟩
    rcases (hmem sn).mp hin with hold | rfl
    · exact hnot hold
    · exact hgone hsn

/-- Only a device with a capacity enters the shadow. -/
theorem mem_shadowInst {sn : CString} (h : sn ∈ (shadowInst devSn s).shadow) :
    sn ∈ s.shadow ∨ sn = devSn ∧ devSn ∈ serials s.list := by
  unfold shadowInst at h
  split at h
  next => exact .inl h
  next hsome =>
    rcases List.mem_cons.mp h with rfl | hold
    · refine .inr ⟨rfl, tslProfileCheck_iff.mp ?_⟩
      cases hfind : profileFindBySn sn s.list with
      | some n => exact congrArg Option.isSome hfind
      | none =>
          rw [tslProfileGetLock, hfind] at hsome
          exact absurd rfl hsome
    · exact .inl (List.mem_of_mem_filter hold)

theorem shadowInst_eq (devSn : CString) (s : Downloading) :
    shadowInst devSn s = { s with shadow := (shadowInst devSn s).shadow } := by
  unfold shadowInst
  split <;> rfl

theorem shadowInst_endCaller (devSn : CString) (s : Downloading) (t : Nat) :
    shadowInst devSn (s.endCaller t) = (shadowInst devSn s).endCaller t := by
  unfold shadowInst
  rw [apply_ite (fun x : Downloading => x.endCaller t)]
  rfl

theorem SerialsOnce.inst (h : SerialsOnce s) (hgone : devSn ∉ s.gone) :
    SerialsOnce (shadowInst devSn s) := by
  rw [shadowInst_eq]
  refine ⟨h.callers, h.jobs, h.lists, h.early, h.absent, h.fits, h.pending, fun sn hsn => ?_,
    fun sn hsn => ?_⟩
  · rcases mem_shadowInst hsn with hold | ⟨rfl, hlist⟩
    · exact h.shadow sn hold
    · exact .inl hlist
  · obtain ⟨hjobs, hlist, hshadow, hcalls⟩ := h.gone sn hsn
    refine ⟨hjobs, hlist, fun hin => ?_, hcalls⟩
    rcases mem_shadowInst hin with hold | ⟨rfl, -⟩
    · exact hshadow hold
    · exact hgone hsn

theorem moveCaller_endCaller (s : Downloading) (t : Nat) (c : Caller) :
    (s.endCaller t).moveCaller t c = s.moveCaller t c := by
  unfold Downloading.moveCaller Downloading.endCaller
  rw [Function.update_idem]

/-- The others of a call are at work on other serials. -/
theorem SerialsOnce.other (h : SerialsOnce s) (hc : s.callers t = some c) {t' : Nat} {c' : Caller}
    (hc' : (s.endCaller t).callers t' = some c') : c'.devSn ≠ c.devSn := by
  obtain ⟨hne, hold⟩ := of_ended hc'
  exact fun heq => hne (h.callers t' t c' c hold hc heq)

theorem not_check_of_absent (h : ¬ tslProfileCheck devSn s.list = true) :
    devSn ∉ serials s.list := mt tslProfileCheck_iff.mpr h

theorem SerialsOnce.addStep (h : SerialsOnce s) {model : DevModel} {pc : AddPc} {a : CallAnswer}
    (hc : s.callers t = some (.adding devSn model pc))
    (hattended : Attended s a (.adding devSn model pc))
    (hidle : ∀ again, pc = .create again → ∀ k, s.workers k = none)
    (hdid : AddDid t devSn model a s pc s') :
    SerialsOnce s' := by
  have h₀ : SerialsOnce (s.endCaller t) := h.ended fun sn hdel => by cases hc.symm.trans hdel
  have hfree : (s.endCaller t).callers t = none := Function.update_self ..
  have hother : ∀ t' c', (s.endCaller t).callers t' = some c' → c'.devSn ≠ devSn :=
    fun t' c' hc' => h.other hc hc'
  have hfits : devSn.length ≤ 47 := h.fits t devSn model pc hc
  have hgone : devSn ∉ s.gone := fun hin => by
    cases (h.gone devSn hin).2.2.2 t _ hc rfl
  have hearly : (Caller.adding devSn model pc).late = false → devSn ∉ jobSerials s.jobs :=
    h.early t _ hc
  have habsent : (Caller.adding devSn model pc).absent = true → devSn ∉ serials s.list :=
    h.absent t _ hc
  -- the call goes on at another place
  have hnext : ∀ {s₁ : Downloading} (pc' : AddPc), SerialsOnce (s₁.endCaller t) →
      s₁.callers = s.callers → s₁.gone = s.gone →
      ((Caller.adding devSn model pc').late = false → devSn ∉ jobSerials s₁.jobs) →
      ((Caller.adding devSn model pc').absent = true → devSn ∉ serials s₁.list) →
      SerialsOnce (s₁.moveCaller t (.adding devSn model pc')) := by
    intro s₁ pc' h₁ hcallers hsame hearly' habsent'
    rw [← moveCaller_endCaller]
    refine h₁.entered (Function.update_self ..) (fun t' c' hc' => hother t' c' ?_) hearly' habsent'
      (fun _ _ _ heq => by cases heq; exact hfits) fun hin => absurd hin (hsame ▸ hgone)
    rw [← hc', Downloading.endCaller, Downloading.endCaller, hcallers]
  cases hdid with
  | ends => exact h₀
  | goes early early' absent =>
      exact hnext _ h₀ rfl rfl (fun _ => hearly early) fun _ =>
        absent.elim habsent not_check_of_absent
  | joins early absent perm =>
      have hlist := h₀.joined (perm hfits) (habsent absent)
        (fun i hi => absurd (List.mem_of_getElem? hi) (hearly early))
        (fun t' c' hc' _ => hother t' c' hc') hgone
      exact hnext _ hlist rfl rfl (fun _ => hearly early) fun habs => by cases habs
  | installs =>
      rw [← shadowInst_endCaller]
      exact h₀.inst hgone
  | addsJob self =>
      have hadded := h₀.jobAdded (self hfits) (hearly rfl) (habsent rfl) hother hgone
      exact hnext _ hadded rfl rfl (fun hlate => by cases hlate) fun habs => by cases habs
  | relies => exact h₀
  | starts => exact hnext _ h₀ rfl rfl (fun hlate => by cases hlate) fun habs => by cases habs
  | joinsThread handle =>
      exact hnext _ (h₀.congr rfl rfl rfl rfl rfl rfl) rfl rfl (fun hlate => by cases hlate)
        fun habs => by cases habs
  | sets =>
      exact hnext _ (h₀.congr rfl rfl rfl rfl rfl rfl) rfl rfl (fun hlate => by cases hlate)
        fun habs => by cases habs
  | creates =>
      -- no thread has registered anything, so there is nothing to be kept of one
      refine ⟨h₀.callers, h₀.jobs, h₀.lists, h₀.early, h₀.absent, h₀.fits, fun i sn hi hin => ?_,
        h₀.shadow, h₀.gone⟩
      obtain ⟨k, hreg | hfin⟩ := h.pending i sn hi hin
      · cases (hidle _ rfl k).symm.trans hreg
      · cases (hidle _ rfl k).symm.trans hfin
  | fails created => exact Bool.noConfusion (created.symm.trans hattended)

/-- A serial of which nothing is left. -/
theorem SerialsOnce.left (h : SerialsOnce s) (hjob : devSn ∉ jobSerials s.jobs)
    (hlist : devSn ∉ serials s.list) (hshadow : devSn ∉ s.shadow)
    (hcallers : ∀ t c, s.callers t = some c → c.devSn ≠ devSn) :
    SerialsOnce { s with gone := devSn :: s.gone } := by
  refine ⟨h.callers, h.jobs, h.lists, h.early, h.absent, h.fits, h.pending, h.shadow,
    fun sn hsn => ?_⟩
  rcases List.mem_cons.mp hsn with rfl | hold
  · exact ⟨hjob, hlist, hshadow, fun t c hc heq => absurd heq (hcallers t c hc)⟩
  · exact h.gone sn hold

theorem mem_shadowUninst {sn : CString} :
    sn ∈ (tslAdapterShadowUninst devSn s).shadow ↔ sn ∈ s.shadow ∧ sn ≠ devSn := by
  rw [tslAdapterShadowUninst, List.mem_filter, decide_eq_true_iff]

theorem SerialsOnce.uninst (h : SerialsOnce s) : SerialsOnce (tslAdapterShadowUninst devSn s) := by
  refine ⟨h.callers, h.jobs, h.lists, h.early, h.absent, h.fits, h.pending, fun sn hsn => ?_,
    fun sn hsn => ?_⟩
  · exact h.shadow sn (mem_shadowUninst.mp hsn).1
  · obtain ⟨hjobs, hlist, hshadow, hcalls⟩ := h.gone sn hsn
    exact ⟨hjobs, hlist, fun hin => hshadow (mem_shadowUninst.mp hin).1, hcalls⟩

/-- The serial leaves its capacity, and the shadow waits for the next step. -/
theorem SerialsOnce.refDel (h : SerialsOnce s) (hc : s.callers t = some (.deleting devSn .refDel)) :
    SerialsOnce ({ s with list := tslProfileRefDel devSn s.list }.moveCaller t
      (.deleting devSn .shadowUninst)) := by
  have hmem : ∀ sn, sn ∈ serials (tslProfileRefDel devSn s.list) ↔
      sn ≠ devSn ∧ sn ∈ serials s.list := fun sn => by
    rw [serials_tslProfileRefDel, h.lists.mem_erase_iff]
  have hother : ∀ t' c', t' ≠ t → s.callers t' = some c' → c'.devSn ≠ devSn :=
    fun t' c' hne hc' heq => hne (h.callers t' t c' _ hc' hc heq)
  have hearly : devSn ∉ jobSerials s.jobs := h.early t _ hc rfl
  constructor
  · intro t₁ t₂ c₁ c₂ h₁ h₂ hsame
    rcases of_moved h₁ with ⟨heq₁, rfl⟩ | ⟨hne₁, hold₁⟩
    · rcases of_moved h₂ with ⟨heq₂, -⟩ | ⟨hne₂, hold₂⟩
      · exact heq₁.trans heq₂.symm
      · exact absurd hsame.symm (hother t₂ c₂ hne₂ hold₂)
    · rcases of_moved h₂ with ⟨-, rfl⟩ | ⟨-, hold₂⟩
      · exact absurd hsame (hother t₁ c₁ hne₁ hold₁)
      · exact h.callers t₁ t₂ c₁ c₂ hold₁ hold₂ hsame
  · exact h.jobs
  · show (serials (tslProfileRefDel devSn s.list)).Nodup
    rw [serials_tslProfileRefDel]
    exact h.lists.erase devSn
  · intro t' c' hc' hlate
    rcases of_moved hc' with ⟨-, rfl⟩ | ⟨-, hold⟩
    · exact hearly
    · exact h.early t' c' hold hlate
  · intro t' c' hc' habs hin
    obtain ⟨hne, hlist⟩ := (hmem _).mp hin
    rcases of_moved hc' with ⟨-, rfl⟩ | ⟨-, hold⟩
    · exact hne rfl
    · exact h.absent t' c' hold habs hlist
  · intro t' sn model pc hc'
    rcases of_moved hc' with ⟨-, heq⟩ | ⟨-, hold⟩
    · cases heq
    · exact h.fits t' sn model pc hold
  · exact fun i sn hi hin => h.pending i sn hi ((hmem sn).mp hin).2
  · intro sn hsn
    by_cases hself : sn = devSn
    · subst hself
      exact .inr ⟨t, Function.update_self ..⟩
    · rcases h.shadow sn hsn with hlist | ⟨t', hc'⟩
      · exact .inl ((hmem sn).mpr ⟨hself, hlist⟩)
      · have hne : t' ≠ t := by
          rintro rfl
          cases hc.symm.trans hc'
        exact .inr ⟨t', (Function.update_of_ne hne ..).trans hc'⟩
  · intro sn hsn
    obtain ⟨hjobs, hlist, hshadow, hcalls⟩ := h.gone sn hsn
    refine ⟨hjobs, fun hin => hlist ((hmem sn).mp hin).2, hshadow, fun t' c' hc' hself => ?_⟩
    rcases of_moved hc' with ⟨-, rfl⟩ | ⟨-, hold⟩
    · cases hcalls t _ hc hself
    · exact hcalls t' c' hold hself

theorem SerialsOnce.delStep (h : SerialsOnce s) {pc : DelPc}
    (hc : s.callers t = some (.deleting devSn pc)) (hstep : delStep t devSn s pc = some s') :
    SerialsOnce s' := by
  have hother : ∀ t' c', (s.endCaller t).callers t' = some c' → c'.devSn ≠ devSn :=
    fun t' c' hc' => h.other hc hc'
  have hearly : devSn ∉ jobSerials s.jobs := h.early t _ hc rfl
  cases pc with
  | check =>
      have h₀ : SerialsOnce (s.endCaller t) := h.ended fun sn hdel => by cases hc.symm.trans hdel
      rw [Tsl.delStep] at hstep
      split at hstep
      next hcheck =>
        cases hstep
        have hlist := tslProfileCheck_iff.mp hcheck
        rw [← moveCaller_endCaller]
        exact h₀.entered (Function.update_self ..) hother (fun _ => hearly) (fun habs => by cases habs)
          (fun _ _ _ heq => by cases heq) fun hin => absurd hlist (h.gone devSn hin).2.1
      next hcheck =>
        cases hstep
        have hlist := not_check_of_absent hcheck
        refine (h₀.left hearly hlist (fun hin => ?_) hother).congr rfl rfl rfl rfl rfl rfl
        rcases h.shadow devSn hin with hin | ⟨t', hc'⟩
        · exact hlist hin
        · obtain rfl := h.callers t t' _ _ hc hc' rfl
          cases hc.symm.trans hc'
  | refDel =>
      rw [Tsl.delStep] at hstep
      split at hstep
      next =>
        cases hstep
        exact h.refDel hc
      next => cases hstep
  | shadowUninst =>
      cases hstep
      have hshadow : devSn ∉ (tslAdapterShadowUninst devSn s).shadow :=
        fun hin => (mem_shadowUninst.mp hin).2 rfl
      have h₀ : SerialsOnce ((tslAdapterShadowUninst devSn s).endCaller t) :=
        h.uninst.ended fun sn hdel => by
          have heq : some (Caller.deleting devSn .shadowUninst) = some (.deleting sn .shadowUninst) :=
            hc.symm.trans hdel
          cases heq
          exact hshadow
      exact (h₀.left hearly (h.absent t _ hc rfl) hshadow hother).congr rfl rfl rfl rfl rfl rfl

theorem jobSerials_update (devSn : CString) (status : DevStatus) (jobs : List Job) :
    jobSerials (tslAdapterQueryJobUpdate devSn status jobs) = jobSerials jobs :=
  Slots.map_modifyFirst (f := fun job : Job => { job with status := status }) fun _ => rfl

theorem absent_early {c : Caller} (h : c.absent = true) : c.late = false := by
  cases c with
  | adding devSn model pc => cases pc <;> first | rfl | cases h
  | deleting devSn pc => rfl

theorem jobSerials_getElem? {job : Job} {i : Nat} (h : s.jobs[i]? = some job) :
    (jobSerials s.jobs)[i]? = some job.devSn := by
  rw [jobSerials, List.getElem?_map, h]
  rfl

/-- A job that is registered is the one that the only worker is at. -/
theorem SerialsOnce.pending_at (h : SerialsOnce s) {pc : WorkerPc} (hpc : s.workers k = some pc)
    (honly : ∀ k' pc', s.workers k' = some pc' → k' = k) {i : Nat}
    (hi : (jobSerials s.jobs)[i]? = some devSn) (hin : devSn ∈ serials s.list) :
    pc = .registered i ∨ pc = .finished i := by
  obtain ⟨k', hk⟩ := h.pending i devSn hi hin
  have hsame : k' = k := by
    rcases hk with hk | hk
    · exact honly k' _ hk
    · exact honly k' _ hk
  rwa [hsame, hpc, Option.some_inj, Option.some_inj] at hk

/-- Unless the only worker is at a job that it has registered, none is registered. -/
theorem SerialsOnce.pending_none (h : SerialsOnce s) {pc : WorkerPc} (hpc : s.workers k = some pc)
    (honly : ∀ k' pc', s.workers k' = some pc' → k' = k)
    (hreg : ∀ i, pc ≠ .registered i ∧ pc ≠ .finished i) {i : Nat}
    (hi : (jobSerials s.jobs)[i]? = some devSn) : devSn ∉ serials s.list := by
  intro hin
  rcases h.pending_at hpc honly hi hin with hat | hat
  · exact (hreg i).1 hat
  · exact (hreg i).2 hat

theorem SerialsOnce.workerMoved (h : SerialsOnce s) {next : Option WorkerPc}
    (hnext : ∀ i sn, (jobSerials s.jobs)[i]? = some sn → sn ∈ serials s.list →
      next = some (.registered i) ∨ next = some (.finished i)) :
    SerialsOnce { s with workers := Function.update s.workers k next } := by
  refine ⟨h.callers, h.jobs, h.lists, h.early, h.absent, h.fits, fun i sn hi hin => ⟨k, ?_⟩,
    h.shadow, h.gone⟩
  show Function.update s.workers k next k = _ ∨ Function.update s.workers k next k = _
  rw [Function.update_self]
  exact hnext i sn hi hin

theorem SerialsOnce.jobErased (h : SerialsOnce s) {i : Nat} (hpc : s.workers k = some (.finished i))
    (honly : ∀ k' pc', s.workers k' = some pc' → k' = k) :
    SerialsOnce ({ s with jobs := s.jobs.eraseIdx i }.moveWorker k .top) := by
  have herase : jobSerials (s.jobs.eraseIdx i) = (jobSerials s.jobs).eraseIdx i :=
    (List.eraseIdx_map ..).symm
  have hsub : ∀ sn, sn ∈ jobSerials (s.jobs.eraseIdx i) → sn ∈ jobSerials s.jobs := fun sn hin => by
    rw [herase] at hin
    exact List.mem_of_mem_eraseIdx hin
  refine ⟨h.callers, ?_, h.lists, fun t c hc hlate hin => h.early t c hc hlate (hsub _ hin),
    h.absent, h.fits, fun j sn hj hin => ?_, h.shadow, fun sn hsn => ?_⟩
  · show (jobSerials (s.jobs.eraseIdx i)).Nodup
    rw [herase]
    exact h.jobs.sublist (List.eraseIdx_sublist ..)
  · -- the only registered job is the one that goes
    have hmem := List.mem_of_getElem? hj
    change sn ∈ jobSerials (s.jobs.eraseIdx i) at hmem
    rw [herase] at hmem
    obtain ⟨j', hne, hj'⟩ := List.mem_eraseIdx_iff_getElem?.mp hmem
    rcases h.pending_at hpc honly hj' hin with hat | hat
    · cases hat
    · cases hat
      exact absurd rfl hne
  · obtain ⟨hjobs, hrest⟩ := h.gone sn hsn
    exact ⟨fun hin => hjobs (hsub sn hin), hrest⟩

theorem SerialsOnce.workerStep (h : SerialsOnce s) {pc : WorkerPc} (hpc : s.workers k = some pc)
    (honly : ∀ k' pc', s.workers k' = some pc' → k' = k) (hdid : WorkerDid k s pc s') :
    SerialsOnce s' := by
  -- where no job is registered, the worker may go anywhere
  have hfree : (∀ i, pc ≠ .registered i ∧ pc ≠ .finished i) → ∀ next : Option WorkerPc,
      SerialsOnce { s with workers := Function.update s.workers k next } :=
    fun hreg next => h.workerMoved fun i sn hi hin =>
      absurd hin (h.pending_none hpc honly hreg hi)
  cases hdid with
  | waits => exact h
  | leaves => exact hfree (fun i => ⟨nofun, nofun⟩) _
  | goes unregistered => exact hfree unregistered _
  | updates =>
      exact (hfree (fun i => ⟨nofun, nofun⟩) _).congr rfl (jobSerials_update ..) rfl rfl rfl rfl
  | @registers index buf job list at_job perm =>
      have hat := jobSerials_getElem? at_job
      have hmem := List.mem_of_getElem? hat
      refine (hfree (fun i => ⟨nofun, nofun⟩) (some (.registered index))).joined perm
        (h.pending_none hpc honly (fun i => ⟨nofun, nofun⟩) hat) (fun i hi => ⟨k, .inl ?_⟩)
        (fun t c hc habs heq => ?_) fun hin => ?_
      · have hlt := (List.getElem?_eq_some_iff.mp hat).choose
        rw [← (List.getElem?_inj hlt h.jobs).mp (hat.trans hi.symm)]
        exact Function.update_self ..
      · have hearly := h.early t c hc (absent_early habs)
        rw [heq] at hearly
        exact hearly hmem
      · exact (h.gone _ hin).1 hmem
  | installs at_job =>
      have hinst := h.inst fun hin =>
        (h.gone _ hin).1 (List.mem_of_getElem? (jobSerials_getElem? at_job))
      rw [shadowInst_eq] at hinst ⊢
      refine hinst.workerMoved fun i sn hi hin => .inr ?_
      rcases h.pending_at hpc honly hi hin with hat | hat
      · cases hat
        rfl
      · cases hat
  | finishes => exact h.jobErased hpc honly
  | ends => exact (hfree (fun i => ⟨nofun, nofun⟩) none).congr rfl rfl rfl rfl rfl rfl

end Serials

/-! ## Threads -/

/-- The call is about to see to the thread. -/
def Caller.starting : Caller → Bool
  | .adding _ _ (.destroy _) => true
  | .adding _ _ (.setRunning _) => true
  | .adding _ _ (.create _) => true
  | _ => false

def Caller.creating : Caller → Bool
  | .adding _ _ (.create _) => true
  | _ => false

/-- There is one worker, or one call is about to start one, while there are jobs. -/
structure ThreadsAlive (s : Downloading) : Prop where
  owned : ∀ k pc, s.workers k = some pc → s.handle = .thread k ∧ s.running = true
  starting : ∀ t c, s.callers t = some c → c.starting = true →
    (∀ k, s.workers k = none) ∧ s.running = c.creating
  once : ∀ t t' c c', s.callers t = some c → s.callers t' = some c' → c.starting = true →
    c'.starting = true → t = t'
  started : s.running = true → (∃ k pc, s.workers k = some pc) ∨
    ∃ t c, s.callers t = some c ∧ c.creating = true
  seen : s.jobs ≠ [] → (∃ k pc, s.workers k = some pc ∧ pc ≠ .leaving) ∨
    ∃ t c, s.callers t = some c ∧ c.late = true

section Threads

variable {p : Platform} {strong : Bool} {s s' : Downloading} {t k : Nat} {devSn : CString}
  {c c' : Caller} {pc : WorkerPc}

theorem ThreadsAlive.only (h : ThreadsAlive s) (hpc : s.workers k = some pc) {k' : Nat}
    {pc' : WorkerPc} (hpc' : s.workers k' = some pc') : k' = k := by
  have hhandle := (h.owned k' pc' hpc').1
  rw [(h.owned k pc hpc).1] at hhandle
  cases hhandle
  rfl

theorem late_of_starting (h : c.starting = true) : c.late = true := by
  cases c with
  | adding devSn model pc => cases pc <;> first | rfl | cases h
  | deleting devSn pc => cases h

theorem starting_of_creating (h : c.creating = true) : c.starting = true := by
  cases c with
  | adding devSn model pc => cases pc <;> first | rfl | cases h
  | deleting devSn pc => cases h

/-- What calls do that have nothing to do with threads. -/
theorem ThreadsAlive.ended (h : ThreadsAlive s)
    (hlate : ∀ c, s.callers t = some c → c.late = false) : ThreadsAlive (s.endCaller t) := by
  have hcreating : ∀ c, s.callers t = some c → ¬ c.creating = true := fun c hc hcre =>
    Bool.noConfusion ((hlate c hc).symm.trans (late_of_starting (starting_of_creating hcre)))
  refine ⟨h.owned, fun t' c' hc => h.starting t' c' (of_ended hc).2,
    fun t₁ t₂ c₁ c₂ h₁ h₂ => h.once t₁ t₂ c₁ c₂ (of_ended h₁).2 (of_ended h₂).2,
    fun hrun => (h.started hrun).imp_right fun hex => exists_other hex hcreating,
    fun hjobs => (h.seen hjobs).imp_right fun hex => exists_other hex fun c hc hl =>
      Bool.noConfusion ((hlate c hc).symm.trans hl)⟩

theorem ThreadsAlive.moved (h : ThreadsAlive s)
    (hlate : ∀ c, s.callers t = some c → c.late = false) (hc : c.starting = false) :
    ThreadsAlive (s.moveCaller t c) := by
  have hcreating : ∀ c, s.callers t = some c → ¬ c.creating = true := fun c hc hcre =>
    Bool.noConfusion ((hlate c hc).symm.trans (late_of_starting (starting_of_creating hcre)))
  have hof : ∀ {t' c'}, (s.moveCaller t c).callers t' = some c' → c'.starting = true →
      s.callers t' = some c' := by
    intro t' c' hc' hstart
    rcases of_moved hc' with ⟨-, rfl⟩ | ⟨-, hold⟩
    · exact Bool.noConfusion (hc.symm.trans hstart)
    · exact hold
  refine ⟨h.owned, fun t' c' hc' hstart => h.starting t' c' (hof hc' hstart) hstart,
    fun t₁ t₂ c₁ c₂ h₁ h₂ hs₁ hs₂ => h.once t₁ t₂ c₁ c₂ (hof h₁ hs₁) (hof h₂ hs₂) hs₁ hs₂,
    fun hrun => (h.started hrun).imp_right fun hex => exists_other hex hcreating,
    fun hjobs => (h.seen hjobs).imp_right fun hex => exists_other hex fun c hc hl =>
      Bool.noConfusion ((hlate c hc).symm.trans hl)⟩

theorem ThreadsAlive.congr (h : ThreadsAlive s) (hworkers : s'.workers = s.workers)
    (hhandle : s'.handle = s.handle) (hrunning : s'.running = s.running)
    (hcallers : s'.callers = s.callers) (hjobs : s'.jobs ≠ [] → s.jobs ≠ []) :
    ThreadsAlive s' := by
  constructor
  · rw [hworkers, hhandle, hrunning]
    exact h.owned
  · rw [hworkers, hcallers, hrunning]
    exact h.starting
  · rw [hcallers]
    exact h.once
  · rw [hrunning, hworkers, hcallers]
    exact h.started
  · rw [hworkers, hcallers]
    exact fun hne => h.seen (hjobs hne)

/-- The call that starts a thread goes on to the next operation. -/
theorem ThreadsAlive.goesOn (h : ThreadsAlive s) (handle : ThreadHandle) (c' : Caller)
    (hc : s.callers t = some c) (hstart : c.starting = true) (hstart' : c'.starting = true) :
    ThreadsAlive ({ s with handle := handle, running := c'.creating }.moveCaller t c') := by
  have hidle := (h.starting t c hc hstart).1
  have hself : ∀ {t₁ c₁}, (s.moveCaller t c').callers t₁ = some c₁ → c₁.starting = true →
      t₁ = t ∧ c₁ = c' := by
    intro t₁ c₁ h₁ hs₁
    rcases of_moved h₁ with heq | ⟨hne, hold⟩
    · exact heq
    · exact absurd (h.once t₁ t c₁ c hold hc hs₁ hstart) hne
  constructor
  · intro k pc hpc
    cases (hidle k).symm.trans hpc
  · intro t₁ c₁ h₁ hs₁
    obtain ⟨-, rfl⟩ := hself h₁ hs₁
    exact ⟨hidle, rfl⟩
  · intro t₁ t₂ c₁ c₂ h₁ h₂ hs₁ hs₂
    exact (hself h₁ hs₁).1.trans (hself h₂ hs₂).1.symm
  · exact fun hrun => .inr ⟨t, c', Function.update_self .., hrun⟩
  · exact fun _ => .inr ⟨t, c', Function.update_self .., late_of_starting hstart'⟩

/-- The flag is read while it is set: somebody sees the jobs. -/
theorem ThreadsAlive.running (h : ThreadsAlive s) (hc : s.callers t = some c)
    (hstart : c.starting = false) (hrunning : s.running = true)
    (hleaving : s.jobs ≠ [] → ∀ k, s.workers k ≠ some .leaving) : ThreadsAlive (s.endCaller t) := by
  have hcreating : ∀ c₁, s.callers t = some c₁ → ¬ c₁.creating = true := by
    intro c₁ h₁ hcre
    cases hc.symm.trans h₁
    exact Bool.noConfusion (hstart.symm.trans (starting_of_creating hcre))
  have hstarted : (∃ k pc, s.workers k = some pc) ∨
      ∃ t' c', (s.endCaller t).callers t' = some c' ∧ c'.creating = true :=
    (h.started hrunning).imp_right fun hex => exists_other hex hcreating
  refine ⟨h.owned, fun t' c' hc => h.starting t' c' (of_ended hc).2,
    fun t₁ t₂ c₁ c₂ h₁ h₂ => h.once t₁ t₂ c₁ c₂ (of_ended h₁).2 (of_ended h₂).2,
    fun _ => hstarted, fun hjobs => ?_⟩
  rcases hstarted with ⟨k, pc, hpc⟩ | ⟨t', c', hc', hcre⟩
  · exact .inl ⟨k, pc, hpc, fun heq => hleaving hjobs k (heq ▸ hpc)⟩
  · exact .inr ⟨t', c', hc', late_of_starting (starting_of_creating hcre)⟩

/-- The flag is read while it is not set: this call is the one that starts a thread. -/
theorem ThreadsAlive.stopped (h : ThreadsAlive s) (hstopped : s.running = false)
    (hnobody : ∀ t' c', s.callers t' = some c' → c'.starting = false)
    (hstart : c'.starting = true) (hcreating : c'.creating = false) :
    ThreadsAlive (s.moveCaller t c') := by
  have hidle : ∀ k, s.workers k = none := by
    intro k
    cases hpc : s.workers k with
    | none => rfl
    | some pc => exact Bool.noConfusion (hstopped.symm.trans (h.owned k pc hpc).2)
  have hself : ∀ {t₁ c₁}, (s.moveCaller t c').callers t₁ = some c₁ → c₁.starting = true →
      t₁ = t ∧ c₁ = c' := by
    intro t₁ c₁ h₁ hs₁
    rcases of_moved h₁ with heq | ⟨-, hold⟩
    · exact heq
    · exact Bool.noConfusion ((hnobody t₁ c₁ hold).symm.trans hs₁)
  constructor
  · exact h.owned
  · intro t₁ c₁ h₁ hs₁
    obtain ⟨-, rfl⟩ := hself h₁ hs₁
    exact ⟨hidle, hstopped.trans hcreating.symm⟩
  · intro t₁ t₂ c₁ c₂ h₁ h₂ hs₁ hs₂
    exact (hself h₁ hs₁).1.trans (hself h₂ hs₂).1.symm
  · exact fun hrun => Bool.noConfusion (hstopped.symm.trans hrun)
  · exact fun _ => .inr ⟨t, c', Function.update_self .., late_of_starting hstart⟩

theorem ThreadsAlive.created (h : ThreadsAlive s) (hc : s.callers t = some c)
    (hcreating : c.creating = true) : ThreadsAlive ({ s with
      handle := .thread s.threads
      threads := s.threads + 1
      workers := Function.update s.workers s.threads (some .top) }.endCaller t) := by
  have hstart := starting_of_creating hcreating
  obtain ⟨hidle, hrunning⟩ := h.starting t c hc hstart
  have hnobody : ∀ {t₁ c₁}, (s.endCaller t).callers t₁ = some c₁ → c₁.starting ≠ true :=
    fun h₁ hs₁ => (of_ended h₁).1 (h.once _ t _ c (of_ended h₁).2 hc hs₁ hstart)
  have hnew : Function.update s.workers s.threads (some .top) s.threads = some .top :=
    Function.update_self ..
  constructor
  · intro k pc hpc
    rcases of_moved hpc with ⟨rfl, -⟩ | ⟨-, hold⟩
    · exact ⟨rfl, hrunning.trans hcreating⟩
    · cases (hidle k).symm.trans hold
  · exact fun t₁ c₁ h₁ hs₁ => absurd hs₁ (hnobody h₁)
  · exact fun t₁ t₂ c₁ c₂ h₁ h₂ hs₁ => absurd hs₁ (hnobody h₁)
  · exact fun _ => .inl ⟨s.threads, .top, hnew⟩
  · exact fun _ => .inl ⟨s.threads, .top, hnew, nofun⟩

theorem ThreadsAlive.workerMoved (h : ThreadsAlive s) (hpc : s.workers k = some pc)
    {pc' : WorkerPc} (hleaving : pc' = .leaving → s.jobs = []) : ThreadsAlive (s.moveWorker k pc') := by
  have hself : Function.update s.workers k (some pc') k = some pc' := Function.update_self ..
  constructor
  · intro k₁ pc₁ h₁
    rcases of_moved h₁ with ⟨rfl, -⟩ | ⟨-, hold⟩
    · exact h.owned k₁ pc hpc
    · exact h.owned k₁ pc₁ hold
  · intro t c hc hstart
    cases ((h.starting t c hc hstart).1 k).symm.trans hpc
  · exact h.once
  · exact fun _ => .inl ⟨k, pc', hself⟩
  · exact fun hjobs => .inl ⟨k, pc', hself, fun heq => hjobs (hleaving heq)⟩

theorem ThreadsAlive.workerEnded (h : ThreadsAlive s) (hpc : s.workers k = some .leaving) :
    ThreadsAlive { s with running := false, workers := Function.update s.workers k none } := by
  constructor
  · intro k₁ pc₁ h₁
    obtain ⟨hne, hold⟩ := of_ended h₁
    exact absurd (h.only hpc hold) hne
  · intro t c hc hstart
    cases ((h.starting t c hc hstart).1 k).symm.trans hpc
  · exact h.once
  · exact fun hrun => Bool.noConfusion hrun
  · intro hjobs
    rcases h.seen hjobs with ⟨k₁, pc₁, h₁, hne⟩ | hlate
    · rw [h.only hpc h₁, hpc] at h₁
      cases h₁
      exact absurd rfl hne
    · exact .inr hlate

theorem ThreadsAlive.addStep (h : ThreadsAlive s) {model : DevModel} {apc : AddPc} {a : CallAnswer}
    (hc : s.callers t = some (.adding devSn model apc))
    (hattended : Attended s a (.adding devSn model apc))
    (hdid : AddDid t devSn model a s apc s') : ThreadsAlive s' := by
  have hself : ∀ {c}, s.callers t = some c → c = .adding devSn model apc := fun h₁ =>
    (Option.some.inj (hc.symm.trans h₁)).symm
  -- before the job is added, the call has nothing to do with threads
  have hended : (Caller.adding devSn model apc).late = false → ThreadsAlive (s.endCaller t) :=
    fun hlate => h.ended fun c h₁ => by rw [hself h₁, hlate]
  have hmoved : ∀ {c' : Caller}, (Caller.adding devSn model apc).late = false →
      c'.starting = false → ThreadsAlive (s.moveCaller t c') :=
    fun hlate hs => h.moved (fun c h₁ => by rw [hself h₁, hlate]) hs
  cases hdid with
  | ends early => exact hended early
  | goes early early' =>
      exact hmoved early (Bool.eq_false_iff.mpr fun hs =>
        Bool.noConfusion (early'.symm.trans (late_of_starting hs)))
  | joins early => exact (hmoved early rfl).congr rfl rfl rfl rfl id
  | installs =>
      rw [shadowInst_eq]
      exact (hended rfl).congr rfl rfl rfl rfl id
  | @addsJob _ again =>
      have hread : ThreadsAlive (s.moveCaller t (.adding devSn model (.readRunning again))) :=
        hmoved rfl rfl
      exact ⟨hread.owned, hread.starting, hread.once, hread.started,
        fun _ => .inr ⟨t, _, Function.update_self .., rfl⟩⟩
  | relies running => exact h.running hc rfl running hattended.1
  | starts stopped =>
      refine h.stopped stopped (fun t' c' hc' => Bool.eq_false_iff.mpr fun hs => ?_) rfl rfl
      have hcreating := (h.starting t' c' hc' hs).2
      rw [stopped] at hcreating
      cases c' with
      | deleting sn dpc => cases hs
      | adding sn m apc' =>
          cases apc' with
          | destroy again => exact (hattended.2 stopped t' sn m again).1 hc'
          | setRunning again => exact (hattended.2 stopped t' sn m again).2 hc'
          | create => cases hcreating
          | _ => cases hs
  | @joinsThread again handle =>
      have hrunning : s.running = false := (h.starting t _ hc rfl).2
      have hgoes := h.goesOn handle (.adding devSn model (.setRunning again)) hc rfl rfl
      exact hgoes.congr rfl rfl hrunning rfl id
  | @sets again => exact h.goesOn s.handle (.adding devSn model (.create again)) hc rfl rfl
  | creates => exact h.created hc rfl
  | fails created => exact Bool.noConfusion (created.symm.trans hattended)

theorem ThreadsAlive.delStep (h : ThreadsAlive s) {dpc : DelPc}
    (hc : s.callers t = some (.deleting devSn dpc)) (hstep : delStep t devSn s dpc = some s') :
    ThreadsAlive s' := by
  have hlate : ∀ c, s.callers t = some c → c.late = false := fun c h₁ => by
    cases hc.symm.trans h₁
    rfl
  have hended := h.ended hlate
  have hmoved : ∀ dpc' : DelPc, ThreadsAlive (s.moveCaller t (.deleting devSn dpc')) :=
    fun dpc' => h.moved hlate rfl
  cases dpc with
  | check =>
      rw [Tsl.delStep] at hstep
      split at hstep
      next =>
        cases hstep
        exact hmoved _
      next =>
        cases hstep
        exact hended.congr rfl rfl rfl rfl id
  | refDel =>
      rw [Tsl.delStep] at hstep
      split at hstep
      next =>
        cases hstep
        exact (hmoved .shadowUninst).congr rfl rfl rfl rfl id
      next => cases hstep
  | shadowUninst =>
      cases hstep
      exact hended.congr rfl rfl rfl rfl id

theorem ThreadsAlive.workerStep (h : ThreadsAlive s) (hpc : s.workers k = some pc)
    (hdid : WorkerDid k s pc s') : ThreadsAlive s' := by
  have hmoved : ∀ pc' : WorkerPc, pc' ≠ .leaving → ThreadsAlive (s.moveWorker k pc') :=
    fun _ hne => h.workerMoved hpc fun heq => absurd heq hne
  have hne : ∀ {i job}, s.jobs[i]? = some job → s.jobs ≠ [] :=
    fun hjob => List.ne_nil_of_mem (List.mem_of_getElem? hjob)
  cases hdid with
  | waits => exact h
  | leaves why =>
      refine h.workerMoved hpc fun _ => why.resolve_left fun hstopped => ?_
      exact Bool.noConfusion ((h.owned k _ hpc).2.symm.trans hstopped)
  | goes _ stays => exact hmoved _ stays
  | @updates index _ _ at_job =>
      exact (hmoved (.visit (index + 1)) nofun).congr rfl rfl rfl rfl fun _ => hne at_job
  | @registers index =>
      exact (hmoved (.registered index) nofun).congr rfl rfl rfl rfl id
  | @installs index =>
      rw [shadowInst_eq]
      exact (hmoved (.finished index) nofun).congr rfl rfl rfl rfl id
  | finishes at_job => exact (hmoved .top nofun).congr rfl rfl rfl rfl fun _ => hne at_job
  | ends => exact h.workerEnded hpc

end Threads

/-! ## Runs -/

section Runs

variable {p : Platform} {strong : Bool} {s s' : Downloading}

/-- Both invariants are kept by every orderly step. -/
theorem Downloading.step_keeps {e : Event} (hserials : SerialsOnce s) (hthreads : ThreadsAlive s)
    (horderly : Orderly s e) (hstep : s.step p strong e = some s') :
    SerialsOnce s' ∧ ThreadsAlive s' := by
  cases e with
  | reg t devSn model =>
      rw [Downloading.step] at hstep
      split at hstep
      next hfree =>
        cases hstep
        have hnone := Option.isNone_iff_eq_none.mp hfree
        have hstarted : SerialsOnce { s with gone := s.gone.filter fun x => x ≠ devSn } :=
          ⟨hserials.callers, hserials.jobs, hserials.lists, hserials.early, hserials.absent,
            hserials.fits, hserials.pending, hserials.shadow,
            fun sn hsn => hserials.gone sn (List.mem_of_mem_filter hsn)⟩
        refine ⟨hstarted.entered hnone horderly.2.2 (fun _ => horderly.2.1) (fun habs => by cases habs)
          (fun _ _ _ heq => by cases heq; exact horderly.1) fun hin => ?_, ?_⟩
        · simp [Caller.devSn] at hin
        · exact (hthreads.moved (fun c hc => by cases hnone.symm.trans hc) rfl).congr
            rfl rfl rfl rfl id
      next => cases hstep
  | unreg t devSn =>
      rw [Downloading.step] at hstep
      split at hstep
      next hfree =>
        cases hstep
        have hnone := Option.isNone_iff_eq_none.mp hfree
        exact ⟨hserials.entered hnone horderly.2 (fun _ => horderly.1) (fun habs => by cases habs)
          (fun _ _ _ heq => by cases heq) fun _ => rfl,
          hthreads.moved (fun c hc => by cases hnone.symm.trans hc) rfl⟩
      next => cases hstep
  | call t a =>
      rw [Downloading.step] at hstep
      split at hstep
      next => cases hstep
      next devSn model pc hc =>
        have hdid := addStep_did hstep
        refine ⟨hserials.addStep hc (horderly _ hc) (fun again hpc k => ?_) hdid,
          hthreads.addStep hc (horderly _ hc) hdid⟩
        subst hpc
        exact (hthreads.starting t _ hc rfl).1 k
      next devSn pc hc => exact ⟨hserials.delStep hc hstep, hthreads.delStep hc hstep⟩
  | response devSn =>
      cases hstep
      refine ⟨hserials.congr rfl (jobSerials_update ..) rfl rfl rfl rfl,
        hthreads.congr rfl rfl rfl rfl fun hne hnil => hne ?_⟩
      show tslAdapterQueryJobUpdate devSn .loading s.jobs = []
      rw [hnil]
      rfl
  | online up =>
      cases hstep
      exact ⟨hserials.congr rfl rfl rfl rfl rfl rfl, hthreads.congr rfl rfl rfl rfl id⟩
  | worker k a =>
      rw [Downloading.step] at hstep
      split at hstep
      next => cases hstep
      next pc hpc =>
        have hdid := workerStep_did hstep
        exact ⟨hserials.workerStep hpc (fun k' pc' hpc' => hthreads.only hpc hpc') hdid,
          hthreads.workerStep hpc hdid⟩

/-- The worker takes nobody back. -/
theorem gone_workerStep {k : Nat} {a : WorkerAnswer}
    (hstep : s.step p strong (.worker k a) = some s') : s'.gone = s.gone := by
  rw [Downloading.step] at hstep
  split at hstep
  next => cases hstep
  next pc hpc =>
    cases workerStep_did hstep with
    | installs =>
        rw [shadowInst_eq]
        rfl
    | _ => rfl

theorem init_serialsOnce : SerialsOnce .init where
  callers := nofun
  jobs := List.nodup_nil
  lists := List.nodup_nil
  early := nofun
  absent := nofun
  fits := nofun
  pending _ _ h := nomatch h
  shadow := nofun
  gone := nofun

theorem init_threadsAlive : ThreadsAlive .init where
  owned := nofun
  starting := nofun
  once := nofun
  started := nofun
  seen h := absurd rfl h

/-- As long as calls and the worker keep out of each other's way, jobs and devices are
kept once, what was removed stays away and every job is seen. -/
theorem downloads_sound (h : Reach (Downloading.step p strong) Orderly .init s) :
    DownloadsSound p strong s := by
  have hkept : SerialsOnce s ∧ ThreadsAlive s := by
    exact h.invariant (I := fun s => SerialsOnce s ∧ ThreadsAlive s)
      ⟨init_serialsOnce, init_threadsAlive⟩
      fun s e s' hs horderly hstep => Downloading.step_keeps hs.1 hs.2 horderly hstep
  obtain ⟨hserials, hthreads⟩ := hkept
  refine ⟨fun devSn => List.nodup_iff_count_le_one.mp hserials.jobs devSn,
    fun devSn => List.nodup_iff_count_le_one.mp hserials.lists devSn,
    fun devSn hgone k a s' hstep => ?_, fun hjobs => (hthreads.seen hjobs).imp_left ?_⟩
  · have hserials' := (Downloading.step_keeps (e := .worker k a) hserials hthreads trivial hstep).1
    rw [← gone_workerStep hstep] at hgone
    obtain ⟨-, hlist, hshadow, -⟩ := hserials'.gone devSn hgone
    exact ⟨fun hcheck => absurd (tslProfileCheck_iff.mp hcheck) hlist,
      fun hin => absurd hin hshadow⟩
  · rintro ⟨k, pc, hpc, hstays⟩
    exact ⟨(hthreads.owned k pc hpc).2, k, pc, hpc, hstays⟩

end Runs

/-- Nothing is stored, and a thread can be created. -/
def emptyStorage : CallAnswer := ⟨.error Err.kvName, true, true⟩

/-- There is no memory for a job at first, then there is, and the thread asks for the profile. -/
theorem downloads_sound_registering : ∃ s, jobSerials s.jobs = [.lit "D1"] ∧
    s.workers 0 = some (.visit 1) ∧ DownloadsSound allocating false s := by
  have hcall : ∀ {s : Downloading} {c : Caller} (a : CallAnswer), s.callers 0 = some c →
      Attended s a c → Orderly s (.call 0 a) := by
    intro s c a hc hattended c' hc'
    cases hc.symm.trans hc'
    exact hattended
  have hreg : Orderly .init (.reg 0 (.lit "D1") (versionModel "V1")) :=
    ⟨by decide, List.not_mem_nil, nofun⟩
  have hstart : Reach (Downloading.step allocating false) Orderly .init .init := .start
  have hadded := hstart.next hreg rfl
    |>.next (hcall emptyStorage rfl trivial) rfl
    |>.next (hcall emptyStorage rfl trivial) rfl
    |>.next (hcall emptyStorage rfl trivial) rfl
    |>.next (hcall { emptyStorage with memory := false } rfl trivial) rfl
    |>.next (hcall emptyStorage rfl trivial) rfl
  have hcreated := hadded.next
      (hcall emptyStorage rfl ⟨fun _ _ => nofun, fun _ t _ _ _ => by cases t <;> exact ⟨nofun, nofun⟩⟩) rfl
    |>.next (hcall emptyStorage rfl trivial) rfl
    |>.next (hcall emptyStorage rfl trivial) rfl
    |>.next (hcall emptyStorage rfl rfl) rfl
  have honline : ∀ s up, Orderly s (.online up) := fun _ _ => trivial
  have hworker : ∀ s k a, Orderly s (.worker k a) := fun _ _ _ => trivial
  have hrun := hcreated.next (honline _ true) rfl
    |>.next (hworker _ 0 ⟨none, false, none⟩) rfl
    |>.next (hworker _ 0 ⟨none, false, some true⟩) rfl
    |>.next (hworker _ 0 ⟨none, false, none⟩) rfl
  exact ⟨_, rfl, rfl, downloads_sound hrun⟩

/-- A serial that is registered again while its profile is still to be downloaded gets
another job. -/
def sampleTwice : List Event :=
  .reg 0 (.lit "D1") (versionModel "V1") :: List.replicate 8 (.call 0 emptyStorage) ++
    .reg 0 (.lit "D1") (versionModel "V1") :: List.replicate 4 (.call 0 emptyStorage)

theorem registered_twice_not_sound : ∃ s,
    Reach (Downloading.step allocating false) (fun _ _ => True) .init s ∧
      ¬ DownloadsSound allocating false s := by
  have hrun : ((sampleTwice.foldlM (Downloading.step allocating false) .init).map
      fun s => (jobSerials s.jobs).count (.lit "D1")) = some 2 := by decide +kernel
  obtain ⟨s, hs, hcount⟩ := Option.map_eq_some_iff.mp hrun
  refine ⟨s, .of_foldlM hs, fun hsound => ?_⟩
  have hone := hsound.jobs (.lit "D1")
  omega

end EzIot.Tsl
