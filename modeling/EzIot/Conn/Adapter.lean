import EzIot.Conn.Process
import EzIot.Lib.Run

/-! # The provisioning server

A device that is to be provisioned opens an access point and an HTTP server for a limited
time. The server runs one handler at a time; two flags tell that a handler is at work and
that provisioning is over.
-/

namespace EzIot.Conn

open CText CJson Run

/-! ## State -/

/-- `ezconn_ap_info_t`, without what is only handed to the driver. -/
structure EzconnApInfo where
  apSsid : CField 33
  apstaCoexist : Bool
deriving DecidableEq

inductive HttpReqType
  | devinfo
  | getList
  | wifiConfig
deriving DecidableEq

/-- Where a handler is: about to look at the busy flag, in the delay behind that, or at
the work it does with the flag set. -/
inductive Handler
  | test (q : HttpReqType)
  | delay (q : HttpReqType)
  | serve (q : HttpReqType)
deriving DecidableEq

/-- The service of the software timers, which all modules share. In `broken` its mutex is
destroyed under a live timer, or its end waits for a thread that waits for the mutex, or it
counts an instance whose thread was never there. -/
inductive TimerService
  | stopped
  | running
  | broken
deriving DecidableEq

/-- What `eztimer_create` comes to. Mutex and thread are made where the service starts. -/
inductive TimerResult
  | created
  | noMutex
  | noThread
  | noMemory
deriving DecidableEq

/-- The static variables of the adapter, the servers and timers that exist, how many timers
other modules have, whether the access point is open, and the handler that is running. -/
structure ConnState where
  gConnCtx : EzconnCtx
  gExitFlag : Bool
  gServerBusy : Bool
  servers : List Nat
  timers : List Int
  otherTimers : Nat
  timerService : TimerService
  ap : Bool
  lastServer : Nat
  lastTimer : Nat
  handler : Option Handler
deriving DecidableEq

/-- What the resources that a start asks for answer; `waits` says whether the end of the timer
service, if it comes to that, meets a thread that waits for its mutex. -/
structure StartResults where
  timer : TimerResult
  waits : Bool
  ap : Bool
  httpd : Bool
  getDevInfo : Bool
  getAccessPoint : Bool
  putWifiConfig : Bool
deriving DecidableEq

/-! ## Start and stop -/

def stopHttpd (s : ConnState) : ConnState :=
  match s.gConnCtx.httpdServer with
  | none => s
  | some h =>
      { s with servers := s.servers.erase h, gConnCtx := { s.gConnCtx with httpdServer := none } }

/-- `start_httpd`. Where a handler cannot be registered, what is stopped is the server in
`g_conn_ctx`. -/
def startHttpd (r : StartResults) (s : ConnState) : Option Nat × ConnState :=
  if r.httpd = false then (none, s)
  else
    let tmpServer := s.lastServer + 1
    let s := { s with servers := s.servers ++ [tmpServer], lastServer := tmpServer }
    if r.getDevInfo = false then (none, stopHttpd s)
    else if r.getAccessPoint = false then (none, stopHttpd s)
    else if r.putWifiConfig = false then (none, stopHttpd s)
    else (some tmpServer, s)

/-- `eztimer_create`: whether there is a timer, and the service behind it. -/
def TimerService.create (r : TimerResult) : TimerService → Bool × TimerService
  | .stopped =>
      match r with
      | .created => (true, .running)
      | .noMutex => (false, .stopped)
      | .noThread => (false, .broken)
      | .noMemory => (false, .running)
  | .running => (r ≠ .noMemory, .running)
  | .broken => (false, .broken)

/-- `eztimer_create` of the provisioning timer. -/
def createTimer (r : StartResults) (s : ConnState) : ConnState :=
  let p := s.timerService.create r.timer
  if p.1 then
    { s with
      timers := s.timers ++ [((s.lastTimer + 1 : Nat) : Int)]
      lastTimer := s.lastTimer + 1
      timerService := p.2
      gConnCtx := { s.gConnCtx with timeOutTimer := (s.lastTimer + 1 : Nat) } }
  else { s with timerService := p.2, gConnCtx := { s.gConnCtx with timeOutTimer := -1 } }

def ConnState.liveTimers (s : ConnState) : Nat := s.timers.length + s.otherTimers

/-- `eztimer_delete`, which leaves these timers: where exactly one was live, the service is
stopped, also if that one was not named. -/
def leaveTimers (waits : Bool) (timers : List Int) (otherTimers : Nat) (s : ConnState) :
    ConnState :=
  if s.timerService = .running then
    { s with
      timers := timers
      otherTimers := otherTimers
      timerService :=
        if s.liveTimers = 1 then
          if timers.length + otherTimers = 0 ∧ waits = false then .stopped else .broken
        else .running }
  else s

/-- `eztimer_delete` of a provisioning timer. -/
def deleteTimer (waits : Bool) (id : Int) (s : ConnState) : ConnState :=
  leaveTimers waits (s.timers.erase id) s.otherTimers s

/-- The resources that `ezconn_adatper_init` takes one after the other. -/
def acquire (r : StartResults) (apInfo : EzconnApInfo) (devInfo : EzconnDevInfo) (s : ConnState) :
    EzconnErrno × ConnState :=
  let s := createTimer r s
  if s.gConnCtx.timeOutTimer ≤ 0 then (.internal, s)
  else
    let s := { s with gConnCtx := { s.gConnCtx with devInfo := devInfo } }
    if apInfo.apSsid.length = 0 then (.invalidParam, s)
    else
      let s := { s with gConnCtx := { s.gConnCtx with apstaCoexist := apInfo.apstaCoexist } }
      if r.ap = false then (.apStartFailed, s)
      else
        let p := startHttpd r { s with ap := true }
        let s := { p.2 with gConnCtx := { p.2.gConnCtx with httpdServer := p.1 } }
        (if p.1 = none then .httpdStartFailed else .succ, s)

def ezconnAdatperInit (r : StartResults) (apInfo : EzconnApInfo) (devInfo : EzconnDevInfo)
    (cb : Nat) (s : ConnState) : EzconnErrno × ConnState :=
  if s.gExitFlag = false then (.apAlreadyInit, s)
  else
    let s := { s with gConnCtx := { s.gConnCtx with wifiCb := some cb } }
    if devInfo.devSerial.length = 0 then (.invalidParam, s)
    else
      let p := acquire r apInfo devInfo { s with gExitFlag := false, gServerBusy := false }
      if p.1 ≠ .succ then
        (p.1, { deleteTimer r.waits p.2.gConnCtx.timeOutTimer p.2 with
          gExitFlag := true
          gConnCtx := .zero })
      else p

def ezconnApStart (r : StartResults) (apInfo : Option EzconnApInfo)
    (devInfo : Option EzconnDevInfo) (cb : Option Nat) (s : ConnState) : EzconnErrno × ConnState :=
  match apInfo, devInfo, cb with
  | some apInfo, some devInfo, some cb => ezconnAdatperInit r apInfo devInfo cb s
  | _, _, _ => (.invalidParam, s)

def ezconnAdapterDeinit (waits : Bool) (s : ConnState) : ConnState :=
  let s := stopHttpd s
  { deleteTimer waits s.gConnCtx.timeOutTimer s with gConnCtx := .zero, gExitFlag := true }

def ezconnApStop (waits : Bool) (s : ConnState) : ConnState :=
  { ezconnAdapterDeinit waits s with ap := false }

/-! ## The timers of other modules -/

def createOther (r : TimerResult) (s : ConnState) : ConnState :=
  let p := s.timerService.create r
  { s with otherTimers := if p.1 then s.otherTimers + 1 else s.otherTimers, timerService := p.2 }

/-- `eztimer_delete` of a timer of another module, or of one that is not live any more. -/
def deleteOther (waits live : Bool) (s : ConnState) : ConnState :=
  leaveTimers waits s.timers (if live then s.otherTimers - 1 else s.otherTimers) s

/-! ## Handlers and the time-out -/

/-- What the end of a configuration does to the flags. The timer is given another period
then, and goes on. -/
def ConfigEnd.flags (s : ConnState) : ConfigEnd → ConnState
  | .failed _ => s
  | .connected true => { s with gServerBusy := true, gExitFlag := true }
  | .connected false =>
      { s with gServerBusy := false, gExitFlag := s.gExitFlag || !s.gConnCtx.apstaCoexist }

/-- A handler that has been called. -/
def request (q : HttpReqType) (s : ConnState) : ConnState :=
  if q = .wifiConfig ∧ s.gExitFlag = true then s else { s with handler := some (.test q) }

/-- A look at the busy flag. The first callback of a session has to be there. -/
def testBusy (q : HttpReqType) (s : ConnState) : Option ConnState :=
  if s.gServerBusy then some { s with handler := some (.delay q) }
  else if q = .devinfo ∧ s.gConnCtx.wifiCb = none then none
  else some { s with gServerBusy := true, handler := some (.serve q) }

def finish (q : HttpReqType) (r : ConfigReq) (s : ConnState) : Option ConnState :=
  match q with
  | .devinfo => some { s with gServerBusy := false, handler := none }
  | .getList => some { s with gServerBusy := false, handler := none }
  | .wifiConfig =>
      (processWifiConfig r s.gConnCtx).map fun p =>
        { p.1.flags { s with gConnCtx := { s.gConnCtx with wifiInfo := p.2 } } with handler := none }

def timeOutCb (s : ConnState) : Option ConnState :=
  if s.gExitFlag then some s
  else if s.gConnCtx.wifiCb = none then none
  else some { s with gExitFlag := true }

/-! ## The system -/

inductive ConnEvent
  | start (r : StartResults) (apInfo : Option EzconnApInfo) (devInfo : Option EzconnDevInfo)
      (cb : Option Nat)
  | stop (waits : Bool)
  | request (q : HttpReqType)
  | test
  | wake
  | finish (r : ConfigReq)
  | timeOut (id : Int)
  | otherCreated (r : TimerResult)
  | otherExpired
  | otherDeleted (waits live : Bool)

/-- A step of the system. Stopping a server waits for its handler; a timer that fires is
deleted. -/
def ConnState.step (s : ConnState) : ConnEvent → Option ConnState
  | .start r apInfo devInfo cb => some (ezconnApStart r apInfo devInfo cb s).2
  | .stop waits =>
      if s.handler.isSome ∧ s.gConnCtx.httpdServer.isSome then none
      else some (ezconnApStop waits s)
  | .request q =>
      if s.servers = [] ∨ s.handler.isSome then none else some (request q s)
  | .test =>
      match s.handler with
      | some (.test q) => testBusy q s
      | _ => none
  | .wake =>
      match s.handler with
      | some (.delay q) =>
          some { s with handler := if s.gExitFlag then none else some (.test q) }
      | _ => none
  | .finish r =>
      match s.handler with
      | some (.serve q) => finish q r s
      | _ => none
  | .timeOut id =>
      if id ∈ s.timers then timeOutCb { s with timers := s.timers.erase id } else none
  | .otherCreated r => some (createOther r s)
  | .otherExpired =>
      if s.otherTimers = 0 then none else some { s with otherTimers := s.otherTimers - 1 }
  | .otherDeleted waits live =>
      if live = true ∧ s.otherTimers = 0 then none else some (deleteOther waits live s)

def ConnState.initial : ConnState :=
  ⟨.zero, true, false, [], [], 0, .stopped, false, 0, 0, none⟩

def sampleStart : ConnEvent :=
  .start ⟨.created, false, true, true, true, true, true⟩ (some ⟨.strncpy (.lit "EZVIZ_1"), true⟩)
    (some ⟨.strncpy (.lit "D1"), .strncpy (.lit "T"), .strncpy (.lit "V")⟩) (some 1)

/-! ## What a handler leaves alone -/

/-- Neither the resources nor what is recorded of them is touched. -/
structure Untouched (s s' : ConnState) : Prop where
  servers : s'.servers = s.servers
  timers : s'.timers = s.timers
  otherTimers : s'.otherTimers = s.otherTimers
  service : s'.timerService = s.timerService
  ap : s'.ap = s.ap
  server : s'.gConnCtx.httpdServer = s.gConnCtx.httpdServer
  timer : s'.gConnCtx.timeOutTimer = s.gConnCtx.timeOutTimer
  callback : s'.gConnCtx.wifiCb = s.gConnCtx.wifiCb

theorem ConfigEnd.flags_untouched (e : ConfigEnd) (s : ConnState) : Untouched s (e.flags s) := by
  rcases e with ret | _ | _ <;> exact ⟨rfl, rfl, rfl, rfl, rfl, rfl, rfl, rfl⟩

theorem finish_untouched {q : HttpReqType} {r : ConfigReq} {s s' : ConnState}
    (h : finish q r s = some s') : Untouched s s' := by
  cases q with
  | devinfo | getList =>
      cases h
      exact ⟨rfl, rfl, rfl, rfl, rfl, rfl, rfl, rfl⟩
  | wifiConfig =>
      obtain ⟨⟨e, w⟩, -, rfl⟩ := Option.map_eq_some_iff.mp h
      obtain ⟨hservers, htimers, hothers, hservice, hap, hserver, htimer, hcallback⟩ :=
        e.flags_untouched { s with gConnCtx := { s.gConnCtx with wifiInfo := w } }
      exact ⟨hservers, htimers, hothers, hservice, hap, hserver, htimer, hcallback⟩

/-! ## What a start does -/

section Start

variable {r : StartResults} {apInfo : Option EzconnApInfo} {devInfo : Option EzconnDevInfo}
  {cb : Option Nat} {s : ConnState}

theorem acquire_frame {a : EzconnApInfo} {d : EzconnDevInfo} :
    (acquire r a d s).2.gExitFlag = s.gExitFlag ∧
      (acquire r a d s).2.gServerBusy = s.gServerBusy ∧
      (acquire r a d s).2.gConnCtx.wifiCb = s.gConnCtx.wifiCb ∧
      (acquire r a d s).2.handler = s.handler := by
  unfold acquire createTimer startHttpd stopHttpd
  grind

theorem ezconnApStart_of_not_exit (h : s.gExitFlag = false) :
    (ezconnApStart r apInfo devInfo cb s).2 = s := by
  unfold ezconnApStart ezconnAdatperInit
  grind

/-- A session that a start has opened has its callback, and the flag is clear. -/
theorem ezconnApStart_opened (h : s.gExitFlag = true)
    (hopen : (ezconnApStart r apInfo devInfo cb s).2.gExitFlag = false) :
    (ezconnApStart r apInfo devInfo cb s).2.gServerBusy = false ∧
      (ezconnApStart r apInfo devInfo cb s).2.gConnCtx.wifiCb ≠ none := by
  unfold ezconnApStart at hopen ⊢
  split at hopen
  next a d c =>
    have hframe := acquire_frame (r := r) (a := a) (d := d)
      (s := { s with
        gConnCtx := { s.gConnCtx with wifiCb := some c }
        gExitFlag := false
        gServerBusy := false })
    unfold ezconnAdatperInit at hopen ⊢
    grind
  next => exact absurd (h.symm.trans hopen) (by decide)

end Start

end EzIot.Conn
