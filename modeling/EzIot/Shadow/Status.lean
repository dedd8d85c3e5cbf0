import EzIot.Lib.Run
import EzIot.Shadow.Report

/-! # The worker thread and its request flags

`shadow_core_event_occured` leaves requests in three flags, and the worker takes
them up in `check_status_update`: it tests them without the lock, serves the
first one it finds and then clears all three. The worker is a program counter
here, so that an event can fall between any two of its steps.
-/

namespace EzIot.Shadow

open CText Nested Run

/-! ## Asking for the desired state -/

/-- What the outside does while one index is visited. -/
structure SyncVisit where
  now : Timespec
  sendOk : Bool
  later : Timespec

/-- `CONFIG_EZIOT_SHADOW_FULL_SYNC_RETRY_MAX`. -/
def syncRetryMax : UInt16 := 3

inductive SyncResult
  | done
  | remaining
  | failed
deriving DecidableEq

/-- The body of the loop of `shadow_proc_sync`. -/
def syncIndex (v : SyncVisit) (x : NodeIndex) : SyncResult × NodeIndex :=
  if x.needSync = false then (.done, x)
  else if x.syncTimer.sec ≠ 0 ∧ timeIsexpired x.syncTimer v.now = false then (.remaining, x)
  else
    let x := { x with syncTimer := if x.syncTimer.sec ≠ 0 then .zero else x.syncTimer,
                      retryCount := x.retryCount + 1 }
    if x.retryCount > syncRetryMax then (.done, { x with retryCount := 0, needSync := false })
    else if v.sendOk then
      (.remaining, { x with syncTimer := timeCountdown (retryInterval * 1000) v.later })
    else (.failed, x)

/-- The locals of `shadow_proc_sync`. -/
structure SyncPass where
  visited : Nat
  totalRemaining : Nat
  failed : Bool

def visitIndex (env : Nat → SyncVisit) (s : SyncPass) (x : NodeIndex) :
    SyncPass × NodeIndex × Bool :=
  match syncIndex (env s.visited) x with
  | (.done, x') => ({ s with visited := s.visited + 1 }, x', false)
  | (.remaining, x') =>
      ({ s with visited := s.visited + 1, totalRemaining := s.totalRemaining + 1 }, x', false)
  | (.failed, x') => ({ s with visited := s.visited + 1, failed := true }, x', true)

/-- A failed query leaves the loop over the indexes of one resource type only. -/
def shadowProcSync (env : Nat → SyncVisit) (g : Modules) : Int × Modules :=
  let onType (s : SyncPass) (t : NodeIndexSet) : SyncPass × NodeIndexSet × Bool :=
    match sweep (visitIndex env) s t.indexLst with
    | (s', l, _) => (s', { t with indexLst := l }, false)
  let onDev (s : SyncPass) (d : NodeDev) : SyncPass × NodeDev × Bool :=
    match sweep onType s d.typeLst with
    | (s', l, _) => (s', { d with typeLst := l }, false)
  match sweep onDev ⟨0, 0, false⟩ g with
  | (s, g', _) => (if s.totalRemaining ≠ 0 then 1 else if s.failed then -1 else 0, g')

/-! ## The worker -/

inductive CoreStatus
  | report
  | sync
  | chg
deriving DecidableEq

inductive EventType
  | reset
  | add
  | online
  | offline
  | report
  | recv
deriving DecidableEq

/-- Where the worker stands in `shadow_core_yeild`, `shadow_proc_do` and
`check_status_update`. -/
inductive Pc
  /-- the head of the loop -/
  | top
  /-- about to test the flags -/
  | check
  /-- took the reset branch -/
  | sawReset
  /-- the reset is complete, the flags are not cleared yet -/
  | didReset
  | sawSync
  | didSync
  | sawReport
  /-- about to run the procedure of the status -/
  | proc
deriving DecidableEq

structure Worker where
  modules : Modules
  drawn : Nat
  needReset : Bool
  needReport : Bool
  needSync : Bool
  isOnline : Bool
  status : CoreStatus
  procResult : Int
  pc : Pc

def Worker.init (g : Modules) : Worker :=
  ⟨g, 0, true, false, false, false, .report, -1, .top⟩

def shadowCoreEventOccured (t : EventType) (s : Worker) : Worker :=
  match t with
  | .reset => { s with needReset := true, isOnline := true }
  | .online => { s with needReport := true, isOnline := true }
  | .add => { s with needReport := true }
  | .offline => { s with needSync := true, isOnline := false }
  | .report => if s.status = .sync then { s with needReport := true } else s
  | .recv => s

/-- What the outside does during one step of the worker. -/
structure WorkerEnv where
  /-- the wait for the semaphore times out -/
  timedOut : Bool
  visits : Nat → Visit
  syncs : Nat → SyncVisit

/-- `shadow_proc_do` after `check_status_update`. -/
def procStatus (own : CString) (env : WorkerEnv) (s : Worker) : Int × Modules × Nat :=
  match s.status with
  | .sync =>
      match shadowProcSync env.syncs s.modules with
      | (rv, g) => (rv, g, s.drawn)
  | .report | .chg =>
      let r := shadowProcReport own env.visits s.drawn s.modules
      (r.rv, r.modules, r.drawn)

/-- A finished procedure moves on to the next status, except in the last one. -/
def nextStatus (ret : Int) (status : CoreStatus) : Int × CoreStatus :=
  if ret = 0 then
    match status with
    | .report => (2, .sync)
    | .sync => (2, .chg)
    | .chg => (0, .chg)
  else (ret, status)

/-- The end of `check_status_update`: the three flags are cleared together. -/
def clearFlags (s : Worker) : Worker :=
  { s with needReset := false, needSync := false, needReport := false, status := .report,
           pc := .proc }

def workerStep (own : CString) (env : WorkerEnv) (s : Worker) : Worker :=
  match s.pc with
  | .top =>
      if s.isOnline = false then s
      else if s.procResult = 0 ∧ env.timedOut then
        { s with modules := shadowStatusReset s.modules, pc := .check }
      else { s with pc := .check }
  | .check =>
      if s.needReset then { s with pc := .sawReset }
      else if s.needSync then { s with pc := .sawSync }
      else if s.needReport then { s with pc := .sawReport }
      else { s with pc := .proc }
  | .sawReset => { s with modules := shadowStatusReset s.modules, pc := .didReset }
  | .sawSync => { s with modules := shadowStatus2sync s.modules, pc := .didSync }
  | .didReset | .didSync | .sawReport => clearFlags s
  | .proc =>
      match procStatus own env s with
      | (ret, g, drawn) =>
          { s with modules := g, drawn := drawn, procResult := (nextStatus ret s.status).1,
                   status := (nextStatus ret s.status).2, pc := .top }

inductive Action
  | event (t : EventType)
  | worker (env : WorkerEnv)

def Action.apply (own : CString) (s : Worker) : Action → Worker
  | .event t => shadowCoreEventOccured t s
  | .worker env => workerStep own env s

/-- The worker blocks on the semaphore only after a report pass of the last
status that returned 0. -/
theorem procResult_zero {own : CString} {env : WorkerEnv} {s : Worker} (hpc : s.pc = .proc)
    (h : (workerStep own env s).procResult = 0) :
    s.status = .chg ∧ (shadowProcReport own env.visits s.drawn s.modules).rv = 0 := by
  simp only [workerStep, hpc, procStatus, nextStatus] at h
  cases hstatus : s.status with
  | report =>
      simp only [hstatus] at h
      split at h
      · simp at h
      · contradiction
  | sync =>
      simp only [hstatus] at h
      split at h
      · simp at h
      · contradiction
  | chg =>
      simp only [hstatus] at h
      split at h
      · exact ⟨rfl, by assumption⟩
      · contradiction

/-! ## Requests over a run -/

section Runs

variable (own : CString) (g : Modules) (run : List Action)

/-- The worker before action `n`. -/
abbrev workerAt (n : Nat) : Worker := stateAt (Action.apply own) (Worker.init g) run n

/-- Action `n` is a complete `shadow_status_reset`. -/
def ResetAt (n : Nat) : Prop :=
  ∃ env, run[n]? = some (.worker env) ∧
    ((workerAt own g run n).pc = .sawReset ∨
      (workerAt own g run n).pc = .top ∧ (workerAt own g run n).isOnline = true ∧
        (workerAt own g run n).procResult = 0 ∧ env.timedOut = true)

def SyncAt (n : Nat) : Prop :=
  ∃ env, run[n]? = some (.worker env) ∧ (workerAt own g run n).pc = .sawSync

/-- Before action `n` something served the events of a type that had occurred. -/
def ServedBefore (serves : Nat → Prop) (t : EventType) (n : Nat) : Prop :=
  ∃ r, r < n ∧ serves r ∧ ∀ e, e < n → run[e]? = some (.event t) → e < r

/-- Whenever a request flag falls, the request was served after the event that
last raised it. -/
structure RequestsServed : Prop where
  reset : ∀ n, n < run.length → (workerAt own g run n).needReset = true →
    (workerAt own g run (n + 1)).needReset = false →
    ServedBefore run (ResetAt own g run) .reset n
  sync : ∀ n, n < run.length → (workerAt own g run n).needSync = true →
    (workerAt own g run (n + 1)).needSync = false →
    ServedBefore run (fun r => SyncAt own g run r ∨ ResetAt own g run r) .offline n

/-- The event does not fall into the window in which its flag has been passed
over, or been served already, and is about to be cleared. -/
def Action.InTime (pc : Pc) : Action → Prop
  | .event .reset => pc ∉ [Pc.didReset, .sawSync, .didSync, .sawReport]
  | .event .offline => pc ∉ [Pc.didReset, .didSync, .sawReport]
  | _ => True

variable {own g run}

theorem ServedBefore.succ {serves : Nat → Prop} {t : EventType} {n : Nat}
    (h : ServedBefore run serves t n) (hne : run[n]? ≠ some (.event t)) :
    ServedBefore run serves t (n + 1) := by
  rcases h with ⟨r, hr, hserves, hlast⟩
  refine ⟨r, by omega, hserves, fun e he hget => ?_⟩
  rcases Nat.lt_or_ge e n with hlt | hge
  · exact hlast e hlt hget
  · have hen : e = n := by omega
    exact absurd (hen ▸ hget) hne

theorem ServedBefore.now {serves : Nat → Prop} {t : EventType} {n : Nat} (h : serves n)
    (hne : run[n]? ≠ some (.event t)) : ServedBefore run serves t (n + 1) := by
  refine ⟨n, Nat.lt_succ_self n, h, fun e he hget => ?_⟩
  rcases Nat.lt_or_ge e n with hlt | hge
  · exact hlt
  · have hen : e = n := by omega
    exact absurd (hen ▸ hget) hne

/-- What is known inside `check_status_update`: a flag that is about to be cleared
is down, or has been served. -/
structure Served (own : CString) (g : Modules) (run : List Action) (n : Nat) (s : Worker) :
    Prop where
  reset : s.pc = .didReset → ServedBefore run (ResetAt own g run) .reset n
  noReset : s.pc ∈ [Pc.sawSync, .didSync, .sawReport] → s.needReset = false
  sync : s.pc ∈ [Pc.didReset, .didSync] →
    ServedBefore run (fun r => SyncAt own g run r ∨ ResetAt own g run r) .offline n
  noSync : s.pc = .sawReport → s.needSync = false

theorem served_event {n : Nat} {t : EventType} (hget : run[n]? = some (.event t))
    (hin : (Action.event t).InTime (workerAt own g run n).pc)
    (h : Served own g run n (workerAt own g run n)) :
    Served own g run (n + 1) (shadowCoreEventOccured t (workerAt own g run n)) := by
  have hpc : (shadowCoreEventOccured t (workerAt own g run n)).pc =
      (workerAt own g run n).pc := by
    cases t <;> simp only [shadowCoreEventOccured]
    split <;> rfl
  have hother : ∀ t', t ≠ t' → run[n]? ≠ some (.event t') := by
    intro t' hne heq
    rw [hget] at heq
    cases heq
    exact hne rfl
  constructor
  · intro hd
    rw [hpc] at hd
    refine (h.reset hd).succ (hother _ ?_)
    rintro rfl
    simp [Action.InTime, hd] at hin
  · intro hd
    rw [hpc] at hd
    have hdown := h.noReset hd
    cases t with
    | reset =>
        simp only [List.mem_cons, List.not_mem_nil, or_false] at hd
        rcases hd with hd | hd | hd <;> simp [Action.InTime, hd] at hin
    | report =>
        simp only [shadowCoreEventOccured]
        split <;> exact hdown
    | add | online | offline | recv => exact hdown
  · intro hd
    rw [hpc] at hd
    refine (h.sync hd).succ (hother _ ?_)
    rintro rfl
    simp only [List.mem_cons, List.not_mem_nil, or_false] at hd
    rcases hd with hd | hd <;> simp [Action.InTime, hd] at hin
  · intro hd
    rw [hpc] at hd
    have hdown := h.noSync hd
    cases t with
    | offline => simp [Action.InTime, hd] at hin
    | report =>
        simp only [shadowCoreEventOccured]
        split <;> exact hdown
    | reset | add | online | recv => exact hdown

theorem served_worker {n : Nat} {env : WorkerEnv} (hget : run[n]? = some (.worker env))
    (h : Served own g run n (workerAt own g run n)) :
    Served own g run (n + 1) (workerStep own env (workerAt own g run n)) := by
  have hother : ∀ t, run[n]? ≠ some (.event t) := by
    intro t heq
    rw [hget] at heq
    cases heq
  unfold workerStep
  cases hpc : (workerAt own g run n).pc with
  | top =>
      dsimp only
      split
      · exact ⟨by simp [hpc], by simp [hpc], by simp [hpc], by simp [hpc]⟩
      · split <;> exact ⟨by simp, by simp, by simp, by simp⟩
  | check =>
      dsimp only
      split
      · exact ⟨by simp, by simp, by simp, by simp⟩
      · rename_i hreset
        split
        · exact ⟨by simp, fun _ => by simpa using hreset, by simp, by simp⟩
        · rename_i hsync
          split
          · exact ⟨by simp, fun _ => by simpa using hreset, by simp,
              fun _ => by simpa using hsync⟩
          · exact ⟨by simp, by simp, by simp, by simp⟩
  | sawReset =>
      have hr : ResetAt own g run n := ⟨env, hget, .inl hpc⟩
      exact ⟨fun _ => .now hr (hother _), by simp, fun _ => .now (.inr hr) (hother _), by simp⟩
  | sawSync =>
      have hs : SyncAt own g run n := ⟨env, hget, hpc⟩
      exact ⟨by simp, fun _ => h.noReset (by simp [hpc]), fun _ => .now (.inl hs) (hother _),
        by simp⟩
  | didReset | didSync | sawReport =>
      exact ⟨by simp [clearFlags], by simp [clearFlags], by simp [clearFlags],
        by simp [clearFlags]⟩
  | proc => exact ⟨by simp, by simp, by simp, by simp⟩

/-- Every event of the run comes in time. -/
def InTimeRun (own : CString) (g : Modules) (run : List Action) : Prop :=
  ∀ (n : Nat) (a : Action), run[n]? = some a → a.InTime (workerAt own g run n).pc

theorem served_workerAt (hin : InTimeRun own g run) {n : Nat} (hn : n ≤ run.length) :
    Served own g run n (workerAt own g run n) := by
  refine stateAt_induction (Action.apply own) (I := Served own g run) ?_ ?_ n hn
  · exact ⟨by simp [Worker.init], by simp [Worker.init], by simp [Worker.init],
      by simp [Worker.init]⟩
  · intro m a hget h
    cases a with
    | event t => exact served_event hget (hin m _ hget) h
    | worker env => exact served_worker hget h

/-- Events only raise flags, and the worker lowers them in one place. -/
theorem flag_falls {s : Worker} {a : Action}
    (h : s.needReset = true ∧ (a.apply own s).needReset = false ∨
      s.needSync = true ∧ (a.apply own s).needSync = false) :
    s.pc ∈ [Pc.didReset, .didSync, .sawReport] := by
  cases a with
  | event t =>
      cases t with
      | report =>
          simp only [Action.apply, shadowCoreEventOccured] at h
          split at h <;> simp_all
      | reset | add | online | offline | recv =>
          simp_all [Action.apply, shadowCoreEventOccured]
  | worker env =>
      simp only [Action.apply, workerStep] at h
      cases hpc : s.pc with
      | didReset | didSync | sawReport => simp
      | top =>
          simp only [hpc] at h
          split at h
          · simp_all
          · split at h <;> simp_all
      | check =>
          simp only [hpc] at h
          split at h
          · simp_all
          · split at h
            · simp_all
            · split at h <;> simp_all
      | sawReset | sawSync | proc =>
          simp only [hpc] at h
          simp_all

/-- No request is lost in a run whose reset and offline events keep out of the
window between the worker's choice and its clearing of the flags. -/
theorem requests_served_in_time (own : CString) (g : Modules) (run : List Action)
    (hin : InTimeRun own g run) : RequestsServed own g run where
  reset := by
    intro n hn hup hdown
    have hserved := served_workerAt hin hn.le
    have hget : run[n]? = some run[n] := List.getElem?_eq_getElem hn
    rw [workerAt, stateAt_succ _ hget] at hdown
    have hpc := flag_falls (.inl ⟨hup, hdown⟩)
    simp only [List.mem_cons, List.not_mem_nil, or_false] at hpc
    rcases hpc with hpc | hpc | hpc
    · exact hserved.reset hpc
    · rw [hserved.noReset (by simp [hpc])] at hup
      contradiction
    · rw [hserved.noReset (by simp [hpc])] at hup
      contradiction
  sync := by
    intro n hn hup hdown
    have hserved := served_workerAt hin hn.le
    have hget : run[n]? = some run[n] := List.getElem?_eq_getElem hn
    rw [workerAt, stateAt_succ _ hget] at hdown
    have hpc := flag_falls (.inr ⟨hup, hdown⟩)
    simp only [List.mem_cons, List.not_mem_nil, or_false] at hpc
    rcases hpc with hpc | hpc | hpc
    · exact hserved.sync (by simp [hpc])
    · exact hserved.sync (by simp [hpc])
    · rw [hserved.noSync hpc] at hup
      contradiction

end Runs

/-! ### A request that is served, and a lost one -/

def sampleEnv : WorkerEnv := ⟨false, fun _ => sampleVisit, fun _ => ⟨⟨100, 0⟩, true, ⟨100, 0⟩⟩⟩

/-- Go online, and ask for a reset while the worker is about to test the flags. -/
def servedRun : List Action :=
  [.event .online, .worker sampleEnv, .event .reset, .worker sampleEnv, .worker sampleEnv,
    .worker sampleEnv]

theorem servedRun_served : RequestsServed (.lit "OWN") [] servedRun :=
  requests_served_in_time _ _ _ (by
    intro n a hget
    match n with
    | 0 | 1 | 3 | 4 | 5 =>
        cases hget
        trivial
    | 2 =>
        cases hget
        change (workerAt (.lit "OWN") [] servedRun 2).pc ∉ _
        decide
    | _ + 6 => cases hget)

/-- Ask for a reset after the reset of the start is complete and before the flags
are cleared: the request is cleared with the flags. -/
def lostRun : List Action :=
  [.event .online, .worker sampleEnv, .worker sampleEnv, .worker sampleEnv, .event .reset,
    .worker sampleEnv]

theorem lostRun_not_served : ¬ RequestsServed (.lit "OWN") [] lostRun := by
  intro h
  rcases h.reset 5 (by decide) (by decide) (by decide) with ⟨r, hr, -, hlast⟩
  have hevent := hlast 4 (by decide) rfl
  omega

end EzIot.Shadow
