import EzIot.Conn.Busy
import EzIot.Timer.Service

/-! # The resources of provisioning

A session holds an HTTP server, a timer and the access point. What a start has taken is
found again through `g_conn_ctx` only.
-/

namespace EzIot.Conn

open CText CJson Run

/-- The only server and the only timer are those in `g_conn_ctx`, and the service of the timers
is sound. -/
structure Recorded (s : ConnState) : Prop where
  server : s.servers = s.gConnCtx.httpdServer.toList
  timer : s.timers = [] ∨ s.timers = [s.gConnCtx.timeOutTimer]
  service : s.timerService ≠ .broken

structure SameResources (s s' : ConnState) : Prop where
  servers : s'.servers = s.servers
  timers : s'.timers = s.timers
  otherTimers : s'.otherTimers = s.otherTimers
  ap : s'.ap = s.ap

/-- A start that fails leaves the resources as they were. -/
def FailsClean (s : ConnState) : ConnEvent → Prop
  | .start r apInfo devInfo cb =>
      (ezconnApStart r apInfo devInfo cb s).1 ≠ .succ →
        SameResources s (ezconnApStart r apInfo devInfo cb s).2
  | _ => True

/-- The HTTP server starts with its three handlers. -/
def StartResults.serves (r : StartResults) : Prop :=
  r.httpd = true ∧ r.getDevInfo = true ∧ r.getAccessPoint = true ∧ r.putWifiConfig = true

/-- The timer of a start can be created. -/
def StartResults.timed (r : StartResults) (s : ConnState) : Prop :=
  (s.timerService.create r.timer).1 = true

/-- A start finds no server, and once the access point is open the server starts. Without a
timer of its own it leaves the service as it is: the service has its thread, and not exactly
one timer of another module, which would be taken for the one that is deleted. A timer that is
given back as the only one does not find the thread waiting. -/
def StartClean (r : StartResults) (apInfo : EzconnApInfo) (s : ConnState) : Prop :=
  s.servers = [] ∧
    (r.timed s → apInfo.apSsid.length ≠ 0 → r.ap = true → r.serves) ∧
    (s.timerService = .stopped → r.timer ≠ .noThread) ∧
    (s.timerService = .running → r.timer = .noMemory → s.otherTimers ≠ 1) ∧
    (r.timed s → apInfo.apSsid.length = 0 ∨ r.ap = false → s.otherTimers = 0 → r.waits = false)

/-- Where exactly one timer is live, it is the one that is deleted, and its thread does not
wait. -/
def DeletesLast (waits : Bool) (named : Prop) (s : ConnState) : Prop :=
  s.timerService = .running → s.liveTimers = 1 → named ∧ waits = false

/-- What an event has to meet: a start that goes past its checks, and each deletion of a
timer. -/
def Orderly (s : ConnState) : ConnEvent → Prop
  | .start r (some apInfo) (some devInfo) (some _) =>
      s.gExitFlag = true → devInfo.devSerial.length ≠ 0 → StartClean r apInfo s
  | .stop waits => DeletesLast waits (s.gConnCtx.timeOutTimer ∈ s.timers) s
  | .otherCreated r => s.timerService = .stopped → r ≠ .noThread
  | .otherDeleted waits live => DeletesLast waits (live = true) s
  | _ => True

section Decidable

variable (s : ConnState)

instance (r : StartResults) : Decidable (r.timed s) := inferInstanceAs (Decidable (_ = true))

instance (r : StartResults) : Decidable r.serves := inferInstanceAs (Decidable (_ ∧ _))

instance (r : StartResults) (a : EzconnApInfo) : Decidable (StartClean r a s) :=
  inferInstanceAs (Decidable (_ ∧ _))

instance (waits : Bool) (named : Prop) [Decidable named] : Decidable (DeletesLast waits named s) :=
  inferInstanceAs (Decidable (_ → _))

instance : (e : ConnEvent) → Decidable (Orderly s e)
  | .start r (some a) (some d) (some _) =>
      inferInstanceAs (Decidable (s.gExitFlag = true → d.devSerial.length ≠ 0 → StartClean r a s))
  | .start _ none _ _ | .start _ (some _) none _ | .start _ (some _) (some _) none => .isTrue trivial
  | .stop waits => inferInstanceAs (Decidable (DeletesLast waits _ s))
  | .otherCreated _ => inferInstanceAs (Decidable (_ → _))
  | .otherDeleted waits _ => inferInstanceAs (Decidable (DeletesLast waits _ s))
  | .request _ | .test | .wake | .finish _ | .timeOut _ | .otherExpired => .isTrue trivial

end Decidable

/-- Without its service there is no timer. -/
def Emptied (s : ConnState) : Prop :=
  s.timerService = .stopped → s.timers = [] ∧ s.otherTimers = 0

/-- Without a server there is no provisioning timer and no access point. -/
structure Held (s : ConnState) : Prop where
  recorded : Recorded s
  timers : s.servers = [] → s.timers = []
  ap : s.servers = [] → s.ap = false
  stopped : Emptied s

/-! ## The service of the timers -/

section Refinement

open Timer

/-- The provisioning sees of the timers which are its own and how many there are. -/
structure Sees (v : Service) (s : ConnState) : Prop where
  running : s.timerService = .running → v.Running
  stopped : s.timerService = .stopped → v.Stopped
  own : ∀ id ∈ s.timers, v.live id = true
  distinct : s.timers.Nodup
  length : v.list.nodes.length = s.liveTimers

theorem Sees.not_mem_of_dead {v : Service} {s : ConnState} (h : Sees v s) {id : Int}
    (hdead : v.live id = false) : id ∉ s.timers := by
  intro hmem
  rw [h.own id hmem] at hdead
  cases hdead

/-- The service loses the timer that the provisioning loses. -/
theorem Sees.length_delete {v : Service} {s : ConnState} (h : Sees v s) {id : Int}
    (hid : id ∈ s.timers ∨ v.live id = false) :
    (v.list.onId id TimerList.eztimerDelete).nodes.length =
      (s.timers.erase id).length + s.otherTimers := by
  have hlength := h.length
  rw [ConnState.liveTimers] at hlength
  rcases hid with hmem | hdead
  · obtain ⟨x, hx, hxid⟩ := Service.exists_of_live (h.own id hmem)
    have hpos := List.length_pos_of_mem hmem
    rw [length_onId_delete hx hxid, List.length_erase_of_mem hmem]
    omega
  · rw [onId_delete_unknown (Service.live_false hdead),
      List.erase_of_not_mem (h.not_mem_of_dead hdead)]
    exact hlength

/-- A deletion that leaves the service sound here is one that returns there, of a timer of the
provisioning or of none. -/
theorem Sees.deleteTimer {v : Service} {s : ConnState} (h : Sees v s) {joins waits : Bool}
    {id : Int} {between : List ThreadMove}
    (hwaits : waits = true ↔ joins = true ∧ v.thread.after between = .entered)
    (hid : id ∈ s.timers ∨ v.live id = false)
    (hsound : (deleteTimer waits id s).timerService ≠ .broken) :
    ∃ rv v', v.eztimerDelete joins id between = some (rv, v') ∧
      Sees v' (deleteTimer waits id s) := by
  unfold Conn.deleteTimer leaveTimers at hsound ⊢
  cases hs : s.timerService with
  | broken => simp [hs] at hsound
  | stopped =>
      refine ⟨-1, v, if_pos (h.stopped hs).invalid, ?_⟩
      simpa [hs] using h
  | running =>
      have hrun := h.running hs
      have hlength := h.length
      simp only [hs, if_true] at hsound ⊢
      by_cases hone : s.liveTimers = 1
      · -- the only timer is the one that is deleted, and the service stops
        simp only [hone, if_true] at hsound ⊢
        split at hsound
        next hleft =>
          obtain ⟨hnone, hfree⟩ := hleft
          obtain ⟨htimers, hothers⟩ := Nat.add_eq_zero_iff.mp hnone
          have hlive : v.live id = true := by
            refine hid.elim (h.own id) fun hdead => ?_
            rw [List.erase_of_not_mem (h.not_mem_of_dead hdead)] at htimers
            rw [ConnState.liveTimers, htimers, hothers] at hone
            cases hone
          have hdelete : v.eztimerDelete joins id between = _ :=
            Service.delete_last hrun (hlength.trans hone) hlive
          rw [if_neg fun hstuck => by simp [hwaits.mpr hstuck] at hfree] at hdelete
          refine ⟨_, _, hdelete, ?_⟩
          have hnil := List.length_eq_zero_iff.mp htimers
          rw [if_pos ⟨hnone, hfree⟩]
          refine ⟨nofun, fun _ => ⟨rfl, rfl, rfl, rfl⟩, ?_, ?_, ?_⟩
          · simp [hnil]
          · simp [hnil]
          · exact hnone.symm
        next => exact absurd rfl hsound
      · have hdelete : v.eztimerDelete joins id between = _ := Service.eztimerDelete_running hrun
        rw [if_neg (hlength ▸ hone)] at hdelete
        refine ⟨_, _, hdelete, ?_⟩
        rw [if_neg hone]
        refine ⟨fun _ => hrun.withList _, nofun, fun j hj => ?_, h.distinct.erase _,
          h.length_delete hid⟩
        obtain ⟨hne, hmem⟩ := h.distinct.mem_erase_iff.mp hj
        obtain ⟨x, hx, hxj⟩ := Service.exists_of_live (h.own j hmem)
        exact List.any_eq_true.mpr ⟨x, mem_onId_delete hx (hxj ▸ hne), by simpa using hxj⟩

end Refinement

section Service

variable {s : ConnState} {t : TimerService} {r : TimerResult} {waits : Bool} {id : Int}

theorem create_created_iff : (t.create r).1 = true ↔
    t = .stopped ∧ r = .created ∨ t = .running ∧ r ≠ .noMemory := by
  cases t <;> cases r <;> decide

/-- A timer that is created runs with its service. -/
theorem create_of_created (h : (t.create r).1 = true) : (t.create r).2 = .running := by
  revert h
  cases t <;> cases r <;> decide

/-- Without a timer the service is sound as before, or it lacks its thread. -/
theorem create_broken_iff (h : t ≠ .broken) :
    (t.create r).2 = .broken ↔ t = .stopped ∧ r = .noThread := by
  revert h
  cases t <;> cases r <;> decide

/-- The service outlasts a deletion unless it is stopped under a timer or under its thread. -/
theorem leaveTimers_sound_iff {timers : List Int} {others : Nat} :
    (leaveTimers waits timers others s).timerService ≠ .broken ↔ s.timerService ≠ .broken ∧
      (s.timerService = .running → s.liveTimers = 1 →
        timers.length + others = 0 ∧ waits = false) := by
  unfold leaveTimers
  by_cases hrun : s.timerService = .running
  · by_cases hone : s.liveTimers = 1
    · by_cases hleft : timers.length + others = 0 ∧ waits = false
      · simp [hrun, hone, hleft]
      · simp only [hrun, hone, hleft]
        simp
    · simp [hrun, hone]
  · simp [hrun]

/-- There is nothing to delete, and the only timer of another module is taken for it. -/
theorem deleteTimer_nil_sound_iff (h : s.timers = []) :
    (deleteTimer waits id s).timerService ≠ .broken ↔
      s.timerService ≠ .broken ∧ (s.timerService = .running → s.otherTimers ≠ 1) := by
  unfold deleteTimer
  rw [leaveTimers_sound_iff, ConnState.liveTimers, h]
  simp only [List.erase_nil, List.length_nil]
  grind

theorem deleteTimer_nil_timers (h : s.timers = []) : (deleteTimer waits id s).timers = [] := by
  unfold deleteTimer leaveTimers
  split
  · rw [h]
    rfl
  · exact h

theorem deleteTimer_of_singleton (h : s.timers = [id]) (hrun : s.timerService = .running) :
    deleteTimer waits id s = { s with
      timers := []
      timerService :=
        if s.otherTimers = 0 then if waits = false then .stopped else .broken else .running } := by
  by_cases hnone : s.otherTimers = 0
  · simp [deleteTimer, leaveTimers, ConnState.liveTimers, h, hrun, hnone]
  · simp [deleteTimer, leaveTimers, ConnState.liveTimers, h, hrun, hnone]

theorem Emptied.leaveTimers (h : Emptied s) (timers : List Int) (others : Nat) :
    Emptied (leaveTimers waits timers others s) := by
  unfold Conn.leaveTimers
  split
  · intro hstopped
    simp only at hstopped
    split at hstopped
    · split at hstopped
      · rename_i hleft
        obtain ⟨htimers, hothers⟩ := Nat.add_eq_zero_iff.mp hleft.1
        exact ⟨List.length_eq_zero_iff.mp htimers, hothers⟩
      · cases hstopped
    · cases hstopped
  · exact h

theorem create_stopped (h : (t.create r).2 = .stopped) : t = .stopped ∧ (t.create r).1 = false := by
  revert h
  cases t <;> cases r <;> decide

@[simp] theorem deleteTimer_servers (waits : Bool) (id : Int) (s : ConnState) :
    (deleteTimer waits id s).servers = s.servers := by
  unfold deleteTimer leaveTimers
  split <;> rfl

@[simp] theorem deleteTimer_otherTimers (waits : Bool) (id : Int) (s : ConnState) :
    (deleteTimer waits id s).otherTimers = s.otherTimers := by
  unfold deleteTimer leaveTimers
  split <;> rfl

@[simp] theorem deleteTimer_ap (waits : Bool) (id : Int) (s : ConnState) :
    (deleteTimer waits id s).ap = s.ap := by
  unfold deleteTimer leaveTimers
  split <;> rfl

end Service

section Start

variable {r : StartResults} {a : EzconnApInfo} {d : EzconnDevInfo} {c : Nat} {s : ConnState}

theorem startHttpd_of_serves (h : r.serves) : startHttpd r s =
    (some (s.lastServer + 1),
      { s with servers := s.servers ++ [s.lastServer + 1], lastServer := s.lastServer + 1 }) := by
  obtain ⟨hhttpd, hdev, hpoint, hwifi⟩ := h
  simp [startHttpd, hhttpd, hdev, hpoint, hwifi]

theorem startHttpd_of_not_serves (h : ¬ r.serves) :
    (startHttpd r s).1 = none ∧ (startHttpd r s).2.ap = s.ap := by
  unfold startHttpd stopHttpd
  grind [StartResults.serves]

/-- What a timer leaves that cannot be created. -/
def withoutTimer (r : StartResults) (s : ConnState) : ConnState :=
  { s with
    timerService := (s.timerService.create r.timer).2
    gConnCtx := { s.gConnCtx with timeOutTimer := -1 } }

theorem createTimer_of_not_timed (h : ¬ r.timed s) : createTimer r s = withoutTimer r s := by
  have hnot : (s.timerService.create r.timer).1 = false := by simpa [StartResults.timed] using h
  simp [createTimer, withoutTimer, hnot]

/-- Without its timer a start asks for nothing more. -/
theorem acquire_of_not_timed (h : ¬ r.timed s) :
    acquire r a d s = (.internal, withoutTimer r s) := by
  unfold acquire
  rw [createTimer_of_not_timed h]
  rfl

section Timed

variable (htimed : r.timed s)

include htimed

theorem createTimer_of_timed : createTimer r s = { s with
    timers := s.timers ++ [((s.lastTimer + 1 : Nat) : Int)]
    lastTimer := s.lastTimer + 1
    timerService := .running
    gConnCtx := { s.gConnCtx with timeOutTimer := (s.lastTimer + 1 : Nat) } } := by
  have hcreate : (s.timerService.create r.timer).1 = true := htimed
  simp [createTimer, hcreate, create_of_created hcreate]

/-- Without a name or the access point only the timer is held. -/
theorem acquire_of_refused (h : a.apSsid.length = 0 ∨ r.ap = false) :
    (acquire r a d s).1 ≠ .succ ∧ (acquire r a d s).2.servers = s.servers ∧
      (acquire r a d s).2.ap = s.ap ∧ (acquire r a d s).2.otherTimers = s.otherTimers ∧
      (acquire r a d s).2.timers = s.timers ++ [(acquire r a d s).2.gConnCtx.timeOutTimer] ∧
      (acquire r a d s).2.timerService = .running := by
  have hpos : ¬ (s.lastTimer : Int) + 1 ≤ 0 := by omega
  by_cases hssid : a.apSsid.length = 0
  · simp [acquire, createTimer_of_timed htimed, hpos, hssid]
  · have hap : r.ap = false := h.resolve_left hssid
    simp [acquire, createTimer_of_timed htimed, hpos, hssid, hap]

variable (hssid : a.apSsid.length ≠ 0) (hap : r.ap = true)

include hssid hap

theorem acquire_of_not_serves (h : ¬ r.serves) :
    (acquire r a d s).1 ≠ .succ ∧ (acquire r a d s).2.ap = true := by
  have hpos : ¬ (s.lastTimer : Int) + 1 ≤ 0 := by omega
  simp [acquire, createTimer_of_timed htimed, hpos, hssid, hap, startHttpd_of_not_serves h]

theorem acquire_of_serves (h : r.serves) :
    (acquire r a d s).1 = .succ ∧ (acquire r a d s).2.servers = s.servers ++ [s.lastServer + 1] ∧
      (acquire r a d s).2.gConnCtx.httpdServer = some (s.lastServer + 1) ∧
      (acquire r a d s).2.timers = s.timers ++ [(acquire r a d s).2.gConnCtx.timeOutTimer] ∧
      (acquire r a d s).2.timerService = .running := by
  have hpos : ¬ (s.lastTimer : Int) + 1 ≤ 0 := by omega
  simp [acquire, createTimer_of_timed htimed, hpos, hssid, hap, startHttpd_of_serves h]

end Timed

theorem Emptied.acquire (h : Emptied s) : Emptied (acquire r a d s).2 := by
  have hcreate : Emptied (createTimer r s) := by
    by_cases htimed : r.timed s
    · rw [createTimer_of_timed htimed]
      intro hstopped
      cases hstopped
    · rw [createTimer_of_not_timed htimed]
      exact fun hstopped => h (create_stopped hstopped).1
  unfold Conn.acquire startHttpd stopHttpd
  unfold Emptied at hcreate ⊢
  grind

theorem Emptied.start {apInfo : Option EzconnApInfo} {devInfo : Option EzconnDevInfo}
    {cb : Option Nat} (h : Emptied s) : Emptied (ezconnApStart r apInfo devInfo cb s).2 := by
  unfold ezconnApStart
  split
  · unfold ezconnAdatperInit
    split
    · exact h
    · split
      · exact h
      · rename_i a d c _ _
        have hacquire : Emptied (Conn.acquire r a d { s with
            gConnCtx := { s.gConnCtx with wifiCb := some c }
            gExitFlag := false
            gServerBusy := false }).2 := Emptied.acquire h
        dsimp only
        split
        · exact hacquire.leaveTimers _ _
        · exact hacquire
  · exact h

theorem ezconnApStart_refused (h : s.gExitFlag = true → d.devSerial.length = 0) :
    (ezconnApStart r (some a) (some d) (some c) s).1 ≠ .succ ∧
      ∃ cb, (ezconnApStart r (some a) (some d) (some c) s).2 =
        { s with gConnCtx := { s.gConnCtx with wifiCb := cb } } := by
  by_cases hexit : s.gExitFlag = true
  · refine ⟨by simp [ezconnApStart, ezconnAdatperInit, hexit, h hexit], some c, ?_⟩
    simp [ezconnApStart, ezconnAdatperInit, hexit, h hexit]
  · rw [Bool.not_eq_true] at hexit
    refine ⟨by simp [ezconnApStart, ezconnAdatperInit, hexit], s.gConnCtx.wifiCb, ?_⟩
    rw [ezconnApStart_of_not_exit hexit]

/-- The state in which a start asks for the resources. -/
def enterSession (c : Nat) (s : ConnState) : ConnState :=
  { s with gConnCtx := { s.gConnCtx with wifiCb := some c }, gExitFlag := false, gServerBusy := false }

/-- A start that gives up before the server asks of the service only that its timer can be
given back. -/
theorem startClean_refused_iff (htimed : r.timed s)
    (hrefused : a.apSsid.length = 0 ∨ r.ap = false) :
    StartClean r a s ↔ s.servers = [] ∧ (s.otherTimers = 0 → r.waits = false) := by
  have hcreated := create_created_iff.mp htimed
  unfold StartClean
  constructor
  · exact fun hclean => ⟨hclean.1, hclean.2.2.2.2 htimed hrefused⟩
  · refine fun hclean => ⟨hclean.1, fun _ hssid hap => ?_, ?_, ?_, fun _ _ => hclean.2⟩
    · simp [hssid, hap] at hrefused
    · grind
    · grind

theorem startClean_untimed_iff (htimed : ¬ r.timed s) :
    StartClean r a s ↔
      s.servers = [] ∧ (s.timerService = .stopped → r.timer ≠ .noThread) ∧
        (s.timerService = .running → s.otherTimers ≠ 1) := by
  have hmemory : s.timerService = .running → r.timer = .noMemory := by
    intro hrun
    by_contra hsome
    exact htimed (create_created_iff.mpr (.inr ⟨hrun, hsome⟩))
  unfold StartClean
  constructor
  · exact fun hclean => ⟨hclean.1, hclean.2.2.1,
      fun hrun => hclean.2.2.2.1 hrun (hmemory hrun)⟩
  · exact fun hclean => ⟨hclean.1, fun ht => absurd ht htimed, hclean.2.1,
      fun hrun _ => hclean.2.2 hrun, fun ht => absurd ht htimed⟩

section Admitted

variable (hexit : s.gExitFlag = true) (hserial : d.devSerial.length ≠ 0)

include hexit hserial

theorem ezconnApStart_of_acquire_succ (h : (acquire r a d (enterSession c s)).1 = .succ) :
    ezconnApStart r (some a) (some d) (some c) s = acquire r a d (enterSession c s) := by
  unfold enterSession at h ⊢
  simp [ezconnApStart, ezconnAdatperInit, hexit, hserial, h]

/-- After a failure nothing is recorded, and the only thing given back is the timer. -/
theorem ezconnApStart_of_acquire_fail (h : (acquire r a d (enterSession c s)).1 ≠ .succ) :
    (ezconnApStart r (some a) (some d) (some c) s).1 ≠ .succ ∧
      (ezconnApStart r (some a) (some d) (some c) s).2 =
        { deleteTimer r.waits (acquire r a d (enterSession c s)).2.gConnCtx.timeOutTimer
            (acquire r a d (enterSession c s)).2 with gExitFlag := true, gConnCtx := .zero } := by
  unfold enterSession at h ⊢
  simp [ezconnApStart, ezconnAdatperInit, hexit, hserial, h]

theorem admitted_served_iff (h : Held s) (htimed : r.timed s) (hssid : a.apSsid.length ≠ 0)
    (hap : r.ap = true) (hserves : r.serves) :
    (Recorded (ezconnApStart r (some a) (some d) (some c) s).2 ∧
        FailsClean s (.start r (some a) (some d) (some c))) ↔ StartClean r a s := by
  obtain ⟨hsucc, hservers, hserver, htimers, hservice⟩ :=
    acquire_of_serves (d := d) (s := enterSession c s) htimed hssid hap hserves
  have hcreated := create_created_iff.mp htimed
  rw [FailsClean, ezconnApStart_of_acquire_succ hexit hserial hsucc]
  constructor
  · intro hkept
    have hrecorded := hkept.1.1
    rw [hservers, hserver] at hrecorded
    refine ⟨List.append_left_eq_self.mp hrecorded, fun _ _ _ => hserves, ?_, ?_, ?_⟩
    · grind
    · grind
    · intro _ hrefused
      simp [hssid, hap] at hrefused
  · intro hclean
    refine ⟨⟨?_, .inr ?_, ?_⟩, fun hne => absurd hsucc hne⟩
    · rw [hservers, hserver]
      exact congrArg (· ++ [_]) hclean.1
    · rw [htimers]
      exact congrArg (· ++ [_]) (h.timers hclean.1)
    · rw [hservice]
      decide

/-- A server that does not start leaves what the session does not know. -/
theorem admitted_unserved (h : Held s) (htimed : r.timed s) (hssid : a.apSsid.length ≠ 0)
    (hap : r.ap = true) (hserves : ¬ r.serves) :
    ¬ (Recorded (ezconnApStart r (some a) (some d) (some c) s).2 ∧
        FailsClean s (.start r (some a) (some d) (some c))) := by
  obtain ⟨hfail, hleft⟩ :=
    acquire_of_not_serves (d := d) (s := enterSession c s) htimed hssid hap hserves
  obtain ⟨hne, hstart⟩ := ezconnApStart_of_acquire_fail hexit hserial hfail
  rintro ⟨⟨hserver, -, -⟩, hclean⟩
  have hsame := hclean hne
  have hnil : s.servers = [] := by
    rw [← hsame.servers, hserver, hstart]
    rfl
  have hoff := h.ap hnil
  rw [← hsame.ap, hstart] at hoff
  simp only [deleteTimer_ap] at hoff
  exact absurd (hleft.symm.trans hoff) (by decide)

theorem admitted_refused_iff (h : Held s) (htimed : r.timed s)
    (hrefused : a.apSsid.length = 0 ∨ r.ap = false) :
    (Recorded (ezconnApStart r (some a) (some d) (some c) s).2 ∧
        FailsClean s (.start r (some a) (some d) (some c))) ↔ StartClean r a s := by
  obtain ⟨hfail, hservers, hap, hothers, htimers, hservice⟩ :=
    acquire_of_refused (d := d) (s := enterSession c s) htimed hrefused
  obtain ⟨hne, hstart⟩ := ezconnApStart_of_acquire_fail hexit hserial hfail
  rw [startClean_refused_iff htimed hrefused, FailsClean, hstart]
  by_cases hnil : s.servers = []
  · have hone : (acquire r a d (enterSession c s)).2.timers =
        [(acquire r a d (enterSession c s)).2.gConnCtx.timeOutTimer] := by
      rw [htimers]
      exact congrArg (· ++ [_]) (h.timers hnil)
    rw [deleteTimer_of_singleton hone hservice, hothers]
    constructor
    · intro hkept
      refine ⟨hnil, fun hnone => ?_⟩
      have hsound := hkept.1.service
      by_contra hwaits
      exact hsound (by simp [show (enterSession c s).otherTimers = 0 from hnone, hwaits])
    · intro hwaits
      refine ⟨⟨hservers.trans hnil, .inl rfl, ?_⟩, fun _ => ⟨hservers, ?_, rfl, hap⟩⟩
      · have hfree : (enterSession c s).otherTimers = 0 → r.waits = false := hwaits.2
        show (if (enterSession c s).otherTimers = 0 then
          if r.waits = false then TimerService.stopped else .broken else .running) ≠ .broken
        grind
      · exact (h.timers hnil).symm
  · refine iff_of_false ?_ fun hclean => hnil hclean.1
    rintro ⟨⟨hserver, -, -⟩, -⟩
    simp only [deleteTimer_servers, hservers] at hserver
    exact hnil hserver

theorem admitted_untimed_iff (h : Held s) (htimed : ¬ r.timed s) :
    (Recorded (ezconnApStart r (some a) (some d) (some c) s).2 ∧
        FailsClean s (.start r (some a) (some d) (some c))) ↔ StartClean r a s := by
  have hacquire := acquire_of_not_timed (a := a) (d := d) (s := enterSession c s) htimed
  have hfail : (acquire r a d (enterSession c s)).1 ≠ .succ := by
    rw [hacquire]
    exact fun heq => EzconnErrno.noConfusion heq
  obtain ⟨hne, hstart⟩ := ezconnApStart_of_acquire_fail hexit hserial hfail
  rw [hacquire] at hstart
  rw [startClean_untimed_iff htimed, FailsClean, hstart]
  by_cases hnil : s.servers = []
  · have htimers : (withoutTimer r (enterSession c s)).timers = [] := h.timers hnil
    have hcreate : (s.timerService.create r.timer).2 ≠ .broken ∧
        ((s.timerService.create r.timer).2 = .running → s.otherTimers ≠ 1) ↔
          (s.timerService = .stopped → r.timer ≠ .noThread) ∧
            (s.timerService = .running → s.otherTimers ≠ 1) := by
      have hstopped := h.stopped
      have hservice := h.recorded.service
      cases hs : s.timerService with
      | stopped => cases ht : r.timer <;> simp [TimerService.create, hstopped hs]
      | running => simp [TimerService.create]
      | broken => exact absurd hs hservice
    constructor
    · intro hkept
      have hsound := (deleteTimer_nil_sound_iff htimers).mp hkept.1.service
      exact ⟨hnil, hcreate.mp hsound⟩
    · intro hclean
      have hsound := hcreate.mpr hclean.2
      refine ⟨⟨?_, .inl (deleteTimer_nil_timers htimers),
        (deleteTimer_nil_sound_iff htimers).mpr hsound⟩, fun _ => ⟨?_, ?_, ?_, ?_⟩⟩
      · exact (deleteTimer_servers _ _ _).trans hnil
      · exact deleteTimer_servers _ _ _
      · exact (deleteTimer_nil_timers htimers).trans (h.timers hnil).symm
      · exact deleteTimer_otherTimers _ _ _
      · exact deleteTimer_ap _ _ _
  · refine iff_of_false ?_ fun hclean => hnil hclean.1
    rintro ⟨⟨hserver, -, -⟩, -⟩
    simp only [deleteTimer_servers] at hserver
    exact hnil hserver

/-- A start that goes past its checks keeps the resources in order exactly if it is clean. -/
theorem admitted_start_iff (h : Held s) :
    (Recorded (ezconnApStart r (some a) (some d) (some c) s).2 ∧
        FailsClean s (.start r (some a) (some d) (some c))) ↔ StartClean r a s := by
  by_cases htimed : r.timed s
  · by_cases hrefused : a.apSsid.length = 0 ∨ r.ap = false
    · exact admitted_refused_iff hexit hserial h htimed hrefused
    · have hopen : a.apSsid.length ≠ 0 ∧ r.ap = true := by simpa using hrefused
      by_cases hserves : r.serves
      · exact admitted_served_iff hexit hserial h htimed hopen.1 hopen.2 hserves
      · exact iff_of_false (admitted_unserved hexit hserial h htimed hopen.1 hopen.2 hserves)
          fun hclean => hserves (hclean.2.1 htimed hopen.1 hopen.2)
  · exact admitted_untimed_iff hexit hserial h htimed

end Admitted

theorem ezconnApStart_succ_server (h : (ezconnApStart r (some a) (some d) (some c) s).1 = .succ) :
    (ezconnApStart r (some a) (some d) (some c) s).2.gConnCtx.httpdServer ≠ none := by
  by_cases henter : s.gExitFlag = true → d.devSerial.length = 0
  · exact absurd h (ezconnApStart_refused henter).1
  · obtain ⟨hexit, hserial⟩ := Classical.not_imp.mp henter
    by_cases hacquire : (acquire r a d (enterSession c s)).1 = .succ
    · rw [ezconnApStart_of_acquire_succ hexit hserial hacquire]
      by_cases htimed : r.timed (enterSession c s)
      · by_cases hrefused : a.apSsid.length = 0 ∨ r.ap = false
        · exact absurd hacquire (acquire_of_refused htimed hrefused).1
        · have hopen : a.apSsid.length ≠ 0 ∧ r.ap = true := by simpa using hrefused
          by_cases hserves : r.serves
          · rw [(acquire_of_serves htimed hopen.1 hopen.2 hserves).2.2.1]
            exact Option.some_ne_none _
          · exact absurd hacquire (acquire_of_not_serves htimed hopen.1 hopen.2 hserves).1
      · rw [acquire_of_not_timed htimed] at hacquire
        cases hacquire
    · exact absurd h (ezconnApStart_of_acquire_fail hexit hserial hacquire).1

end Start

section Step

variable {s s' : ConnState} {e : ConnEvent}

theorem Recorded.untouched (h : Recorded s) (hsame : Untouched s s') : Recorded s' := by
  refine ⟨?_, ?_, ?_⟩
  · rw [hsame.servers, hsame.server]
    exact h.server
  · rw [hsame.timers, hsame.timer]
    exact h.timer
  · rw [hsame.service]
    exact h.service

theorem Held.untouched (h : Held s) (hsame : Untouched s s') : Held s' := by
  refine ⟨h.recorded.untouched hsame, ?_, ?_, ?_⟩
  · rw [hsame.servers, hsame.timers]
    exact h.timers
  · rw [hsame.servers, hsame.ap]
    exact h.ap
  · unfold Emptied
    rw [hsame.service, hsame.timers, hsame.otherTimers]
    exact h.stopped

/-- The timer that fires is the only one. -/
theorem Held.expired {id : Int} (h : Held s) (hmem : id ∈ s.timers) :
    Held { s with timers := s.timers.erase id } := by
  have hnil : s.timers.erase id = [] := by
    rcases h.recorded.timer with hnil | hone
    · rw [hnil]
      rfl
    · rw [hone] at hmem ⊢
      rw [List.mem_singleton.mp hmem]
      simp
  exact ⟨⟨h.recorded.server, .inl hnil, h.recorded.service⟩, fun _ => hnil, h.ap,
    fun hstopped => ⟨hnil, (h.stopped hstopped).2⟩⟩

theorem Held.withOthers (h : Held s) {n : Nat} {t : TimerService} (ht : t ≠ .broken)
    (hstopped : t = .stopped → s.timers = [] ∧ n = 0) :
    Held { s with otherTimers := n, timerService := t } :=
  ⟨⟨h.recorded.server, h.recorded.timer, ht⟩, h.timers, h.ap, hstopped⟩

/-- After a stop nothing is left, and the service of the timers is sound exactly if the
deletion was. -/
theorem Held.stop (h : Held s) (waits : Bool) : (ezconnApStop waits s).servers = [] ∧
    (ezconnApStop waits s).timers = [] ∧ (ezconnApStop waits s).ap = false ∧
      (ezconnApStop waits s).gExitFlag = true ∧
      ((ezconnApStop waits s).timerService ≠ .broken ↔
        DeletesLast waits (s.gConnCtx.timeOutTimer ∈ s.timers) s) := by
  obtain ⟨⟨hserver, htimer, hservice⟩, -, -, hstopped⟩ := h
  have hstop : stopHttpd s = { s with
      servers := []
      gConnCtx := { s.gConnCtx with httpdServer := none } } := by
    unfold stopHttpd
    cases hctx : s.gConnCtx.httpdServer with
    | none =>
        rw [hctx] at hserver
        obtain ⟨ctx, exit, busy, servers, timers, others, service, ap, server, timer, handler⟩ := s
        simp only at hctx hserver
        subst hserver
        cases ctx
        simp only at hctx
        subst hctx
        rfl
    | some server =>
        rw [hctx] at hserver
        simp [hserver]
  have hleft : (s.timers.erase s.gConnCtx.timeOutTimer) = [] := by
    rcases htimer with htimer | htimer <;> simp [htimer]
  unfold ezconnApStop ezconnAdapterDeinit DeletesLast
  rw [hstop]
  refine ⟨deleteTimer_servers _ _ _, ?_, rfl, rfl, ?_⟩
  · show (deleteTimer _ _ _).timers = []
    unfold deleteTimer leaveTimers
    split
    · exact hleft
    · rename_i hrun
      cases hs : s.timerService with
      | stopped => exact (hstopped hs).1
      | running => exact absurd hs hrun
      | broken => exact absurd hs hservice
  · show (deleteTimer _ _ _).timerService ≠ .broken ↔ _
    unfold deleteTimer
    rw [leaveTimers_sound_iff]
    unfold ConnState.liveTimers
    rcases htimer with htimer | htimer
    · simp only [htimer]
      grind
    · simp only [htimer]
      grind

/-- What a handler, a time-out or a timer of another module that expires does keeps the
resources in order. -/
theorem step_held (h : Held s) (hstep : s.step e = some s')
    (hstart : ∀ r a d cb, e ≠ .start r a d cb) (hstop : ∀ waits, e ≠ .stop waits)
    (hcreated : ∀ r, e ≠ .otherCreated r) (hdeleted : ∀ waits live, e ≠ .otherDeleted waits live) :
    Held s' := by
  cases e with
  | start r a d cb => exact absurd rfl (hstart r a d cb)
  | stop waits => exact absurd rfl (hstop waits)
  | otherCreated r => exact absurd rfl (hcreated r)
  | otherDeleted waits live => exact absurd rfl (hdeleted waits live)
  | request q =>
      simp only [ConnState.step] at hstep
      split at hstep
      next => cases hstep
      next =>
        cases hstep
        refine h.untouched ?_
        unfold request
        split <;> exact ⟨rfl, rfl, rfl, rfl, rfl, rfl, rfl, rfl⟩
  | test =>
      simp only [ConnState.step, testBusy] at hstep
      refine h.untouched ?_
      constructor <;> grind
  | wake =>
      simp only [ConnState.step] at hstep
      refine h.untouched ?_
      constructor <;> grind
  | finish r =>
      simp only [ConnState.step] at hstep
      split at hstep
      next => exact h.untouched (finish_untouched hstep)
      next => cases hstep
  | timeOut id =>
      simp only [ConnState.step] at hstep
      split at hstep
      next hmem =>
        refine (h.expired hmem).untouched ?_
        unfold timeOutCb at hstep
        constructor <;> grind
      next => cases hstep
  | otherExpired =>
      simp only [ConnState.step] at hstep
      split at hstep
      next => cases hstep
      next hsome =>
        cases hstep
        exact h.withOthers h.recorded.service
          fun hstopped => absurd (h.stopped hstopped).2 hsome

theorem Held.deleteOther (h : Held s) {waits live : Bool} (hlive : live = true → s.otherTimers ≠ 0) :
    (Recorded (deleteOther waits live s) → Held (deleteOther waits live s)) ∧
      (Recorded (deleteOther waits live s) ↔ DeletesLast waits (live = true) s) := by
  have hsame : (Conn.deleteOther waits live s).servers = s.servers ∧
      (Conn.deleteOther waits live s).timers = s.timers ∧
      (Conn.deleteOther waits live s).ap = s.ap ∧
      (Conn.deleteOther waits live s).gConnCtx = s.gConnCtx := by
    unfold Conn.deleteOther leaveTimers
    split <;> exact ⟨rfl, rfl, rfl, rfl⟩
  obtain ⟨hservers, htimers, hap, hctx⟩ := hsame
  refine ⟨fun hrecorded => ⟨hrecorded, ?_, ?_, h.stopped.leaveTimers _ _⟩, ?_⟩
  · rw [hservers, htimers]
    exact h.timers
  · rw [hservers, hap]
    exact h.ap
  · have hsound : (Conn.deleteOther waits live s).timerService ≠ .broken ↔
        DeletesLast waits (live = true) s := by
      have hservice := h.recorded.service
      unfold Conn.deleteOther DeletesLast
      rw [leaveTimers_sound_iff]
      unfold ConnState.liveTimers
      cases live <;> grind
    constructor
    · exact fun hrecorded => hsound.mp hrecorded.service
    · intro hlast
      refine ⟨?_, ?_, hsound.mpr hlast⟩
      · rw [hservers, hctx]
        exact h.recorded.server
      · rw [htimers, hctx]
        exact h.recorded.timer

theorem Held.createOther (h : Held s) (r : TimerResult) :
    (Recorded (createOther r s) → Held (createOther r s)) ∧
      (Recorded (createOther r s) ↔ (s.timerService = .stopped → r ≠ .noThread)) := by
  have hbroken := create_broken_iff (r := r) h.recorded.service
  constructor
  · intro hrecorded
    refine h.withOthers hrecorded.service fun hstopped => ?_
    obtain ⟨hservice, hnot⟩ := create_stopped hstopped
    simpa [hnot] using h.stopped hservice
  · constructor
    · intro hrecorded hstopped hthread
      exact hrecorded.service (hbroken.mpr ⟨hstopped, hthread⟩)
    · intro hok
      exact ⟨h.recorded.server, h.recorded.timer,
        fun hcreate => hok (hbroken.mp hcreate).1 (hbroken.mp hcreate).2⟩

theorem step_recorded_iff (h : Held s) (hstep : s.step e = some s') :
    Recorded s' ∧ FailsClean s e ↔ Orderly s e := by
  cases e with
  | start r apInfo devInfo cb =>
      cases hstep
      rcases apInfo with _ | a
      · exact iff_of_true ⟨h.recorded, fun _ => ⟨rfl, rfl, rfl, rfl⟩⟩ trivial
      rcases devInfo with _ | d
      · exact iff_of_true ⟨h.recorded, fun _ => ⟨rfl, rfl, rfl, rfl⟩⟩ trivial
      rcases cb with _ | c
      · exact iff_of_true ⟨h.recorded, fun _ => ⟨rfl, rfl, rfl, rfl⟩⟩ trivial
      by_cases henter : s.gExitFlag = true → d.devSerial.length = 0
      · obtain ⟨-, cb, hctx⟩ := ezconnApStart_refused (r := r) (a := a) (c := c) henter
        refine iff_of_true ?_ fun hexit hserial => absurd (henter hexit) hserial
        rw [FailsClean, hctx]
        exact ⟨⟨h.recorded.server, h.recorded.timer, h.recorded.service⟩,
          fun _ => ⟨rfl, rfl, rfl, rfl⟩⟩
      · obtain ⟨hexit, hserial⟩ := Classical.not_imp.mp henter
        rw [Orderly, admitted_start_iff hexit hserial h]
        exact ⟨fun hclean _ _ => hclean, fun hclean => hclean hexit hserial⟩
  | stop waits =>
      simp only [ConnState.step] at hstep
      split at hstep
      next => cases hstep
      next =>
        cases hstep
        obtain ⟨hservers, htimers, -, -, hsound⟩ := h.stop waits
        rw [Orderly, ← hsound]
        exact ⟨fun hkept => hkept.1.service, fun hs => ⟨⟨hservers, .inl htimers, hs⟩, trivial⟩⟩
  | otherCreated r =>
      cases hstep
      rw [Orderly, ← (h.createOther r).2]
      exact and_iff_left trivial
  | otherDeleted waits live =>
      simp only [ConnState.step] at hstep
      split at hstep
      next => cases hstep
      next hlive =>
        cases hstep
        rw [Orderly, ← (h.deleteOther fun hl hnone => hlive ⟨hl, hnone⟩).2]
        exact and_iff_left trivial
  | _ =>
      have hheld := step_held h hstep (by simp) (by simp) (by simp) (by simp)
      exact iff_of_true ⟨hheld.recorded, trivial⟩ trivial

theorem Held.step (h : Held s) (hok : Orderly s e) (hstep : s.step e = some s') : Held s' := by
  obtain ⟨hrecorded, hclean⟩ := (step_recorded_iff h hstep).mpr hok
  cases e with
  | start r apInfo devInfo cb =>
      cases hstep
      have hstopped : Emptied (ezconnApStart r apInfo devInfo cb s).2 := h.stopped.start
      by_cases hsucc : (ezconnApStart r apInfo devInfo cb s).1 = .succ
      · rcases apInfo with _ | a
        · cases hsucc
        rcases devInfo with _ | d
        · cases hsucc
        rcases cb with _ | c
        · cases hsucc
        have hserver : (ezconnApStart r (some a) (some d) (some c) s).2.servers ≠ [] := by
          rw [hrecorded.server]
          simpa using ezconnApStart_succ_server hsucc
        exact ⟨hrecorded, fun hnil => absurd hnil hserver, fun hnil => absurd hnil hserver,
          hstopped⟩
      · obtain ⟨hservers, htimers, -, hap⟩ := hclean hsucc
        refine ⟨hrecorded, ?_, ?_, hstopped⟩
        · rw [hservers, htimers]
          exact h.timers
        · rw [hservers, hap]
          exact h.ap
  | stop waits =>
      simp only [ConnState.step] at hstep
      split at hstep
      next => cases hstep
      next =>
        cases hstep
        obtain ⟨-, htimers, hap, -, -⟩ := h.stop waits
        refine ⟨hrecorded, fun _ => htimers, fun _ => hap, ?_⟩
        have hleft : Emptied (stopHttpd s) := by
          unfold stopHttpd
          split <;> exact h.stopped
        exact hleft.leaveTimers _ _
  | otherCreated r =>
      cases hstep
      exact (h.createOther r).1 hrecorded
  | otherDeleted waits live =>
      simp only [ConnState.step] at hstep
      split at hstep
      next => cases hstep
      next hlive =>
        cases hstep
        exact (h.deleteOther fun hl hnone => hlive ⟨hl, hnone⟩).1 hrecorded
  | _ => exact step_held h hstep (by simp) (by simp) (by simp) (by simp)

theorem Held.restart (h : Held s) {waits : Bool} (hlast : Orderly s (.stop waits)) :
    ∃ r, ∀ (a : EzconnApInfo) (d : EzconnDevInfo) (c : Nat),
      a.apSsid.length ≠ 0 → d.devSerial.length ≠ 0 →
        (ezconnApStart r (some a) (some d) (some c) (ezconnApStop waits s)).1 = .succ := by
  refine ⟨⟨.created, false, true, true, true, true, true⟩, fun a d c hssid hserial => ?_⟩
  obtain ⟨-, -, -, hexit, hsound⟩ := h.stop waits
  have hservice := hsound.mpr hlast
  have htimed : StartResults.timed ⟨.created, false, true, true, true, true, true⟩
      (enterSession c (ezconnApStop waits s)) := by
    refine create_created_iff.mpr ?_
    cases ht : (ezconnApStop waits s).timerService with
    | stopped => exact .inl ⟨ht, rfl⟩
    | running => exact .inr ⟨ht, by decide⟩
    | broken => exact absurd ht hservice
  have hsucc := (acquire_of_serves (d := d) htimed hssid rfl ⟨rfl, rfl, rfl, rfl⟩).1
  rw [ezconnApStart_of_acquire_succ hexit hserial hsucc]
  exact hsucc

end Step

theorem Held.of_reach {s : ConnState} (h : Reach ConnState.step Orderly .initial s) : Held s :=
  h.invariant (I := Held)
    ⟨⟨rfl, .inl rfl, by decide⟩, fun _ => rfl, fun _ => rfl, fun _ => ⟨rfl, rfl⟩⟩
    fun _ _ _ hheld hok hstep => hheld.step hok hstep

/-! ## Start and stop -/

/-- As long as every start that goes past its checks finds no server and its own server
starts, and no deletion stops the service of the timers under another timer, there is one
server and one timer at most, those in `g_conn_ctx`; a start that fails changes nothing, and a
stop leaves nothing. The first step that is otherwise breaks this. -/
theorem start_stop_exact {s : ConnState} (h : Reach ConnState.step Orderly .initial s) :
    Recorded s ∧
      (∀ e s', s.step e = some s' → (Recorded s' ∧ FailsClean s e ↔ Orderly s e)) ∧
      ∀ waits s', s.step (.stop waits) = some s' →
        s'.servers = [] ∧ s'.timers = [] ∧ s'.ap = false ∧
          (Orderly s (.stop waits) → ∃ r, ∀ (a : EzconnApInfo) (d : EzconnDevInfo) (c : Nat),
            a.apSsid.length ≠ 0 → d.devSerial.length ≠ 0 →
              (ezconnApStart r (some a) (some d) (some c) s').1 = .succ) := by
  have hheld := Held.of_reach h
  refine ⟨hheld.recorded, fun e s' hstep => step_recorded_iff hheld hstep,
    fun waits s' hstep => ?_⟩
  simp only [ConnState.step] at hstep
  split at hstep
  next => cases hstep
  next =>
    cases hstep
    obtain ⟨hservers, htimers, hap, -, -⟩ := hheld.stop waits
    exact ⟨hservers, htimers, hap, fun hlast => hheld.restart hlast⟩

def sampleAp : EzconnApInfo := ⟨.strncpy (.lit "EZVIZ_1"), true⟩

def sampleDev : EzconnDevInfo := ⟨.strncpy (.lit "D1"), .strncpy (.lit "T"), .strncpy (.lit "V")⟩

/-- A start whose access point fails beside the timer of another module, a session that times
out and is stopped when there are two such timers, and another session. -/
def sampleEvents : List ConnEvent :=
  [.otherCreated .created,
    .start ⟨.created, false, false, true, true, true, true⟩ (some sampleAp) (some sampleDev) (some 1),
    sampleStart, .otherCreated .created, .timeOut 2, .stop false, .otherDeleted true true, sampleStart]

theorem start_stop_exact_started : ∃ s,
    sampleEvents.foldlM (guarded ConnState.step Orderly) .initial = some s ∧ Recorded s ∧
      s.servers = [2] ∧ s.timers = [3] ∧ s.otherTimers = 1 := by
  have hrun : (sampleEvents.foldlM (guarded ConnState.step Orderly) .initial).map
      (fun s => (s.servers, s.timers, s.otherTimers)) = some ([2], [3], 1) := by decide +kernel
  obtain ⟨s, hs, hvalue⟩ := Option.map_eq_some_iff.mp hrun
  simp only [Prod.mk.injEq] at hvalue
  exact ⟨s, hs, (start_stop_exact (Reach.of_guarded hs)).1, hvalue⟩

/-- A start after the time-out leaves the server of the session before it, and a start whose
server does not start leaves the access point open. -/
theorem second_start_leaks :
    (∃ s, Reach ConnState.step (fun _ _ => True) .initial s ∧ s.servers = [1, 2] ∧ ¬ Recorded s) ∧
      ∃ e, ¬ FailsClean .initial e := by
  constructor
  · have hrun : ([sampleStart, .timeOut 1, sampleStart].foldlM ConnState.step .initial).map
        (fun s => (s.servers, s.gConnCtx.httpdServer)) = some ([1, 2], some 2) := by decide +kernel
    obtain ⟨s, hs, hvalue⟩ := Option.map_eq_some_iff.mp hrun
    simp only [Prod.mk.injEq] at hvalue
    refine ⟨s, Reach.of_foldlM hs, hvalue.1, fun hrecorded => ?_⟩
    have hserver := hrecorded.server
    rw [hvalue.1, hvalue.2] at hserver
    exact absurd hserver (by decide)
  · refine ⟨.start ⟨.created, false, true, false, true, true, true⟩ (some sampleAp)
      (some sampleDev) (some 1), fun hclean => ?_⟩
    exact absurd (hclean (by decide +kernel)).ap (by decide +kernel)

/-- The stop of a session whose timer has expired destroys the mutex under the only timer of
another module. -/
theorem stop_breaks_other_timer : ∃ s s', Reach ConnState.step Orderly .initial s ∧
    s.step (.stop false) = some s' ∧ s'.otherTimers = 1 ∧ s'.timerService = .broken := by
  have hrun : ([sampleStart, .timeOut 1, .otherCreated .created].foldlM
      (guarded ConnState.step Orderly) .initial).map (fun s => ((s.step (.stop false)).map
        fun s => (s.otherTimers, s.timerService))) = some (some (1, .broken)) := by decide +kernel
  obtain ⟨s, hs, hstop⟩ := Option.map_eq_some_iff.mp hrun
  obtain ⟨s', hs', hvalue⟩ := Option.map_eq_some_iff.mp hstop
  simp only [Prod.mk.injEq] at hvalue
  exact ⟨s, s', Reach.of_guarded hs, hs', hvalue⟩

end EzIot.Conn
