import EzIot.Conn.Adapter

/-! # The busy flag

Every handler waits while the busy flag is set. The flag is set by the handler that is at
work, and each way out of it has to clear the flag or to end the session.
-/

namespace EzIot.Conn

open CText CJson Run

/-- Nothing keeps the next handler from its work. -/
def Free (s : ConnState) : Prop := s.handler = none → s.gExitFlag = false → s.gServerBusy = false

/-- A configuration that is served is usable, or its end finds the session over or the flag
cleared by another start. -/
def KeepsFree (s : ConnState) : ConnEvent → Prop
  | .finish r =>
      s.handler = some (.serve .wifiConfig) → s.gExitFlag = false → s.gServerBusy = true → r.usable
  | _ => True

/-- What ends a session: a configuration that connects, one that does not where the access
point cannot stay open meanwhile, the time-out, and a stop. -/
def EndsSession (s : ConnState) : ConnEvent → Prop
  | .finish r => s.handler = some (.serve .wifiConfig) ∧
      ∃ isSucc w, processWifiConfig r s.gConnCtx = some (.connected isSucc, w) ∧
        (isSucc = true ∨ s.gConnCtx.apstaCoexist = false)
  | .timeOut _ => True
  | .stop _ => True
  | _ => False

/-- In a session the callback is there, and the flag is clear between two handlers. -/
structure Session (s : ConnState) : Prop where
  callback : s.gExitFlag = false → s.gConnCtx.wifiCb ≠ none
  free : Free s

section Step

variable {s s' : ConnState} {e : ConnEvent} {q : HttpReqType} {r : ConfigReq}

/-- The end of a configuration: the flag stays as it is exactly if the request was not
usable. -/
theorem finish_wifiConfig (h : finish .wifiConfig r s = some s') :
    s'.handler = none ∧
      ((¬ r.usable ∧ s'.gExitFlag = s.gExitFlag ∧ s'.gServerBusy = s.gServerBusy) ∨
        (r.usable ∧ ∃ isSucc w, processWifiConfig r s.gConnCtx = some (.connected isSucc, w) ∧
          s'.gServerBusy = isSucc ∧
          (s'.gExitFlag = true ↔ s.gExitFlag = true ∨ isSucc = true ∨ s.gConnCtx.apstaCoexist = false))) := by
  obtain ⟨⟨e, w⟩, hconfig, rfl⟩ := Option.map_eq_some_iff.mp h
  have hfailed := processWifiConfig_failed_iff hconfig
  refine ⟨rfl, ?_⟩
  rcases e with ret | _ | _
  · exact .inl ⟨hfailed.mp ⟨ret, rfl⟩, rfl, rfl⟩
  all_goals
    have husable : r.usable := by
      by_contra hnot
      obtain ⟨ret, hret⟩ := hfailed.mpr hnot
      cases hret
    refine .inr ⟨husable, _, w, hconfig, rfl, ?_⟩
    simp [ConfigEnd.flags]

theorem finish_open (h : finish q r s = some s') (hopen : s'.gExitFlag = false) :
    s.gExitFlag = false := by
  cases q with
  | devinfo | getList =>
      cases h
      exact hopen
  | wifiConfig =>
      obtain ⟨-, ⟨-, hexit, -⟩ | ⟨-, isSucc, w, -, -, hexit⟩⟩ := finish_wifiConfig h
      · exact hexit.symm.trans hopen
      · rw [Bool.eq_false_iff] at hopen ⊢
        exact fun hclosed => hopen (hexit.mpr (.inl hclosed))

theorem step_callback (h : s.gExitFlag = false → s.gConnCtx.wifiCb ≠ none)
    (hstep : s.step e = some s') : s'.gExitFlag = false → s'.gConnCtx.wifiCb ≠ none := by
  cases e with
  | start r a d cb =>
      cases hstep
      intro hopen
      cases hexit : s.gExitFlag with
      | false =>
          rw [ezconnApStart_of_not_exit hexit]
          exact h hexit
      | true => exact (ezconnApStart_opened hexit hopen).2
  | finish r =>
      simp only [ConnState.step] at hstep
      split at hstep
      next q hq =>
        rw [(finish_untouched hstep).callback]
        exact fun hopen => h (finish_open hstep hopen)
      next => cases hstep
  | _ =>
      simp only [ConnState.step, ezconnApStop, ezconnAdapterDeinit, request, testBusy, timeOutCb,
        deleteTimer, createOther, deleteOther, leaveTimers] at hstep
      grind

theorem step_free_iff (h : Session s) (hstep : s.step e = some s') : Free s' ↔ KeepsFree s e := by
  cases e with
  | start r a d cb =>
      cases hstep
      refine iff_of_true (fun hhandler hopen => ?_) trivial
      cases hexit : s.gExitFlag with
      | false =>
          rw [ezconnApStart_of_not_exit hexit] at hhandler ⊢
          exact h.free hhandler hexit
      | true => exact (ezconnApStart_opened hexit hopen).1
  | finish r =>
      simp only [ConnState.step] at hstep
      split at hstep
      next q hq =>
        cases q with
        | devinfo | getList =>
            cases hstep
            refine iff_of_true (fun _ _ => rfl) (fun hserve => ?_)
            rw [hq] at hserve
            cases hserve
        | wifiConfig =>
            obtain ⟨hnone, ⟨hunusable, hexit, hbusy⟩ | ⟨husable, isSucc, w, -, hbusy, hexit⟩⟩ :=
              finish_wifiConfig hstep
            · simp only [Free, KeepsFree, hnone, hexit, hbusy, hq, hunusable]
              grind
            · refine iff_of_true (fun _ hopen => ?_) (fun _ _ _ => husable)
              grind
      next => cases hstep
  | _ =>
      have hfree := h.free
      refine iff_of_true ?_ trivial
      simp only [ConnState.step, ezconnApStop, ezconnAdapterDeinit, request, testBusy, timeOutCb,
        deleteTimer, createOther, deleteOther, leaveTimers] at hstep
      unfold Free at hfree ⊢
      grind

theorem step_exit (hstep : s.step e = some s') (hopen : s.gExitFlag = false)
    (hexit : s'.gExitFlag = true) : EndsSession s e := by
  cases e with
  | start r a d cb =>
      cases hstep
      rw [ezconnApStart_of_not_exit hopen, hopen] at hexit
      cases hexit
  | finish r =>
      simp only [ConnState.step] at hstep
      split at hstep
      next q hq =>
        cases q with
        | devinfo | getList =>
            cases hstep
            exact absurd (hopen.symm.trans hexit) (by decide)
        | wifiConfig =>
            obtain ⟨-, ⟨-, hsame, -⟩ | ⟨-, isSucc, w, hconfig, -, hiff⟩⟩ := finish_wifiConfig hstep
            · exact absurd (hopen.symm.trans (hsame.symm.trans hexit)) (by decide)
            · refine ⟨hq, isSucc, w, hconfig, (hiff.mp hexit).resolve_left ?_⟩
              rw [hopen]
              decide
      next => cases hstep
  | timeOut id => trivial
  | stop waits => trivial
  | _ =>
      simp only [ConnState.step, request, testBusy, createOther, deleteOther, leaveTimers] at hstep
      grind

theorem Session.served (h : Session s) (hnone : s.handler = none) (hopen : s.gExitFlag = false)
    (hstep : s.step (.request q) = some s') :
    ∃ t, s'.step .test = some t ∧ t.handler = some (.serve q) := by
  have hbusy := h.free hnone hopen
  have hcallback := h.callback hopen
  simp only [ConnState.step, request] at hstep
  refine ⟨{ s with gServerBusy := true, handler := some (.serve q) }, ?_, rfl⟩
  grind [ConnState.step, testBusy]

theorem Session.step (h : Session s) (hok : KeepsFree s e) (hstep : s.step e = some s') :
    Session s' :=
  ⟨step_callback h.callback hstep, (step_free_iff h hstep).mpr hok⟩

end Step

theorem Session.of_reach {s : ConnState} (h : Reach ConnState.step KeepsFree .initial s) :
    Session s :=
  h.invariant (I := Session) ⟨by decide, fun _ _ => rfl⟩
    fun _ _ _ hsession hok hstep => hsession.step hok hstep

/-! ## Serving -/

/-- As long as every configuration that is served is usable, no handler leaves the flag set,
the next request is served at once, and only the end of a session sets the exit flag. One
that is not usable leaves the flag set. -/
theorem server_never_wedges {s : ConnState} (h : Reach ConnState.step KeepsFree .initial s) :
    Free s ∧
      (s.handler = none → s.gExitFlag = false → ∀ q s', s.step (.request q) = some s' →
        ∃ t, s'.step .test = some t ∧ t.handler = some (.serve q)) ∧
      ∀ e s', s.step e = some s' → (Free s' ↔ KeepsFree s e) ∧
        (s.gExitFlag = false → s'.gExitFlag = true → EndsSession s e) := by
  have hsession := Session.of_reach h
  refine ⟨hsession.free, fun hnone hopen q s' hstep => hsession.served hnone hopen hstep,
    fun e s' hstep => ⟨step_free_iff hsession hstep, step_exit hstep⟩⟩

/-- A body that is no text of a value. -/
def malformedReq : ConfigReq := ⟨1, true, [0, 0], [.data (ascii "x")], fun _ => .unknow⟩

/-- The device is asked for, and then a configuration is served. -/
theorem server_never_wedges_started : ∃ s,
    [sampleStart, .request .devinfo, .test, .finish malformedReq, .request .wifiConfig, .test].foldlM
      ConnState.step .initial = some s ∧
      s.handler = some (.serve .wifiConfig) ∧ s.gExitFlag = false ∧ Free s := by
  have hother : ∀ s e, (∀ r, e ≠ .finish r) → KeepsFree s e := by
    intro s e hne
    cases e with
    | finish r => exact absurd rfl (hne r)
    | _ => trivial
  have hinfo : ∀ s r, s.handler = some (.serve .devinfo) → KeepsFree s (.finish r) := by
    intro s r hserves hconfig
    cases hserves.symm.trans hconfig
  have hstart : Reach ConnState.step KeepsFree .initial .initial := .start
  have hserving := hstart.next (i := sampleStart) (hother _ _ nofun) rfl
    |>.next (i := .request .devinfo) (hother _ _ nofun) rfl
    |>.next (i := .test) (hother _ _ nofun) rfl
  have hrun := hserving.next (i := .finish malformedReq) (hinfo _ _ rfl) rfl
    |>.next (i := .request .wifiConfig) (hother _ _ nofun) rfl
    |>.next (i := .test) (hother _ _ nofun) rfl
  exact ⟨_, rfl, rfl, rfl, (server_never_wedges hrun).1⟩

/-- After such a body the flag is set in the middle of a session, and the next request waits. -/
theorem malformed_request_wedges : ∃ s t, Reach ConnState.step (fun _ _ => True) .initial s ∧
    ¬ Free s ∧ [.request .devinfo, .test].foldlM ConnState.step s = some t ∧
      t.gExitFlag = false ∧ t.handler = some (.delay .devinfo) := by
  have hrun : ([sampleStart, .request .wifiConfig, .test, .finish malformedReq].foldlM
      ConnState.step ConnState.initial).map
        (fun s => (s.handler, s.gExitFlag, s.gServerBusy, s.servers)) =
      some (none, false, true, [1]) := by decide +kernel
  obtain ⟨s, hs, hvalue⟩ := Option.map_eq_some_iff.mp hrun
  simp only [Prod.mk.injEq] at hvalue
  obtain ⟨hhandler, hexit, hbusy, hservers⟩ := hvalue
  refine ⟨s, { s with handler := some (.delay .devinfo) }, Reach.of_foldlM hs, fun hfree => ?_, ?_,
    hexit, rfl⟩
  · exact absurd ((hfree hhandler hexit).symm.trans hbusy) (by decide)
  · simp [ConnState.step, request, testBusy, hhandler, hbusy, hservers]

end EzIot.Conn
