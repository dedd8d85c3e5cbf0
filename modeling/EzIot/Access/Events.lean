import EzIot.Access.Counters

/-! # Events of the connection

A user is told that the connection is up and that it is broken. The second event is
broadcast in two places, and both may be reached in one step.
-/

namespace EzIot.Access

open CText Kernel Lbs Program

/-! ## The sequence of events -/

/-- The events of a list of marks, without acknowledgements. -/
def events : List Mark → List Event
  | [] => []
  | .event .publishAck :: ms => events ms
  | .event e :: ms => e :: events ms
  | _ :: ms => events ms

/-- The last event says that the connection is up. -/
def isUp : List Event → Bool
  | .online :: _ => true
  | .switchover :: _ => true
  | .reconnect :: _ => true
  | _ => false

/-- Every break comes directly after an event that says that the connection is up. -/
def Alternates : List Event → Prop
  | [] => True
  | .break :: es => isUp es = true ∧ Alternates es
  | _ :: es => Alternates es

theorem Delivered.events_eq {a a' : Link} (h : Delivered a a') :
    events a'.marks = events a.marks := by
  obtain ⟨names, hmarks, -⟩ := h.commands
  rw [hmarks]
  clear hmarks
  induction names with
  | nil => rfl
  | cons name names ih => exact ih

/-! ## Refusals -/

def Login.Refused (l : Login) (rc : UInt8) (k : SdkKernel) : Prop :=
  l.connect = none ∧ unset k.devId = false ∧ l.serialize = none ∧ l.connack = some rc

/-- Return codes of the broker: another server, and a session that still exists. -/
def rcRedirect : UInt8 := 11
def rcSessionExist : UInt8 := 12

theorem dasConnectError_code_lt (e : DasConnectError) : e.code < Code.mqttErrorBegin := by
  cases e <;> decide

theorem serializeError_code_lt (e : SerializeError) : e.code < Code.mqttErrorBegin := by
  cases e with
  | malloc => decide
  | jsonFormat => decide
  | crypto e => cases e <;> decide

theorem connackCode_eq_iff (connack : Option UInt8) {rc : UInt8} (hrc : rc ≠ 0) :
    connackCode connack = Code.mqttErrorBegin + rc.toNat ↔ connack = some rc := by
  cases connack with
  | none => simp [connackCode, Code.callMqttConnect, Code.mqttErrorBegin]; omega
  | some b =>
      simp only [connackCode, Option.some.injEq]
      split
      · rename_i hzero
        subst hzero
        simp [Code.succ, Code.mqttErrorBegin, hrc.symm]
        omega
      · simp [UInt8.toNat_inj]

theorem login_refused_iff (l : Login) (a : Link) {rc : UInt8} (hrc : rc ≠ 0) :
    (dasMqttlogin2das l a).1 = Code.mqttErrorBegin + rc.toNat ↔ l.Refused rc a.kernel := by
  simp only [dasMqttlogin2das, Login.Refused]
  cases hconnect : l.connect with
  | some e =>
      have hlt := dasConnectError_code_lt e
      simp
      omega
  | none =>
      cases hdev : unset a.kernel.devId with
      | true => simp [Code.inputParamInvalid, Code.mqttErrorBegin]; omega
      | false =>
          cases hserialize : l.serialize with
          | some e =>
              have hlt := serializeError_code_lt e
              simp
              omega
          | none => simpa using connackCode_eq_iff l.connack hrc

/-- The registration ends with the demand to go to another server. -/
def RegistrationRefused (i : Input) (k : SdkKernel) : Prop :=
  i.login.Refused rcRedirect k ∨ (i.login.Refused rcSessionExist k ∧ i.fastLogin.Refused rcRedirect k)

theorem loginAndSubscribe_refused_iff (l : Login) (s : Subscription) (a : Link) {rc : UInt8}
    (hrc : rc ≠ 0) :
    (loginAndSubscribe l s a).1 = Code.mqttErrorBegin + rc.toNat ↔ l.Refused rc a.kernel := by
  rw [← login_refused_iff l a hrc]
  simp only [loginAndSubscribe]
  split
  · rename_i hsucc
    rw [hsucc]
    simp only [dasSubscribeRevcTopic]
    constructor
    · intro h
      split at h <;> simp [Code.succ, Code.callMqttSubError, Code.mqttErrorBegin] at h <;> omega
    · intro h
      simp [Code.succ, Code.mqttErrorBegin] at h
      omega
  · exact Iff.rfl

theorem Login.refused_congr {l : Login} {rc : UInt8} {k k' : SdkKernel} (h : k'.devId = k.devId) :
    l.Refused rc k' ↔ l.Refused rc k := by
  rw [Login.Refused, Login.Refused, h]

theorem dasLightRegV2_refused_iff (l : Login) (s : Subscription) (a : Link) :
    (dasLightRegV2 l s a).1 = Code.mqttRedirect ↔ l.Refused rcRedirect a.kernel :=
  loginAndSubscribe_refused_iff l s (a.mark (.dasLightRegV2 a.kernel.redirectDasInfo))
    (show rcRedirect ≠ 0 by decide)

theorem dasReg_devId (i : Input) (a : Link) :
    (dasReg i.login i.subscription (dasUnreg i.unregMsgs a)).2.kernel.devId = a.kernel.devId :=
  (loginAndSubscribe_delivered _ _ _).devId.trans (deliver_delivered i.unregMsgs a).devId

theorem dasReg_refused_iff (i : Input) (a : Link) {rc : UInt8} (hrc : rc ≠ 0) :
    (dasReg i.login i.subscription (dasUnreg i.unregMsgs a)).1 =
      Code.mqttErrorBegin + rc.toNat ↔ i.login.Refused rc a.kernel :=
  (loginAndSubscribe_refused_iff _ _ _ hrc).trans
    (Login.refused_congr (deliver_delivered i.unregMsgs a).devId)

theorem register_refused_iff (i : Input) (a : Link) :
    (register i a).1 = Code.mqttRedirect ↔ RegistrationRefused i a.kernel := by
  have hdev := dasReg_devId i a
  have hexists := dasReg_refused_iff i a (show rcSessionExist ≠ 0 by decide)
  have hredirect := dasReg_refused_iff i a (show rcRedirect ≠ 0 by decide)
  simp only [register, RegistrationRefused]
  split
  · rename_i hcode
    have hexist := hexists.mp hcode
    have hnot : ¬ i.login.Refused rcRedirect a.kernel := by
      rw [← hredirect, hcode]
      decide
    rw [dasLightRegV2_refused_iff, Login.refused_congr hdev]
    tauto
  · rename_i hcode
    have hnone : ¬ i.login.Refused rcSessionExist a.kernel := by
      rw [← hexists]
      exact hcode
    rw [show Code.mqttRedirect = Code.mqttErrorBegin + rcRedirect.toNat from rfl, hredirect]
    tauto

theorem register_events (i : Input) (a : Link) :
    events (register i a).2.marks = events a.marks := by
  have hunreg := (deliver_delivered i.unregMsgs a).events_eq
  have hreg := (loginAndSubscribe_delivered i.login i.subscription
    ((dasUnreg i.unregMsgs a).mark (.dasReg (dasUnreg i.unregMsgs a).kernel.redirectDasInfo))).events_eq
  simp only [register]
  split
  · exact (loginAndSubscribe_delivered _ _ _).events_eq.trans (hreg.trans hunreg)
  · exact hreg.trans hunreg

/-! ## One step -/

theorem dasLightReg_refused_iff (l : Login) (a : Link) :
    (dasLightReg l a).1 = Code.mqttRedirect ↔ l.Refused rcRedirect a.kernel :=
  login_refused_iff l (a.mark (.dasLightReg a.kernel.redirectDasInfo))
    (show rcRedirect ≠ 0 by decide)

theorem dasLightReg_events (l : Login) (a : Link) :
    events (dasLightReg l a).2.marks = events a.marks :=
  (dasMqttlogin2das_delivered l (a.mark (.dasLightReg a.kernel.redirectDasInfo))).events_eq

/-- Only a redirection is told of, and it starts over. -/
theorem react_spec (r : Nat × Link) :
    (events (react r).2.marks =
      if r.1 = Code.mqttRedirect then .break :: events r.2.marks else events r.2.marks) ∧
    ((react r).2.kernel.cntState =
      if r.1 = Code.mqttRedirect then sdkCntUnredirect else r.2.kernel.cntState) := by
  simp only [react]
  by_cases hblack : r.1 = Code.mqttBlacklist
  · have hother : r.1 ≠ Code.mqttRedirect := by
      rw [hblack]
      decide
    rw [if_pos hblack, if_neg hother, if_neg hother]
    exact ⟨rfl, rfl⟩
  · rw [if_neg hblack]
    split <;> exact ⟨rfl, rfl⟩

theorem react_events (r : Nat × Link) :
    events (react r).2.marks =
      if r.1 = Code.mqttRedirect then .break :: events r.2.marks else events r.2.marks :=
  (react_spec r).1

theorem react_cntState (r : Nat × Link) :
    (react r).2.kernel.cntState =
      if r.1 = Code.mqttRedirect then sdkCntUnredirect else r.2.kernel.cntState :=
  (react_spec r).2

/-- What holds of the events in every state. -/
structure Told (a : Link) : Prop where
  alternates : Alternates (events a.marks)
  up : a.kernel.cntState = sdkCntDasReged ∨ a.kernel.cntState = sdkCntDasBreak →
    isUp (events a.marks) = true

def Waiting (i : Input) (k : SdkKernel) : Prop := k.dasRetryTimes ≠ 0 ∧ i.timerExpired = false

/-- The demand to go to another server does not come when the device is told to be
offline, and not on the last retry. -/
def InTurn (a : Link) : Step → Prop
  | .stop _ => True
  | .yield i => a.kernel.accessRisk = .noRiskControl → ¬ Waiting i a.kernel →
      (a.kernel.cntState = sdkCntRedirected → RegistrationRefused i a.kernel →
        isUp (events a.marks) = true) ∧
      (a.kernel.cntState = sdkCntDasBreak → 3 ≤ a.kernel.dasRetryTimes →
        ¬ i.login.Refused rcRedirect a.kernel)

theorem cntDasRegDo_cases (i : Input) (a : Link) :
    (Waiting i a.kernel ∧ cntDasRegDo i a = (Code.succ, a)) ∨
    (¬ Waiting i a.kernel ∧ (register i a).1 = Code.succ ∧
      cntDasRegDo i a = (Code.succ, registered (register i a).2)) ∨
    (¬ Waiting i a.kernel ∧ (register i a).1 ≠ Code.succ ∧
      cntDasRegDo i a = ((register i a).1,
        countRetry 5 (Link.update (enter sdkCntUnredirect)) (register i a).2)) := by
  by_cases hwait : Waiting i a.kernel
  · exact .inl ⟨hwait, if_pos hwait⟩
  · have heq : cntDasRegDo i a = ((register i a).1, if (register i a).1 = Code.succ then
        registered (register i a).2 else
        countRetry 5 (Link.update (enter sdkCntUnredirect)) (register i a).2) := if_neg hwait
    by_cases hsucc : (register i a).1 = Code.succ
    · rw [if_pos hsucc, hsucc] at heq
      exact .inr (.inl ⟨hwait, hsucc, heq⟩)
    · rw [if_neg hsucc] at heq
      exact .inr (.inr ⟨hwait, hsucc, heq⟩)

theorem cntDasRetryDo_cases (i : Input) (a : Link) :
    (Waiting i a.kernel ∧ cntDasRetryDo i a = (Code.succ, a)) ∨
    (¬ Waiting i a.kernel ∧ (dasLightReg i.login a).1 = Code.succ ∧
      cntDasRetryDo i a = (Code.succ,
        ((dasLightReg i.login a).2.update (enter sdkCntDasReged)).mark (.event .reconnect))) ∨
    (¬ Waiting i a.kernel ∧ (dasLightReg i.login a).1 ≠ Code.succ ∧
      cntDasRetryDo i a = ((dasLightReg i.login a).1,
        countRetry 3 breakOff (dasLightReg i.login a).2)) := by
  by_cases hwait : Waiting i a.kernel
  · exact .inl ⟨hwait, if_pos hwait⟩
  · have heq : cntDasRetryDo i a = ((dasLightReg i.login a).1,
        if (dasLightReg i.login a).1 = Code.succ then
          ((dasLightReg i.login a).2.update (enter sdkCntDasReged)).mark (.event .reconnect)
        else countRetry 3 breakOff (dasLightReg i.login a).2) := if_neg hwait
    by_cases hsucc : (dasLightReg i.login a).1 = Code.succ
    · rw [if_pos hsucc, hsucc] at heq
      exact .inr (.inl ⟨hwait, hsucc, heq⟩)
    · rw [if_neg hsucc] at heq
      exact .inr (.inr ⟨hwait, hsucc, heq⟩)

theorem react_succ (a : Link) : (react (Code.succ, a)).2 = a := rfl

theorem succ_ne_mqttRedirect : Code.succ ≠ Code.mqttRedirect := by decide

structure Tells (ok : Prop) (a' : Link) : Prop where
  alternates : Alternates (events a'.marks) ↔ ok
  up : a'.kernel.cntState = sdkCntDasReged ∨ a'.kernel.cntState = sdkCntDasBreak →
    isUp (events a'.marks) = true

theorem Told.tells {a : Link} {ok : Prop} (h : Told a) (hok : ok) : Tells ok a :=
  ⟨iff_of_true h.alternates hok, h.up⟩

theorem Tells.told {a : Link} {ok : Prop} (h : Tells ok a) (hok : ok) : Told a :=
  ⟨h.alternates.mpr hok, h.up⟩

theorem Tells.congr {a : Link} {ok ok' : Prop} (h : Tells ok a) (hiff : ok ↔ ok') : Tells ok' a :=
  ⟨h.alternates.trans hiff, h.up⟩

/-- Before a registration there is nothing to say about the last event. -/
theorem tells_of_down {a : Link} {ok : Prop} (halt : Alternates (events a.marks) ↔ ok)
    (hdown : a.kernel.cntState = sdkCntUnredirect ∨ a.kernel.cntState = sdkCntRedirected) :
    Tells ok a := by
  refine ⟨halt, fun hup => ?_⟩
  rcases hdown with hdown | hdown <;> rw [hdown] at hup <;> exact absurd hup (by decide)

theorem react_tells {r : Nat × Link} {ok : Prop}
    (hredirect : r.1 = Code.mqttRedirect → (Alternates (.break :: events r.2.marks) ↔ ok))
    (hother : r.1 ≠ Code.mqttRedirect → Tells ok r.2) : Tells ok (react r).2 := by
  by_cases hcode : r.1 = Code.mqttRedirect
  · refine tells_of_down ?_ (.inl ?_)
    · rw [react_events, if_pos hcode]
      exact hredirect hcode
    · rw [react_cntState, if_pos hcode]
  · obtain ⟨halt, hup⟩ := hother hcode
    constructor
    · rw [react_events, if_neg hcode]
      exact halt
    · rw [react_events, react_cntState, if_neg hcode, if_neg hcode]
      exact hup

theorem cntLbsRedirectDo_told {i : Input} {a : Link} {r : Nat × Link} (h : Told a)
    (hstate : a.kernel.cntState = sdkCntUnredirect) (hdo : cntLbsRedirectDo i a = some r) :
    Told (react r).2 := by
  have hcode : r.1 ≠ Code.mqttRedirect ∧ events r.2.marks = events a.marks ∧
      (r.2.kernel.cntState = sdkCntUnredirect ∨ r.2.kernel.cntState = sdkCntRedirected) := by
    simp only [cntLbsRedirectDo] at hdo
    split at hdo
    · cases hdo
      exact ⟨succ_ne_mqttRedirect, rfl, .inl hstate⟩
    · split at hdo
      · cases hdo
        exact ⟨succ_ne_mqttRedirect, rfl, .inr rfl⟩
      · rename_i e s heq
        cases hdo
        have hstop := cntStateLbsRedirect_stops (c := i.crypto) ⟨a.kernel, i.affair, i.world, []⟩
          (.code e) (congrArg Prod.fst heq)
        have houtside := (cntStateLbsRedirect_outside (c := i.crypto)).run heq
        refine ⟨?_, rfl, .inl ?_⟩
        · intro hredirect
          have hlt : e < Code.mqttErrorBegin := hstop.2
          have heq' : e = Code.mqttRedirect := hredirect
          rw [heq'] at hlt
          exact absurd hlt (by decide)
        · exact (congrArg SdkKernel.cntState houtside :).trans hstate
      · cases hdo
  obtain ⟨hne, hevents, hcnt⟩ := hcode
  have hsame : Alternates (events r.2.marks) ↔ True := by
    rw [hevents]
    exact iff_of_true h.alternates trivial
  have htells : Tells True (react r).2 :=
    react_tells (fun hredirect => absurd hredirect hne) fun _ => tells_of_down hsame hcnt
  exact htells.told trivial

theorem registered_events (a : Link) :
    events (registered a).marks = .switchover :: events a.marks ∨
      events (registered a).marks = .online :: events a.marks := by
  simp only [registered]
  split
  · exact .inl rfl
  · exact .inr rfl

/-- A registration that failed: only the demand to redirect is told. -/
theorem registerFailed_tells {b : Link} {code : Nat} (halt : Alternates (events b.marks))
    (hdown : b.kernel.cntState = sdkCntUnredirect ∨ b.kernel.cntState = sdkCntRedirected) :
    Tells (code = Code.mqttRedirect → isUp (events b.marks) = true)
      (react (code, countRetry 5 (Link.update (enter sdkCntUnredirect)) b)).2 := by
  have hevents : events (countRetry 5 (Link.update (enter sdkCntUnredirect)) b).marks =
      events b.marks := by
    simp only [countRetry]
    split <;> rfl
  have hdown' : (countRetry 5 (Link.update (enter sdkCntUnredirect)) b).kernel.cntState =
      sdkCntUnredirect ∨ (countRetry 5 (Link.update (enter sdkCntUnredirect)) b).kernel.cntState =
      sdkCntRedirected := by
    simp only [countRetry]
    split
    · exact .inl rfl
    · exact hdown
  refine react_tells (fun hredirect => ?_) (fun hne => tells_of_down ?_ hdown')
  · rw [hevents]
    exact ⟨fun hbreak _ => hbreak.1, fun hup => ⟨hup hredirect, halt⟩⟩
  · rw [hevents]
    exact iff_of_true halt fun hredirect => absurd hredirect hne

theorem cntDasRegDo_tells {a : Link} (i : Input) (h : Told a)
    (hstate : a.kernel.cntState = sdkCntRedirected) :
    Tells (¬ Waiting i a.kernel → RegistrationRefused i a.kernel → isUp (events a.marks) = true)
      (react (cntDasRegDo i a)).2 := by
  have hevents := register_events i a
  have halt : Alternates (events (register i a).2.marks) := by
    rw [hevents]
    exact h.alternates
  obtain ⟨hwait, heq⟩ | ⟨hwait, hsucc, heq⟩ | ⟨hwait, hsucc, heq⟩ := cntDasRegDo_cases i a
  · rw [heq, react_succ]
    exact h.tells fun hnot => absurd hwait hnot
  · have hok : ¬ RegistrationRefused i a.kernel := by
      rw [← register_refused_iff, hsucc]
      exact succ_ne_mqttRedirect
    rw [heq, react_succ]
    refine ⟨iff_of_true ?_ fun _ hrefused => absurd hrefused hok, fun _ => ?_⟩
    · rcases registered_events (register i a).2 with hr | hr <;> rw [hr] <;> exact halt
    · rcases registered_events (register i a).2 with hr | hr <;> rw [hr] <;> rfl
  · have hdown : (register i a).2.kernel.cntState = sdkCntUnredirect ∨
        (register i a).2.kernel.cntState = sdkCntRedirected := by
      rcases (register_registering i a).cntState with hs | hs
      · exact .inr (hs.trans hstate)
      · exact .inl hs
    rw [heq]
    refine (registerFailed_tells halt hdown).congr ?_
    rw [hevents, register_refused_iff]
    exact ⟨fun hup _ => hup, fun hup => hup hwait⟩

theorem cntDasWorkDo_tells {a : Link} (i : Input) (h : Told a)
    (hstate : a.kernel.cntState = sdkCntDasReged) : Told (react (cntDasWorkDo i a)).2 := by
  obtain ⟨b, hdelivered, hyield⟩ := dasYield_delivered i.work a
  have halt : Alternates (events b.marks) := by
    rw [hdelivered.events_eq]
    exact h.alternates
  have hup : isUp (events b.marks) = true := by
    rw [hdelivered.events_eq]
    exact h.up (.inl hstate)
  -- neither the loss of the connection nor an acknowledgement is an event
  rcases hyield with heq | heq | heq
  · have hdo : (react (cntDasWorkDo i a)).2 =
        (b.update fun k => { k with cntState := sdkCntDasBreak }).mark .lost := by
      simp only [cntDasWorkDo, heq]
      rfl
    rw [hdo]
    exact ⟨halt, fun _ => hup⟩
  · have hdo : (react (cntDasWorkDo i a)).2 = b := by
      simp only [cntDasWorkDo, heq]
      rfl
    rw [hdo]
    exact ⟨halt, fun _ => hup⟩
  · have hdo : (react (cntDasWorkDo i a)).2 = b.mark (.event .publishAck) := by
      simp only [cntDasWorkDo, heq]
      rfl
    rw [hdo]
    exact ⟨halt, fun _ => hup⟩

/-- A retry that failed. On the last one the break is told, and the demand to redirect
tells it again. -/
theorem retryFailed_tells {b : Link} {code : Nat} (halt : Alternates (events b.marks))
    (hup : isUp (events b.marks) = true) :
    Tells (3 ≤ b.kernel.dasRetryTimes → code ≠ Code.mqttRedirect)
      (react (code, countRetry 3 breakOff b)).2 := by
  by_cases hlimit : 3 ≤ b.kernel.dasRetryTimes
  · have hbroken : countRetry 3 breakOff b =
        breakOff (b.update fun k => { k with dasRetryTimes := k.dasRetryTimes + 1 }) :=
      if_pos hlimit
    rw [hbroken]
    refine react_tells (fun hredirect => ?_) (fun hne => tells_of_down ?_ (.inl rfl))
    · refine iff_of_false (fun htwice => ?_) (fun hok => hok hlimit hredirect)
      exact absurd htwice.1 (by simp [breakOff, Link.mark, Link.update, events, isUp])
    · exact iff_of_true ⟨hup, halt⟩ fun _ => hne
  · have hcounted : countRetry 3 breakOff b =
        b.update fun k => { k with dasRetryTimes := k.dasRetryTimes + 1 } := if_neg hlimit
    rw [hcounted]
    refine react_tells (fun _ => ?_) (fun _ => ⟨?_, fun _ => hup⟩)
    · exact iff_of_true ⟨hup, halt⟩ fun hthree => absurd hthree hlimit
    · exact iff_of_true halt fun hthree => absurd hthree hlimit

theorem cntDasRetryDo_tells {a : Link} (i : Input) (h : Told a)
    (hstate : a.kernel.cntState = sdkCntDasBreak) :
    Tells (¬ Waiting i a.kernel → 3 ≤ a.kernel.dasRetryTimes →
      ¬ i.login.Refused rcRedirect a.kernel) (react (cntDasRetryDo i a)).2 := by
  have hrefused := dasLightReg_refused_iff i.login a
  have hevents := dasLightReg_events i.login a
  have halt : Alternates (events (dasLightReg i.login a).2.marks) := by
    rw [hevents]
    exact h.alternates
  have hup : isUp (events (dasLightReg i.login a).2.marks) = true := by
    rw [hevents]
    exact h.up (.inr hstate)
  obtain ⟨hwait, heq⟩ | ⟨hwait, hsucc, heq⟩ | ⟨hwait, hsucc, heq⟩ := cntDasRetryDo_cases i a
  · rw [heq, react_succ]
    exact h.tells fun hnot => absurd hwait hnot
  · have hnot : ¬ i.login.Refused rcRedirect a.kernel := by
      rw [← hrefused, hsucc]
      exact succ_ne_mqttRedirect
    rw [heq, react_succ]
    exact ⟨iff_of_true halt fun _ _ => hnot, fun _ => rfl⟩
  · have hretry : (dasLightReg i.login a).2.kernel.dasRetryTimes = a.kernel.dasRetryTimes :=
      (dasMqttlogin2das_delivered i.login _).dasRetryTimes
    rw [heq]
    refine (retryFailed_tells halt hup).congr ?_
    rw [hretry, ne_eq, hrefused]
    exact ⟨fun hok _ => hok, fun hok => hok hwait⟩

/-- One step keeps the alternation iff it is in turn. -/
theorem next_tells {a a' : Link} {s : Step} (h : Told a) (hnext : next a s = some a') :
    Tells (InTurn a s) a' := by
  cases next_took hnext with
  | stop msgs =>
      have hevents : events (accessStopYield msgs a).marks = events a.marks :=
        (deliver_delivered msgs a).events_eq
      constructor
      · rw [hevents]
        exact iff_of_true h.alternates trivial
      · intro hs
        rcases hs with hs | hs <;> exact absurd (show sdkCntUnredirect = _ from hs) (by decide)
  | offline i risk =>
      refine h.tells fun hnone => ?_
      rw [risk] at hnone
      cases hnone
  | lbs i _ state result =>
      refine (cntLbsRedirectDo_told h state result).tells fun _ _ => ⟨fun hs => ?_, fun hs => ?_⟩
      · exact absurd (state.symm.trans hs) (by decide)
      · exact absurd (state.symm.trans hs) (by decide)
  | reg i risk state =>
      obtain ⟨halt, hup⟩ := cntDasRegDo_tells i h state
      refine ⟨halt.trans ⟨fun hok _ hwait => ⟨fun _ => hok hwait, fun hs => ?_⟩,
        fun hok hwait => (hok risk hwait).1 state⟩, hup⟩
      exact absurd (state.symm.trans hs) (by decide)
  | work i _ state =>
      refine (cntDasWorkDo_tells i h state).tells fun _ _ => ⟨fun hs => ?_, fun hs => ?_⟩
      · exact absurd (state.symm.trans hs) (by decide)
      · exact absurd (state.symm.trans hs) (by decide)
  | retry i risk state =>
      obtain ⟨halt, hup⟩ := cntDasRetryDo_tells i h state
      refine ⟨halt.trans ⟨fun hok _ hwait => ⟨fun hs => ?_, fun _ => hok hwait⟩,
        fun hok hwait => (hok risk hwait).2 state⟩, hup⟩
      exact absurd (state.symm.trans hs) (by decide)
  | default i redirected dasReged dasBreak =>
      exact h.tells fun _ _ => ⟨fun hs => absurd hs redirected, fun hs => absurd hs dasBreak⟩

/-! ## Runs -/

theorem linkInit_told (serverName : CString) (serverPort : Int16) (devInfo : DevInfo)
    (devid masterKey : Bytes) : Told (linkInit serverName serverPort devInfo devid masterKey) := by
  refine ⟨trivial, fun hs => ?_⟩
  rcases hs with hs | hs <;> exact absurd (show sdkCntUnredirect = _ from hs) (by decide)

/-- In a run whose steps are all in turn the events alternate, and a step out of turn
ends that. -/
theorem events_alternate_in_turn (serverName : CString) (serverPort : Int16) (devInfo : DevInfo)
    (devid masterKey : Bytes) (a : Link)
    (h : Run.Reach next InTurn (linkInit serverName serverPort devInfo devid masterKey) a) :
    Alternates (events a.marks) ∧
      ∀ s a', next a s = some a' → (Alternates (events a'.marks) ↔ InTurn a s) := by
  have htold : Told a := h.invariant (linkInit_told _ _ _ _ _) fun _ _ _ hs hok hnext =>
    (next_tells hs hnext).told hok
  exact ⟨htold.alternates, fun _ _ hnext => (next_tells htold hnext).alternates⟩

/-- The broker refuses the login with `rc`. -/
def refusedInput (rc : UInt8) : Input := { sampleInput with login := sampleLogin (some rc) }

/-- Refused on the first registration. -/
theorem refused_run : ∃ a, [Step.yield sampleInput, .yield (refusedInput rcRedirect)].foldlM next
    sampleLink = some a ∧ events a.marks = [.break] := by
  have hrun : ([Step.yield sampleInput, .yield (refusedInput rcRedirect)].foldlM next
      sampleLink).map (fun a => events a.marks) = some [.break] := by decide +kernel
  exact Option.map_eq_some_iff.mp hrun

/-- The redirect is in turn, the refusal is not. -/
theorem events_alternate_until_refused :
    ∃ a a', next sampleLink (.yield sampleInput) = some a ∧ Alternates (events a.marks) ∧
      next a (.yield (refusedInput rcRedirect)) = some a' ∧
      ¬ InTurn a (.yield (refusedInput rcRedirect)) := by
  obtain ⟨b, hfold, hevents⟩ := refused_run
  obtain ⟨a, ha, hfold⟩ := Run.foldlM_cons_eq_some.mp hfold
  obtain ⟨b', hb, hfold⟩ := Run.foldlM_cons_eq_some.mp hfold
  cases hfold
  have hturn : InTurn sampleLink (.yield sampleInput) := by
    intro _ _
    exact ⟨fun hs => absurd (show sdkCntUnredirect = _ from hs) (by decide),
      fun hs => absurd (show sdkCntUnredirect = _ from hs) (by decide)⟩
  obtain ⟨halt, hstep⟩ := events_alternate_in_turn (.lit "lbs") 8666
    ⟨0, .sap, .strncpy (.lit "D1"), .strncpy (.lit "ABCDEF")⟩ (List.replicate 32 65)
    (List.replicate 16 65) a (.next .start hturn ha)
  refine ⟨a, b, ha, halt, hb, fun hin => ?_⟩
  have hbreak := (hstep _ _ hb).mpr hin
  rw [hevents] at hbreak
  exact absurd hbreak.1 (by decide)

/-- A run to the third of four retries. -/
def retries : List Step :=
  [.yield sampleInput, .yield sampleInput,
    .yield { sampleInput with work := ⟨[], true, false, [], false, false⟩ },
    .yield { sampleInput with login := sampleLogin none },
    .yield { sampleInput with login := sampleLogin none },
    .yield { sampleInput with login := sampleLogin none }]

/-- A break before the device was online, and two of them in the step of the last
retry. -/
theorem break_out_of_turn :
    (∃ a, [Step.yield sampleInput, .yield (refusedInput rcRedirect)].foldlM next sampleLink =
      some a ∧ events a.marks = [.break] ∧ ¬ Alternates (events a.marks)) ∧
    ∃ a, (retries ++ [Step.yield (refusedInput rcRedirect)]).foldlM next sampleLink = some a ∧
      events a.marks = [.break, .break, .online] ∧ ¬ Alternates (events a.marks) := by
  constructor
  · obtain ⟨a, ha, hevents⟩ := refused_run
    refine ⟨a, ha, hevents, fun halt => ?_⟩
    rw [hevents] at halt
    exact absurd halt.1 (by decide)
  · have hrun : ((retries ++ [Step.yield (refusedInput rcRedirect)]).foldlM next sampleLink).map
        (fun a => events a.marks) = some [.break, .break, .online] := by decide +kernel
    obtain ⟨a, ha, hevents⟩ := Option.map_eq_some_iff.mp hrun
    refine ⟨a, ha, hevents, fun halt => ?_⟩
    rw [hevents] at halt
    exact absurd halt.1 (by decide)

end EzIot.Access
