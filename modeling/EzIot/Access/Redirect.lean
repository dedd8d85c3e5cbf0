import EzIot.Access.Events

/-! # Redirect commands

A command that names another LBS is carried out in the middle of a call of the MQTT
client, and the handler that made the call sets the state again when the call
returns. The marks tell whether a command has been followed by a redirect of the LBS
and by a registration at the address it brought.
-/

namespace EzIot.Access

open CText Kernel Lbs Program

/-! ## What a command asks for -/

/-- `owed`: no registration has succeeded since the last command; `address`: what the
LBS has answered since then; `target`: where the last login went; `honoured`: every
registration after a command was a switchover to the new address. -/
structure Order where
  owed : Bool
  address : Option DasInfo
  target : Option DasInfo
  honoured : Bool

def Order.meet (o : Order) (e : Event) : Order :=
  { o with
    owed := false
    honoured := o.honoured && (!o.owed || (decide (e = .switchover) && o.address.isSome &&
      decide (o.target = o.address))) }

def Order.step (o : Order) : Mark → Order
  | .event .online => o.meet .online
  | .event .switchover => o.meet .switchover
  | .event .reconnect => o.meet .reconnect
  | .event .break => o
  | .event .publishAck => o
  | .lbsRedirect info => { o with address := some info }
  | .dasReg info => { o with target := some info }
  | .dasLightRegV2 info => { o with target := some info }
  | .dasLightReg info => { o with target := some info }
  | .lost => o
  | .command _ => { o with owed := true, address := none }

def order : List Mark → Order
  | [] => ⟨false, none, none, true⟩
  | m :: ms => (order ms).step m

/-- One of the messages names a server other than `serverName`. -/
def Redirects (msgs : List Submsg) (serverName : CField 64) : Prop :=
  ∃ name, .setLbsDomainName (some name) ∈ msgs ∧ serverName ≠ name

theorem redirects_append (msgs msgs' : List Submsg) (serverName : CField 64) :
    Redirects (msgs ++ msgs') serverName ↔
      Redirects msgs serverName ∨ Redirects msgs' serverName := by
  simp only [Redirects, List.mem_append]
  constructor
  · rintro ⟨name, hmem | hmem, hne⟩
    · exact .inl ⟨name, hmem, hne⟩
    · exact .inr ⟨name, hmem, hne⟩
  · rintro (⟨name, hmem, hne⟩ | ⟨name, hmem, hne⟩)
    · exact ⟨name, .inl hmem, hne⟩
    · exact ⟨name, .inr hmem, hne⟩

theorem not_redirects_nil (serverName : CField 64) : ¬ Redirects [] serverName := by
  rintro ⟨name, hmem, -⟩
  cases hmem

/-! ## Messages -/

/-- The marks say the same about commands. -/
structure SameOrder (o o' : Order) : Prop where
  owed : o'.owed = o.owed
  address : o'.address = o.address
  honoured : o'.honoured = o.honoured

structure Quietly (a b : Link) : Prop where
  serverName : b.kernel.serverInfo.serverName = a.kernel.serverInfo.serverName
  cntState : b.kernel.cntState = a.kernel.cntState
  entrState : b.kernel.entrState = a.kernel.entrState
  masterKey : b.kernel.masterKey = a.kernel.masterKey
  order : SameOrder (order a.marks) (order b.marks)

structure Commanded (a b : Link) : Prop where
  cntState : b.kernel.cntState = sdkCntUnredirect
  entrState : b.kernel.entrState = .switchover
  masterKey : b.kernel.masterKey = List.replicate 16 0
  owed : (order b.marks).owed = true
  address : (order b.marks).address = none
  honoured : (order b.marks).honoured = (order a.marks).honoured

/-- What has been done when the messages `msgs` have arrived. -/
structure Heard (msgs : List Submsg) (a b : Link) : Prop where
  redirectDasInfo : b.kernel.redirectDasInfo = a.kernel.redirectDasInfo
  quiet : ¬ Redirects msgs a.kernel.serverInfo.serverName → Quietly a b
  commanded : Redirects msgs a.kernel.serverInfo.serverName → Commanded a b

theorem SameOrder.trans {o o' o'' : Order} (h : SameOrder o o') (h' : SameOrder o' o'') :
    SameOrder o o'' :=
  ⟨h'.owed.trans h.owed, h'.address.trans h.address, h'.honoured.trans h.honoured⟩

theorem Quietly.trans {a b c : Link} (h : Quietly a b) (h' : Quietly b c) : Quietly a c :=
  ⟨h'.serverName.trans h.serverName, h'.cntState.trans h.cntState, h'.entrState.trans h.entrState,
    h'.masterKey.trans h.masterKey, h.order.trans h'.order⟩

theorem Commanded.quiet {a b c : Link} (h : Commanded a b) (h' : Quietly b c) :
    Commanded a c :=
  ⟨h'.cntState.trans h.cntState, h'.entrState.trans h.entrState, h'.masterKey.trans h.masterKey,
    h'.order.owed.trans h.owed, h'.order.address.trans h.address,
    h'.order.honoured.trans h.honoured⟩

theorem Heard.append {msgs msgs' : List Submsg} {a b c : Link} (h : Heard msgs a b)
    (h' : Heard msgs' b c) : Heard (msgs ++ msgs') a c := by
  refine ⟨h'.redirectDasInfo.trans h.redirectDasInfo, ?_, ?_⟩
  · rw [redirects_append]
    intro hnone
    have hfirst := h.quiet fun hmsgs => hnone (.inl hmsgs)
    refine hfirst.trans (h'.quiet ?_)
    rw [hfirst.serverName]
    exact fun hmsgs => hnone (.inr hmsgs)
  · rw [redirects_append]
    intro hsome
    by_cases hmsgs : Redirects msgs a.kernel.serverInfo.serverName
    · have hfirst := h.commanded hmsgs
      by_cases hmsgs' : Redirects msgs' b.kernel.serverInfo.serverName
      · have hsecond := h'.commanded hmsgs'
        exact { hsecond with honoured := hsecond.honoured.trans hfirst.honoured }
      · exact hfirst.quiet (h'.quiet hmsgs')
    · have hfirst := h.quiet hmsgs
      have hsecond := h'.commanded (by
        rw [hfirst.serverName]
        exact hsome.resolve_left hmsgs)
      exact { hsecond with honoured := hsecond.honoured.trans hfirst.order.honoured }

theorem heard_of_quiet {msgs : List Submsg} {a b : Link}
    (hnone : ∀ serverName, ¬ Redirects msgs serverName)
    (hinfo : b.kernel.redirectDasInfo = a.kernel.redirectDasInfo) (hquiet : Quietly a b) :
    Heard msgs a b :=
  ⟨hinfo, fun _ => hquiet, fun h => absurd h (hnone _)⟩

theorem Quietly.rfl {a : Link} : Quietly a a :=
  ⟨Eq.refl _, Eq.refl _, Eq.refl _, Eq.refl _, Eq.refl _, Eq.refl _, Eq.refl _⟩

theorem Heard.nil {a : Link} : Heard [] a a :=
  heard_of_quiet not_redirects_nil rfl .rfl

/-- The mark of a login. -/
theorem Heard.target {msgs : List Submsg} {a b : Link} (h : Heard msgs a b) {m : Mark}
    {info : DasInfo} (hm : m = .dasReg info ∨ m = .dasLightRegV2 info ∨ m = .dasLightReg info) :
    Heard msgs a (b.mark m) := by
  have hquiet : Quietly b (b.mark m) := by
    rcases hm with rfl | rfl | rfl <;> exact ⟨rfl, rfl, rfl, rfl, rfl, rfl, rfl⟩
  exact ⟨h.redirectDasInfo, fun hnone => (h.quiet hnone).trans hquiet,
    fun hsome => (h.commanded hsome).quiet hquiet⟩

theorem accessDomainBusHandle_heard (a : Link) (m : Submsg) :
    Heard [m] a (accessDomainBusHandle a m) := by
  cases m with
  | domainConfig buf =>
      obtain ⟨interval, heq⟩ := busHandleDomainconfig_eq buf a.kernel
      have hdo : accessDomainBusHandle a (.domainConfig buf) =
          a.update fun k => { k with dasKeepaliveInterval := interval } :=
        congrArg (fun k => Link.mk k a.marks) heq
      rw [hdo]
      exact heard_of_quiet (by simp [Redirects]) rfl ⟨rfl, rfl, rfl, rfl, rfl, rfl, rfl⟩
  | riskConfig => exact heard_of_quiet (by simp [Redirects]) rfl .rfl
  | offline => exact heard_of_quiet (by simp [Redirects]) rfl ⟨rfl, rfl, rfl, rfl, rfl, rfl, rfl⟩
  | setLbsDomainName domainName =>
      cases domainName with
      | none => exact heard_of_quiet (by simp [Redirects]) rfl .rfl
      | some name =>
          have hredirects : Redirects [.setLbsDomainName (some name)]
              a.kernel.serverInfo.serverName ↔ a.kernel.serverInfo.serverName ≠ name := by
            simp [Redirects]
          by_cases heq : a.kernel.serverInfo.serverName = name
          · have hdo : accessDomainBusHandle a (.setLbsDomainName (some name)) = a := if_pos heq
            rw [hdo]
            exact ⟨rfl, fun _ => .rfl, fun h => absurd heq (hredirects.mp h)⟩
          · have hdo : accessDomainBusHandle a (.setLbsDomainName (some name)) =
                (a.update (redirectTo name)).mark (.command name) := if_neg heq
            rw [hdo]
            exact ⟨rfl, fun h => absurd (hredirects.mpr heq) h,
              fun _ => ⟨rfl, rfl, rfl, rfl, rfl, rfl⟩⟩
  | other => exact heard_of_quiet (by simp [Redirects]) rfl .rfl

theorem deliver_heard (msgs : List Submsg) (a : Link) : Heard msgs a (deliver msgs a) := by
  induction msgs generalizing a with
  | nil => exact .nil
  | cons m msgs ih => exact (accessDomainBusHandle_heard a m).append (ih _)

/-- The last login went to the address that the kernel holds. -/
def Aimed (a : Link) : Prop := (order a.marks).target = some a.kernel.redirectDasInfo

theorem Delivered.aimed {a b : Link} (h : Delivered a b) (haimed : Aimed a) : Aimed b := by
  obtain ⟨names, hmarks, -⟩ := h.commands
  rw [Aimed, hmarks, h.redirectDasInfo]
  clear hmarks
  induction names with
  | nil => exact haimed
  | cons name names ih => exact ih

/-! ## Logins -/

def Login.Accepted (l : Login) (k : SdkKernel) : Prop :=
  l.connect = none ∧ unset k.devId = false ∧ l.serialize = none ∧ l.connack = some 0

theorem login_accepted_iff (l : Login) (a : Link) :
    (dasMqttlogin2das l a).1 = Code.succ ↔ l.Accepted a.kernel := by
  simp only [dasMqttlogin2das, Login.Accepted]
  cases hconnect : l.connect with
  | some e => cases e <;> simp <;> decide
  | none =>
      cases hdev : unset a.kernel.devId with
      | true => simp; decide
      | false =>
          cases hserialize : l.serialize with
          | some e =>
              cases e with
              | malloc => simp; decide
              | jsonFormat => simp; decide
              | crypto e => cases e <;> simp <;> decide
          | none =>
              cases hconnack : l.connack with
              | none => simp; decide
              | some rc =>
                  simp only [connackCode]
                  by_cases hzero : rc = 0
                  · simp [hzero]
                  · simp [hzero, Code.succ, Code.mqttErrorBegin]

theorem Login.accepted_congr {l : Login} {k k' : SdkKernel} (h : k'.devId = k.devId) :
    l.Accepted k' ↔ l.Accepted k := by
  rw [Login.Accepted, Login.Accepted, h]

theorem login_heard (l : Login) (a : Link) :
    ∃ msgs, Heard msgs a (dasMqttlogin2das l a).2 ∧
      (l.connect = none ∧ unset a.kernel.devId = false ∧ l.serialize = none → msgs = l.msgs) := by
  simp only [dasMqttlogin2das]
  cases l.connect with
  | some e => exact ⟨[], .nil, fun h => absurd h.1 (by simp)⟩
  | none =>
      cases unset a.kernel.devId with
      | true => exact ⟨[], .nil, fun h => absurd h.2.1 (by simp)⟩
      | false =>
          cases l.serialize with
          | some e => exact ⟨[], .nil, fun h => absurd h.2.2 (by simp)⟩
          | none => exact ⟨l.msgs, deliver_heard _ _, fun _ => rfl⟩

theorem loginAndSubscribe_succ_iff (l : Login) (s : Subscription) (a : Link) :
    (loginAndSubscribe l s a).1 = Code.succ ↔ l.Accepted a.kernel ∧ s.granted = true := by
  rw [← login_accepted_iff]
  simp only [loginAndSubscribe]
  by_cases hsucc : (dasMqttlogin2das l a).1 = Code.succ
  · cases hgranted : s.granted <;> simp [hsucc, dasSubscribeRevcTopic, hgranted]
    decide
  · simp [hsucc]

theorem loginAndSubscribe_heard (l : Login) (s : Subscription) (a : Link) :
    ∃ msgs, Heard msgs a (loginAndSubscribe l s a).2 ∧
      (l.Accepted a.kernel → msgs = l.msgs ++ s.msgs) ∧
      (l.Refused rcSessionExist a.kernel → msgs = l.msgs) := by
  obtain ⟨msgs, hheard, hall⟩ := login_heard l a
  simp only [loginAndSubscribe]
  split
  · rename_i hsucc
    have haccepted := (login_accepted_iff l a).mp hsucc
    refine ⟨msgs ++ s.msgs, hheard.append (deliver_heard _ _), fun h => ?_, fun h => ?_⟩
    · rw [hall ⟨h.1, h.2.1, h.2.2.1⟩]
    · exact absurd (haccepted.2.2.2.symm.trans h.2.2.2) (by decide)
  · rename_i hsucc
    refine ⟨msgs, hheard, fun h => ?_, fun h => hall ⟨h.1, h.2.1, h.2.2.1⟩⟩
    exact absurd ((login_accepted_iff l a).mpr h) hsucc

def Registers (i : Input) (k : SdkKernel) : Prop :=
  (i.login.Accepted k ∧ i.subscription.granted = true) ∨
    (i.login.Refused rcSessionExist k ∧ i.fastLogin.Accepted k ∧ i.fastSubscription.granted = true)

/-- The messages that arrive during a registration that succeeds. -/
def Input.registerMsgs (i : Input) : List Submsg :=
  i.unregMsgs ++ if i.login.connack = some 0 then i.login.msgs ++ i.subscription.msgs
    else i.login.msgs ++ (i.fastLogin.msgs ++ i.fastSubscription.msgs)

theorem Login.not_accepted_of_refused {l : Login} {k : SdkKernel} {rc : UInt8} (hrc : rc ≠ 0)
    (h : l.Refused rc k) : ¬ l.Accepted k := by
  intro haccepted
  have heq : some rc = some 0 := h.2.2.2.symm.trans haccepted.2.2.2
  exact hrc (Option.some.inj heq)

theorem register_succ_iff (i : Input) (a : Link) :
    (register i a).1 = Code.succ ↔ Registers i a.kernel := by
  have hfirst : (dasReg i.login i.subscription (dasUnreg i.unregMsgs a)).1 = Code.succ ↔
      i.login.Accepted a.kernel ∧ i.subscription.granted = true :=
    (loginAndSubscribe_succ_iff _ _ _).trans
      (and_congr_left' (Login.accepted_congr (deliver_delivered i.unregMsgs a).devId))
  have hexists := dasReg_refused_iff i a (show rcSessionExist ≠ 0 by decide)
  simp only [register, Registers]
  split
  · rename_i hcode
    have hexist := hexists.mp hcode
    have hnot := Login.not_accepted_of_refused (show rcSessionExist ≠ 0 by decide) hexist
    have hsecond : (dasLightRegV2 i.fastLogin i.fastSubscription
        (dasReg i.login i.subscription (dasUnreg i.unregMsgs a)).2).1 = Code.succ ↔
        i.fastLogin.Accepted a.kernel ∧ i.fastSubscription.granted = true :=
      (loginAndSubscribe_succ_iff _ _ _).trans
        (and_congr_left' (Login.accepted_congr (dasReg_devId i a)))
    rw [hsecond]
    tauto
  · rename_i hcode
    have hnone : ¬ i.login.Refused rcSessionExist a.kernel := fun h => hcode (hexists.mpr h)
    rw [hfirst]
    tauto

theorem register_heard (i : Input) (a : Link) :
    ∃ msgs, Heard msgs a (register i a).2 ∧ (Registers i a.kernel → msgs = i.registerMsgs) := by
  have hdev : (dasUnreg i.unregMsgs a).kernel.devId = a.kernel.devId :=
    (deliver_delivered i.unregMsgs a).devId
  have hunreg : Heard i.unregMsgs a ((dasUnreg i.unregMsgs a).mark
      (.dasReg (dasUnreg i.unregMsgs a).kernel.redirectDasInfo)) :=
    (deliver_heard i.unregMsgs a).target (.inl rfl)
  obtain ⟨msgs, hfirst, haccepted, hexist⟩ := loginAndSubscribe_heard i.login i.subscription
    ((dasUnreg i.unregMsgs a).mark (.dasReg (dasUnreg i.unregMsgs a).kernel.redirectDasInfo))
  have hexists := dasReg_refused_iff i a (show rcSessionExist ≠ 0 by decide)
  simp only [register]
  split
  · rename_i hcode
    have hrefused := hexists.mp hcode
    obtain ⟨msgs', hsecond, haccepted', -⟩ := loginAndSubscribe_heard i.fastLogin
      i.fastSubscription ((dasReg i.login i.subscription (dasUnreg i.unregMsgs a)).2.mark
        (.dasLightRegV2
          (dasReg i.login i.subscription (dasUnreg i.unregMsgs a)).2.kernel.redirectDasInfo))
    refine ⟨i.unregMsgs ++ msgs ++ msgs',
      ((hunreg.append hfirst).target (.inr (.inl rfl))).append hsecond, fun hreg => ?_⟩
    rcases hreg with ⟨haccept, -⟩ | ⟨-, hfast, -⟩
    · exact absurd haccept
        (Login.not_accepted_of_refused (show rcSessionExist ≠ 0 by decide) hrefused)
    · have hconnack : i.login.connack ≠ some 0 := by
        rw [hrefused.2.2.2]
        decide
      rw [Input.registerMsgs, if_neg hconnack, List.append_assoc,
        hexist ((Login.refused_congr hdev).mpr hrefused),
        haccepted' ((Login.accepted_congr (dasReg_devId i a)).mpr hfast)]
  · rename_i hcode
    refine ⟨i.unregMsgs ++ msgs, hunreg.append hfirst, fun hreg => ?_⟩
    rcases hreg with ⟨haccept, -⟩ | ⟨hrefused, -⟩
    · rw [Input.registerMsgs, if_pos haccept.2.2.2,
        haccepted ((Login.accepted_congr hdev).mpr haccept)]
    · exact absurd (hexists.mpr hrefused) hcode

theorem register_aimed (i : Input) (a : Link) : Aimed (register i a).2 := by
  simp only [register]
  split
  · exact (loginAndSubscribe_delivered _ _ _).aimed rfl
  · exact (loginAndSubscribe_delivered _ _ _).aimed rfl

/-! ## Work -/

def DasWork.NeedReconnect (y : DasWork) : Prop :=
  y.failed = true ∨ y.heartbeatExpired = true ∨ y.sendReconnect = true

def DasWork.heard (y : DasWork) : List Submsg :=
  if y.failed = true ∨ y.heartbeatExpired = true then y.msgs else y.msgs ++ y.sendMsgs

theorem dasYield_code (y : DasWork) (a : Link) :
    (dasYield y a).1 = Code.dasNeedReconnect ↔ y.NeedReconnect := by
  simp only [dasYield, DasWork.NeedReconnect]
  cases y.failed with
  | true => simp
  | false =>
      cases y.heartbeatExpired with
      | true => simp
      | false =>
          cases y.sendReconnect with
          | true => simp
          | false => simp; decide

theorem dasYield_heard (y : DasWork) (a : Link) : Heard y.heard a (dasYield y a).2 := by
  have hfirst := deliver_heard y.msgs a
  have hsecond := hfirst.append (deliver_heard y.sendMsgs (deliver y.msgs a))
  simp only [dasYield, DasWork.heard]
  cases y.failed with
  | true => simpa using hfirst
  | false =>
      cases y.heartbeatExpired with
      | true => simpa using hfirst
      | false =>
          cases y.sendReconnect with
          | true => simpa using hsecond
          | false =>
              cases y.acked with
              | false => simpa using hsecond
              | true =>
                  have hack : Heard [] (deliver y.sendMsgs (deliver y.msgs a))
                      ((deliver y.sendMsgs (deliver y.msgs a)).mark (.event .publishAck)) :=
                    heard_of_quiet not_redirects_nil rfl ⟨rfl, rfl, rfl, rfl, rfl, rfl, rfl⟩
                  simpa using hsecond.append hack

/-! ## One step -/

/-- What the commands of a run are owed: the state they set is kept until the next
registration, and that one is a switchover at a new address. -/
structure CommandKept (a : Link) : Prop where
  honoured : (order a.marks).honoured = true
  entrState : (order a.marks).owed = true → a.kernel.entrState = .switchover
  cntState : (order a.marks).owed = true → (order a.marks).address = none →
    a.kernel.cntState = sdkCntUnredirect

/-- The invariant: a command that is owed is on its way through the LBS. -/
structure Followed (a : Link) : Prop where
  honoured : (order a.marks).honoured = true
  entrState : (order a.marks).owed = true → a.kernel.entrState = .switchover
  cntState : (order a.marks).owed = true → a.kernel.cntState = sdkCntUnredirect ∨
    (a.kernel.cntState = sdkCntRedirected ∧
      (order a.marks).address = some a.kernel.redirectDasInfo)

/-- No command arrives in a call after which the connection counts as lost or as
registered. -/
def Heeds (a : Link) : Step → Prop
  | .stop _ => True
  | .yield i => a.kernel.accessRisk = .noRiskControl →
      (a.kernel.cntState = sdkCntDasReged → i.work.NeedReconnect →
        ¬ Redirects i.work.heard a.kernel.serverInfo.serverName) ∧
      (a.kernel.cntState = sdkCntRedirected → ¬ Waiting i a.kernel → Registers i a.kernel →
        ¬ Redirects i.registerMsgs a.kernel.serverInfo.serverName) ∧
      (a.kernel.cntState = sdkCntDasBreak → ¬ Waiting i a.kernel → i.login.Accepted a.kernel →
        ¬ Redirects i.login.msgs a.kernel.serverInfo.serverName)

theorem Followed.commandKept {a : Link} (h : Followed a) : CommandKept a := by
  refine ⟨h.honoured, h.entrState, fun howed hnone => ?_⟩
  rcases h.cntState howed with hs | ⟨-, haddress⟩
  · exact hs
  · exact absurd (hnone.symm.trans haddress) (by simp)

theorem Followed.heard {msgs : List Submsg} {a b : Link} (h : Followed a) (h' : Heard msgs a b) :
    Followed b := by
  by_cases hmsgs : Redirects msgs a.kernel.serverInfo.serverName
  · have hcmd := h'.commanded hmsgs
    exact ⟨hcmd.honoured.trans h.honoured, fun _ => hcmd.entrState, fun _ => .inl hcmd.cntState⟩
  · have hquiet := h'.quiet hmsgs
    refine ⟨hquiet.order.honoured.trans h.honoured, fun howed => ?_, fun howed => ?_⟩
    · rw [hquiet.order.owed] at howed
      exact hquiet.entrState.trans (h.entrState howed)
    · rw [hquiet.order.owed] at howed
      rw [hquiet.cntState, hquiet.order.address, h'.redirectDasInfo]
      exact h.cntState howed

/-- Back to the LBS, with marks that say nothing about commands. -/
theorem Followed.unredirect {a b : Link} (h : Followed a)
    (hentr : b.kernel.entrState = a.kernel.entrState) (horder : order b.marks = order a.marks)
    (hstate : b.kernel.cntState = sdkCntUnredirect) : Followed b := by
  refine ⟨?_, fun howed => ?_, fun _ => .inl hstate⟩
  · rw [horder]
    exact h.honoured
  · rw [horder] at howed
    exact hentr.trans (h.entrState howed)

theorem Followed.react {r : Nat × Link} (h : Followed r.2) : Followed (react r).2 := by
  simp only [Access.react]
  split
  · exact ⟨h.honoured, h.entrState, h.cntState⟩
  · split
    · exact h.unredirect rfl rfl rfl
    · exact h

/-- Nothing is owed in a state other than those of the LBS. -/
theorem Followed.not_owed {a : Link} (h : Followed a) (hun : a.kernel.cntState ≠ sdkCntUnredirect)
    (hre : a.kernel.cntState ≠ sdkCntRedirected) : (order a.marks).owed = false := by
  cases howed : (order a.marks).owed with
  | false => rfl
  | true =>
      rcases h.cntState howed with hs | ⟨hs, -⟩
      · exact absurd hs hun
      · exact absurd hs hre

structure Follows (ok : Prop) (a' : Link) : Prop where
  followed : ok → Followed a'
  heeded : CommandKept a' → ok

theorem Followed.follows {ok : Prop} {a : Link} (h : Followed a) (hok : ok) : Follows ok a :=
  ⟨fun _ => h, fun _ => hok⟩

theorem cntLbsRedirectDo_followed {i : Input} {a : Link} {r : Nat × Link} (h : Followed a)
    (hstate : a.kernel.cntState = sdkCntUnredirect) (hdo : cntLbsRedirectDo i a = some r) :
    Followed r.2 := by
  simp only [cntLbsRedirectDo] at hdo
  split at hdo
  · cases hdo
    exact h
  · have houtside := cntStateLbsRedirect_outside (c := i.crypto) ⟨a.kernel, i.affair, i.world, []⟩
    split at hdo
    · rename_i s heq
      cases hdo
      rw [heq] at houtside
      have hentr : s.kernel.entrState = a.kernel.entrState :=
        (congrArg SdkKernel.entrState houtside :)
      exact ⟨h.honoured, fun howed => hentr.trans (h.entrState howed), fun _ => .inr ⟨rfl, rfl⟩⟩
    · rename_i e s heq
      cases hdo
      rw [heq] at houtside
      exact h.unredirect (congrArg SdkKernel.entrState houtside :) rfl
        ((congrArg SdkKernel.cntState houtside :).trans hstate)
    · cases hdo

theorem countRetry_followed {limit : UInt8} {onLimit : Link → Link} {a : Link} (h : Followed a)
    (hlimit : ∀ b, Followed b → Followed (onLimit b)) : Followed (countRetry limit onLimit a) := by
  have hcounted : Followed (a.update fun k => { k with dasRetryTimes := k.dasRetryTimes + 1 }) :=
    ⟨h.honoured, h.entrState, h.cntState⟩
  simp only [countRetry]
  split
  · exact hlimit _ hcounted
  · exact hcounted

/-- A registration that succeeds after a command is not at a new address. -/
theorem not_kept_of_commanded {a b c : Link} {e : Event} (h : Commanded a b)
    (horder : order c.marks = (order b.marks).meet e) : ¬ CommandKept c := by
  intro hkept
  have hhonoured := hkept.honoured
  rw [horder] at hhonoured
  simp [Order.meet, h.owed, h.address] at hhonoured

theorem registered_order (a : Link) :
    order (registered a).marks = (order a.marks).meet
      (if a.kernel.entrState = .switchover then .switchover else .online) := by
  simp only [registered]
  have hentr : (a.update (enter sdkCntDasReged)).kernel.entrState = a.kernel.entrState := rfl
  rw [hentr]
  by_cases hs : a.kernel.entrState = .switchover
  · rw [if_pos hs, if_pos hs]
    rfl
  · rw [if_neg hs, if_neg hs]
    rfl

theorem owed_registered (a : Link) : (order (registered a).marks).owed = false := by
  rw [registered_order]
  rfl

/-- What is owed when a registration succeeds is met by it. -/
theorem registered_followed {a : Link} (h : Followed a) (haimed : Aimed a)
    (hstate : a.kernel.cntState ≠ sdkCntUnredirect) : Followed (registered a) := by
  have howed := owed_registered a
  refine ⟨?_, fun ho => ?_, fun ho => ?_⟩
  · rw [registered_order]
    cases hbefore : (order a.marks).owed with
    | false => simp [Order.meet, hbefore, h.honoured]
    | true =>
        have hswitch := h.entrState hbefore
        rcases h.cntState hbefore with hs | ⟨-, haddress⟩
        · exact absurd hs hstate
        · have htarget : (order a.marks).target = _ := haimed
          simp [Order.meet, hswitch, hbefore, haddress, htarget, h.honoured]
  · exact absurd (howed.symm.trans ho) (by simp)
  · exact absurd (howed.symm.trans ho) (by simp)

theorem cntDasRegDo_follows {a : Link} (i : Input) (h : Followed a)
    (hstate : a.kernel.cntState = sdkCntRedirected) :
    Follows (¬ Waiting i a.kernel → Registers i a.kernel →
      ¬ Redirects i.registerMsgs a.kernel.serverInfo.serverName) (react (cntDasRegDo i a)).2 := by
  obtain ⟨msgs, hheard, hmsgs⟩ := register_heard i a
  have hlate := h.heard hheard
  obtain ⟨hwait, heq⟩ | ⟨hwait, hsucc, heq⟩ | ⟨hwait, hsucc, heq⟩ := cntDasRegDo_cases i a
  · rw [heq]
    exact h.react.follows fun hnot => absurd hwait hnot
  · have hreg := (register_succ_iff i a).mp hsucc
    rw [hmsgs hreg] at hheard
    rw [heq, react_succ]
    constructor
    · intro hok
      refine registered_followed hlate (register_aimed i a) ?_
      rw [(hheard.quiet (hok hwait hreg)).cntState, hstate]
      decide
    · intro hkept _ _ hredirects
      exact not_kept_of_commanded (hheard.commanded hredirects) (registered_order _) hkept
  · have hfollowed : Followed (countRetry 5 (Link.update (enter sdkCntUnredirect))
        (register i a).2) :=
      countRetry_followed hlate fun _ hb => hb.unredirect rfl rfl rfl
    rw [heq]
    exact hfollowed.react.follows fun _ hreg => absurd ((register_succ_iff i a).mpr hreg) hsucc

theorem cntDasWorkDo_follows {a : Link} (i : Input) (h : Followed a)
    (hstate : a.kernel.cntState = sdkCntDasReged) :
    Follows (i.work.NeedReconnect → ¬ Redirects i.work.heard a.kernel.serverInfo.serverName)
      (react (cntDasWorkDo i a)).2 := by
  have hheard := dasYield_heard i.work a
  have hcode := dasYield_code i.work a
  have hlate := h.heard hheard
  by_cases hneed : i.work.NeedReconnect
  · have hdo : (react (cntDasWorkDo i a)).2 = ((dasYield i.work a).2.update fun k =>
        { k with cntState := sdkCntDasBreak }).mark .lost := by
      simp only [cntDasWorkDo, hcode.mpr hneed]
      rfl
    rw [hdo]
    constructor
    · intro hok
      have hnone : (order a.marks).owed = false :=
        h.not_owed (by rw [hstate]; decide) (by rw [hstate]; decide)
      have howed : (order (dasYield i.work a).2.marks).owed = false :=
        (hheard.quiet (hok hneed)).order.owed.trans hnone
      exact ⟨hlate.honoured, fun ho => absurd (howed.symm.trans ho) (by simp),
        fun ho => absurd (howed.symm.trans ho) (by simp)⟩
    · intro hkept _ hredirects
      have hcmd := hheard.commanded hredirects
      have hun : sdkCntDasBreak = sdkCntUnredirect := hkept.cntState hcmd.owed hcmd.address
      exact absurd hun (by decide)
  · have hdo : cntDasWorkDo i a = dasYield i.work a := by
      simp only [cntDasWorkDo, if_neg (mt hcode.mp hneed)]
    rw [hdo]
    exact hlate.react.follows fun hn => absurd hn hneed

theorem cntDasRetryDo_follows {a : Link} (i : Input) (h : Followed a)
    (hstate : a.kernel.cntState = sdkCntDasBreak) :
    Follows (¬ Waiting i a.kernel → i.login.Accepted a.kernel →
      ¬ Redirects i.login.msgs a.kernel.serverInfo.serverName) (react (cntDasRetryDo i a)).2 := by
  have hsucc_iff : (dasLightReg i.login a).1 = Code.succ ↔ i.login.Accepted a.kernel :=
    login_accepted_iff i.login _
  obtain ⟨msgs, hlogin, hall⟩ := login_heard i.login
    (a.mark (.dasLightReg a.kernel.redirectDasInfo))
  have hheard : Heard msgs a (dasLightReg i.login a).2 :=
    (Heard.nil.target (.inr (.inr rfl))).append hlogin
  have hlate := h.heard hheard
  obtain ⟨hwait, heq⟩ | ⟨hwait, hsucc, heq⟩ | ⟨hwait, hsucc, heq⟩ := cntDasRetryDo_cases i a
  · rw [heq]
    exact h.react.follows fun hnot => absurd hwait hnot
  · have haccepted := hsucc_iff.mp hsucc
    rw [hall ⟨haccepted.1, haccepted.2.1, haccepted.2.2.1⟩] at hheard
    rw [heq, react_succ]
    constructor
    · intro hok
      have hnone : (order a.marks).owed = false :=
        h.not_owed (by rw [hstate]; decide) (by rw [hstate]; decide)
      have howed : (order (dasLightReg i.login a).2.marks).owed = false :=
        (hheard.quiet (hok hwait haccepted)).order.owed.trans hnone
      refine ⟨?_, (fun ho => nomatch ho), (fun ho => nomatch ho)⟩
      show ((order (dasLightReg i.login a).2.marks).meet .reconnect).honoured = true
      simp [Order.meet, howed, hlate.honoured]
    · intro hkept _ _ hredirects
      exact not_kept_of_commanded (e := .reconnect) (hheard.commanded hredirects) rfl hkept
  · have hfollowed : Followed (countRetry 3 breakOff (dasLightReg i.login a).2) :=
      countRetry_followed hlate fun _ hb => hb.unredirect rfl rfl rfl
    rw [heq]
    exact hfollowed.react.follows fun _ haccepted => absurd (hsucc_iff.mpr haccepted) hsucc

theorem next_follows {a a' : Link} {s : Step} (h : Followed a) (hnext : next a s = some a') :
    Follows (Heeds a s) a' := by
  cases next_took hnext with
  | stop msgs =>
      have hstopped : Followed (accessStopYield msgs a) :=
        (h.heard (deliver_heard msgs a)).unredirect rfl rfl rfl
      exact hstopped.follows trivial
  | offline i risk =>
      refine h.follows fun hnone => ?_
      rw [risk] at hnone
      cases hnone
  | lbs i _ state result =>
      refine (cntLbsRedirectDo_followed h state result).react.follows fun _ => ⟨?_, ?_, ?_⟩
      all_goals
        intro hs
        exact absurd (state.symm.trans hs) (by decide)
  | reg i risk state =>
      obtain ⟨hfollowed, hheeded⟩ := cntDasRegDo_follows i h state
      refine ⟨fun hok => hfollowed ((hok risk).2.1 state),
        fun hkept _ => ⟨fun hs => ?_, fun _ => hheeded hkept, fun hs => ?_⟩⟩
      all_goals exact absurd (state.symm.trans hs) (by decide)
  | work i risk state =>
      obtain ⟨hfollowed, hheeded⟩ := cntDasWorkDo_follows i h state
      refine ⟨fun hok => hfollowed ((hok risk).1 state),
        fun hkept _ => ⟨fun _ => hheeded hkept, fun hs => ?_, fun hs => ?_⟩⟩
      all_goals exact absurd (state.symm.trans hs) (by decide)
  | retry i risk state =>
      obtain ⟨hfollowed, hheeded⟩ := cntDasRetryDo_follows i h state
      refine ⟨fun hok => hfollowed ((hok risk).2.2 state),
        fun hkept _ => ⟨fun hs => ?_, fun hs => ?_, fun _ => hheeded hkept⟩⟩
      all_goals exact absurd (state.symm.trans hs) (by decide)
  | default i redirected dasReged dasBreak =>
      exact h.follows fun _ => ⟨fun hs => absurd hs dasReged, fun hs => absurd hs redirected,
        fun hs => absurd hs dasBreak⟩

/-! ## Runs -/

theorem linkInit_followed (serverName : CString) (serverPort : Int16) (devInfo : DevInfo)
    (devid masterKey : Bytes) : Followed (linkInit serverName serverPort devInfo devid masterKey) :=
  ⟨rfl, (fun ho => nomatch ho), (fun ho => nomatch ho)⟩

theorem commanded_iff {a : Link} (i : Input) (hstate : a.kernel.cntState = sdkCntDasReged)
    (hrisk : a.kernel.accessRisk = .noRiskControl)
    (hredirects : Redirects i.work.heard a.kernel.serverInfo.serverName) :
    ∃ a', next a (.yield i) = some a' ∧
      (a'.kernel.cntState = sdkCntUnredirect ∧ a'.kernel.entrState = .switchover ∧
        a'.kernel.masterKey = List.replicate 16 0 ↔ ¬ i.work.NeedReconnect) := by
  have hcmd := (dasYield_heard i.work a).commanded hredirects
  have hcode := dasYield_code i.work a
  have hnext : next a (.yield i) = some (react (cntDasWorkDo i a)).2 := by
    have hun : a.kernel.cntState ≠ sdkCntUnredirect := by rw [hstate]; decide
    have hre : a.kernel.cntState ≠ sdkCntRedirected := by rw [hstate]; decide
    simp only [next, accessServerYield, hrisk, reduceCtorEq, if_false, cntDo, if_neg hun,
      if_neg hre, if_pos hstate]
    rfl
  refine ⟨_, hnext, ?_⟩
  by_cases hneed : i.work.NeedReconnect
  · have hdo : (react (cntDasWorkDo i a)).2.kernel.cntState = sdkCntDasBreak := by
      simp only [cntDasWorkDo, hcode.mpr hneed]
      rfl
    rw [hdo]
    exact iff_of_false (fun h => absurd h.1 (by decide)) fun hn => hn hneed
  · have hsucc : dasYield i.work a = (Code.succ, (dasYield i.work a).2) := by
      obtain ⟨b, -, heq | heq | heq⟩ := dasYield_delivered i.work a
      · exact absurd (hcode.mp (congrArg Prod.fst heq)) hneed
      · rw [heq]
      · rw [heq]
    have hdo : (react (cntDasWorkDo i a)).2 = (dasYield i.work a).2 := by
      rw [cntDasWorkDo, hsucc]
      rfl
    rw [hdo]
    exact iff_of_true ⟨hcmd.cntState, hcmd.entrState, hcmd.masterKey⟩ hneed

/-- A command that reaches a registered device is carried out unless the same call ends
with the demand to connect again; and in a run whose steps heed the commands none of
them is lost, while a step that does not loses one. -/
theorem redirect_command_kept (serverName : CString) (serverPort : Int16) (devInfo : DevInfo)
    (devid masterKey : Bytes) (a : Link) :
    (∀ i : Input, a.kernel.cntState = sdkCntDasReged →
      a.kernel.accessRisk = .noRiskControl →
      Redirects i.work.heard a.kernel.serverInfo.serverName →
      ∃ a', next a (.yield i) = some a' ∧
        (a'.kernel.cntState = sdkCntUnredirect ∧ a'.kernel.entrState = .switchover ∧
          a'.kernel.masterKey = List.replicate 16 0 ↔ ¬ i.work.NeedReconnect)) ∧
    (Run.Reach next Heeds (linkInit serverName serverPort devInfo devid masterKey) a →
      CommandKept a ∧ ∀ s a', next a s = some a' → (CommandKept a' ↔ Heeds a s)) := by
  refine ⟨fun i hstate hrisk hredirects => commanded_iff i hstate hrisk hredirects, ?_⟩
  intro h
  have hfollowed : Followed a := h.invariant (linkInit_followed _ _ _ _ _)
    fun _ _ _ hs hok hnext => (next_follows hs hnext).followed hok
  refine ⟨hfollowed.commandKept, fun s a' hnext => ⟨(next_follows hfollowed hnext).heeded, ?_⟩⟩
  exact fun hok => ((next_follows hfollowed hnext).followed hok).commandKept

/-- The server names another LBS; `failed`: and then closes the connection. -/
def commandInput (failed : Bool) : Input :=
  { sampleInput with
    work := ⟨[.setLbsDomainName (some (.strncpy (.lit "other")))], failed, false, [], false, false⟩ }

theorem heeds_sampleInput (a : Link) : Heeds a (.yield sampleInput) := by
  intro _
  exact ⟨fun _ _ => not_redirects_nil _, fun _ _ _ => not_redirects_nil _,
    fun _ _ _ => not_redirects_nil _⟩

/-- A command that is carried out. -/
theorem redirect_command_kept_registered :
    ∃ a a', [Step.yield sampleInput, .yield sampleInput].foldlM next sampleLink = some a ∧
      CommandKept a ∧ next a (.yield (commandInput false)) = some a' ∧
      a'.kernel.cntState = sdkCntUnredirect ∧ a'.kernel.entrState = .switchover ∧
      a'.kernel.masterKey = List.replicate 16 0 := by
  have hrun : ([Step.yield sampleInput, .yield sampleInput].foldlM next sampleLink).map
      (fun a => (a.kernel.cntState, a.kernel.accessRisk, a.kernel.serverInfo.serverName)) =
      some (sdkCntDasReged, .noRiskControl, .strncpy (.lit "lbs")) := by decide +kernel
  obtain ⟨a, ha, heq⟩ := Option.map_eq_some_iff.mp hrun
  have hstate : a.kernel.cntState = sdkCntDasReged := congrArg Prod.fst heq
  have hrisk : a.kernel.accessRisk = .noRiskControl := congrArg (fun p => p.2.1) heq
  have hname : a.kernel.serverInfo.serverName = .strncpy (.lit "lbs") :=
    congrArg (fun p => p.2.2) heq
  have hredirects : Redirects (commandInput false).work.heard a.kernel.serverInfo.serverName := by
    rw [hname]
    exact ⟨.strncpy (.lit "other"), by simp [DasWork.heard, commandInput], by decide +kernel⟩
  have hreach := ha
  obtain ⟨b, hb, hreach⟩ := Run.foldlM_cons_eq_some.mp hreach
  obtain ⟨b', hb', hreach⟩ := Run.foldlM_cons_eq_some.mp hreach
  cases hreach
  obtain ⟨hcommand, hrun⟩ := redirect_command_kept (.lit "lbs") 8666
    ⟨0, .sap, .strncpy (.lit "D1"), .strncpy (.lit "ABCDEF")⟩ (List.replicate 32 65)
    (List.replicate 16 65) a
  obtain ⟨a', hnext, hiff⟩ := hcommand (commandInput false) hstate hrisk hredirects
  have hkept := (hrun (.next (.next .start (heeds_sampleInput _) hb) (heeds_sampleInput _) hb')).1
  exact ⟨a, a', ha, hkept, hnext, hiff.mpr (by simp [DasWork.NeedReconnect, commandInput])⟩

/-- The connection is closed after the command: the device goes back to the server it
was to leave, and a reconnect is told. -/
theorem redirect_command_lost :
    ∃ a a' a'', [Step.yield sampleInput, .yield sampleInput].foldlM next sampleLink = some a ∧
      a.kernel.cntState = sdkCntDasReged ∧
      Redirects (commandInput true).work.heard a.kernel.serverInfo.serverName ∧
      next a (.yield (commandInput true)) = some a' ∧ a'.kernel.cntState ≠ sdkCntUnredirect ∧
      next a' (.yield sampleInput) = some a'' ∧ events a''.marks = [.reconnect, .online] ∧
      ¬ CommandKept a'' := by
  have hrun : ([Step.yield sampleInput, .yield sampleInput].foldlM next sampleLink).bind
      (fun a => (next a (.yield (commandInput true))).bind fun a' =>
        (next a' (.yield sampleInput)).map fun a'' =>
          (a.kernel.cntState, a.kernel.serverInfo.serverName, a'.kernel.cntState,
            events a''.marks, (order a''.marks).honoured)) =
      some (sdkCntDasReged, .strncpy (.lit "lbs"), sdkCntDasBreak, [.reconnect, .online], false) := by
    decide +kernel
  obtain ⟨a, ha, hrun⟩ := Option.bind_eq_some_iff.mp hrun
  obtain ⟨a', ha', hrun⟩ := Option.bind_eq_some_iff.mp hrun
  obtain ⟨a'', ha'', hrun⟩ := Option.map_eq_some_iff.mp hrun
  simp only [Prod.mk.injEq] at hrun
  obtain ⟨hstate, hname, hbreak, hevents, hhonoured⟩ := hrun
  refine ⟨a, a', a'', ha, hstate, ?_, ha', ?_, ha'', hevents, fun hkept => ?_⟩
  · rw [hname]
    exact ⟨.strncpy (.lit "other"), by simp [DasWork.heard, commandInput], by decide +kernel⟩
  · rw [hbreak]
    decide
  · exact absurd (hhonoured.symm.trans hkept.honoured) (by decide)

end EzIot.Access
