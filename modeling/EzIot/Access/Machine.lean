import EzIot.Lbs.Handshake

/-! # The access layer

`access_server_yield` carries the connection from the LBS to the DAS and keeps it
there. The results of the network, of timers and of allocations are inputs of a
step, and so are the messages that arrive while a call of the MQTT client waits for
the server. What a step does is written down as marks, newest first.
-/

namespace EzIot.Access

open CText CJson Kernel Lbs

/-- `sdk_kernel_event_type`, without the events of other layers. -/
inductive Event
  | online
  | switchover
  | reconnect
  | break
  | publishAck
deriving DecidableEq

inductive Mark
  /-- `broadcast_user_event`. -/
  | event (e : Event)
  /-- A redirect of the LBS that succeeded, with the address it brought. -/
  | lbsRedirect (info : DasInfo)
  /-- Calls of `das_reg`, `das_light_reg_v2` and `das_light_reg`, with the address
  they connect to. -/
  | dasReg (info : DasInfo)
  | dasLightRegV2 (info : DasInfo)
  | dasLightReg (info : DasInfo)
  /-- `cnt_state` becomes `sdk_cnt_das_break`. -/
  | lost
  /-- A command that names another LBS. -/
  | command (domainName : CField 64)
deriving DecidableEq

structure Link where
  kernel : SdkKernel
  marks : List Mark
deriving DecidableEq

def Link.mark (m : Mark) (a : Link) : Link := { a with marks := m :: a.marks }

def Link.update (f : SdkKernel → SdkKernel) (a : Link) : Link :=
  { a with kernel := f a.kernel }

/-! ## Commands of the server -/

/-- The commands of the access domain. The body of a redirect is given as what the
XML parser makes of it. -/
inductive Submsg
  | domainConfig (buf : Option Bytes)
  | riskConfig
  | offline
  | setLbsDomainName (domainName : Option (CField 64))
  | other

def busHandleDomainconfig (buf : Option Bytes) (k : SdkKernel) : SdkKernel :=
  match buf.bind cJSONParse with
  | none => k
  | some root =>
      match root.getObjectItem (ascii "KeepAlive") with
      | none => k
      | some keepalive =>
          match keepalive.getObjectItem (ascii "Interval") with
          | some (.number interval) =>
              { k with dasKeepaliveInterval := UInt32.ofInt interval.valueint }
          | _ => k

/-- What a redirect to another server does to the kernel. -/
def redirectTo (domainName : CField 64) (k : SdkKernel) : SdkKernel :=
  { k with
    serverInfo := { k.serverInfo with
      serverName := domainName
      serverIp := .strncpy (.lit "") }
    masterKey := List.replicate 16 0
    entrState := .switchover
    cntState := sdkCntUnredirect }

def busHandleDevRedirect (domainName : Option (CField 64)) (a : Link) : Link :=
  match domainName with
  | none => a
  | some name =>
      if a.kernel.serverInfo.serverName = name then a
      else (a.update (redirectTo name)).mark (.command name)

def addAccessRiskControl (k : SdkKernel) : SdkKernel := { k with accessRisk := .riskControl }

/-- `access_domain_bus_handle`. A risk message writes to the tables of the extensions
only. -/
def accessDomainBusHandle (a : Link) : Submsg → Link
  | .domainConfig buf => a.update (busHandleDomainconfig buf)
  | .riskConfig => a
  | .offline => a.update addAccessRiskControl
  | .setLbsDomainName name => busHandleDevRedirect name a
  | .other => a

def deliver (msgs : List Submsg) (a : Link) : Link := msgs.foldl accessDomainBusHandle a

/-! ## The DAS -/

/-- How `MQTTNetConnect` fails. -/
inductive DasConnectError
  | createSock
  | gethostbyname
  | connect

def DasConnectError.code : DasConnectError → Nat
  | .createSock => Code.createSockError
  | .gethostbyname => Code.netGethostbynameError
  | .connect => Code.netConnectError

inductive SerializeError
  | malloc
  | jsonFormat
  | crypto (e : CryptoError)

def SerializeError.code : SerializeError → Nat
  | .malloc => Code.mallocError
  | .jsonFormat => Code.jsonFormatError
  | .crypto e => e.code

/-- One login: the first two members are errors, `connack` is the return code of the
broker, if there is one. -/
structure Login where
  connect : Option DasConnectError
  serialize : Option SerializeError
  msgs : List Submsg
  connack : Option UInt8

/-- The return code of `das_mqttlogin2das` after `MQTTConnect`. -/
def connackCode : Option UInt8 → Nat
  | none => Code.callMqttConnect
  | some rc => if rc = 0 then Code.succ else Code.mqttErrorBegin + rc.toNat

def dasMqttlogin2das (l : Login) (a : Link) : Nat × Link :=
  match l.connect with
  | some e => (e.code, a)
  | none =>
      if unset a.kernel.devId then (Code.inputParamInvalid, a)
      else match l.serialize with
      | some e => (e.code, a)
      | none => (connackCode l.connack, deliver l.msgs a)

/-- The calls of `MQTTSubscribe` together. -/
structure Subscription where
  msgs : List Submsg
  granted : Bool

def dasSubscribeRevcTopic (s : Subscription) (a : Link) : Nat × Link :=
  (if s.granted then Code.succ else Code.callMqttSubError, deliver s.msgs a)

/-- A login and the subscription after it. -/
def loginAndSubscribe (l : Login) (s : Subscription) (a : Link) : Nat × Link :=
  let r := dasMqttlogin2das l a
  if r.1 = Code.succ then dasSubscribeRevcTopic s r.2 else r

/-- `das_unreg`: the answers to `MQTTUnsubscribe` are not looked at. -/
def dasUnreg (msgs : List Submsg) (a : Link) : Link := deliver msgs a

def dasReg (l : Login) (s : Subscription) (a : Link) : Nat × Link :=
  loginAndSubscribe l s (a.mark (.dasReg a.kernel.redirectDasInfo))

def dasLightRegV2 (l : Login) (s : Subscription) (a : Link) : Nat × Link :=
  loginAndSubscribe l s (a.mark (.dasLightRegV2 a.kernel.redirectDasInfo))

def dasLightReg (l : Login) (a : Link) : Nat × Link :=
  dasMqttlogin2das l (a.mark (.dasLightReg a.kernel.redirectDasInfo))

/-- `MQTTYield`, the heartbeat and the sending of queued messages. A message of the
third protocol version that leaves the queue is acknowledged. -/
structure DasWork where
  msgs : List Submsg
  failed : Bool
  heartbeatExpired : Bool
  sendMsgs : List Submsg
  sendReconnect : Bool
  acked : Bool

def dasYield (y : DasWork) (a : Link) : Nat × Link :=
  let a := deliver y.msgs a
  if y.failed then (Code.dasNeedReconnect, a)
  else if y.heartbeatExpired then (Code.dasNeedReconnect, a)
  else
    let a := deliver y.sendMsgs a
    if y.sendReconnect then (Code.dasNeedReconnect, a)
    else (Code.succ, if y.acked then a.mark (.event .publishAck) else a)

/-! ## The four states -/

structure Input where
  timerExpired : Bool
  crypto : Crypto
  world : World
  affair : Affair
  unregMsgs : List Submsg
  login : Login
  subscription : Subscription
  fastLogin : Login
  fastSubscription : Subscription
  work : DasWork

def resetTimes (k : SdkKernel) : SdkKernel := { k with lbsRedirectTimes := 0, dasRetryTimes := 0 }

/-- The state changes to `state` and both counters start again. -/
def enter (state : Nat) (k : SdkKernel) : SdkKernel := { resetTimes k with cntState := state }

/-- The counter of `cnt_lbs_redirect_do` after an error. -/
def nextLbsRedirectTimes (e : Nat) (times : UInt8) : UInt8 :=
  if e = Code.netConnectError ∨ e = Code.netGethostbynameError ∨ e = Code.authTypeNeedRematch then 1
  else if 60 ≤ times + 1 then 60
  else times + 1

/-- `cnt_lbs_redirect_do`. There is no result where C leaves the behaviour open. -/
def cntLbsRedirectDo (i : Input) (a : Link) : Option (Nat × Link) :=
  if a.kernel.lbsRedirectTimes ≠ 0 ∧ i.timerExpired = false then some (Code.succ, a)
  else
    match cntStateLbsRedirect i.crypto ⟨a.kernel, i.affair, i.world, []⟩ with
    | (.ok (), s) =>
        some (Code.succ, (Link.mk (enter sdkCntRedirected s.kernel) a.marks).mark
          (.lbsRedirect s.kernel.redirectDasInfo))
    | (.error (.code e), s) =>
        some (e, ⟨{ s.kernel with
          lbsRedirectTimes := nextLbsRedirectTimes e s.kernel.lbsRedirectTimes }, a.marks⟩)
    | (.error .fault, _) => none

/-- What `cnt_das_reg_do` does after a registration that succeeded. -/
def registered (a : Link) : Link :=
  let a := a.update (enter sdkCntDasReged)
  if a.kernel.entrState = .switchover then
    (a.mark (.event .switchover)).update fun k => { k with entrState := .normal }
  else a.mark (.event .online)

/-- `das_retry_times++ >= limit`, and what follows when it does. -/
def countRetry (limit : UInt8) (onLimit : Link → Link) (a : Link) : Link :=
  let a' := a.update fun k => { k with dasRetryTimes := k.dasRetryTimes + 1 }
  if limit ≤ a.kernel.dasRetryTimes then onLimit a' else a'

/-- The registration of `cnt_das_reg_do`. -/
def register (i : Input) (a : Link) : Nat × Link :=
  let r := dasReg i.login i.subscription (dasUnreg i.unregMsgs a)
  if r.1 = Code.mqttSessionExist then dasLightRegV2 i.fastLogin i.fastSubscription r.2 else r

def cntDasRegDo (i : Input) (a : Link) : Nat × Link :=
  if a.kernel.dasRetryTimes ≠ 0 ∧ i.timerExpired = false then (Code.succ, a)
  else
    let r := register i a
    (r.1, if r.1 = Code.succ then registered r.2
      else countRetry 5 (Link.update (enter sdkCntUnredirect)) r.2)

def cntDasWorkDo (i : Input) (a : Link) : Nat × Link :=
  let r := dasYield i.work a
  (r.1, if r.1 = Code.dasNeedReconnect then
    (r.2.update fun k => { k with cntState := sdkCntDasBreak }).mark .lost else r.2)

/-- `SDK_KERNEL_EVENT_BREAK`, and back to the LBS. -/
def breakOff (a : Link) : Link :=
  (a.mark (.event .break)).update (enter sdkCntUnredirect)

def cntDasRetryDo (i : Input) (a : Link) : Nat × Link :=
  if a.kernel.dasRetryTimes ≠ 0 ∧ i.timerExpired = false then (Code.succ, a)
  else
    let r := dasLightReg i.login a
    (r.1, if r.1 = Code.succ then
        (r.2.update (enter sdkCntDasReged)).mark (.event .reconnect)
      else countRetry 3 breakOff r.2)

/-! ## Steps -/

/-- The `switch` of `access_server_yield`. -/
def cntDo (i : Input) (a : Link) : Option (Nat × Link) :=
  if a.kernel.cntState = sdkCntUnredirect then cntLbsRedirectDo i a
  else if a.kernel.cntState = sdkCntRedirected then some (cntDasRegDo i a)
  else if a.kernel.cntState = sdkCntDasReged then some (cntDasWorkDo i a)
  else if a.kernel.cntState = sdkCntDasBreak then some (cntDasRetryDo i a)
  else some (Code.internalErr, a)

/-- The end of `access_server_yield`. -/
def react (r : Nat × Link) : Nat × Link :=
  (r.1, if r.1 = Code.mqttBlacklist then r.2.update addAccessRiskControl
    else if r.1 = Code.mqttRedirect then breakOff r.2 else r.2)

def accessServerYield (i : Input) (a : Link) : Option (Nat × Link) :=
  if a.kernel.accessRisk = .riskControl then some (Code.forceOffline, a)
  else (cntDo i a).map react

def accessStopYield (msgs : List Submsg) (a : Link) : Link :=
  (dasUnreg msgs a).update fun k => { k with cntState := sdkCntUnredirect }

inductive Step
  | yield (i : Input)
  | stop (msgs : List Submsg)

def next (a : Link) : Step → Option Link
  | .yield i => (accessServerYield i a).map Prod.snd
  | .stop msgs => some (accessStopYield msgs a)

inductive Took (a : Link) : Step → Link → Prop
  | stop (msgs : List Submsg) : Took a (.stop msgs) (accessStopYield msgs a)
  | offline (i : Input) (risk : a.kernel.accessRisk = .riskControl) : Took a (.yield i) a
  | lbs {r : Nat × Link} (i : Input) (risk : a.kernel.accessRisk = .noRiskControl)
      (state : a.kernel.cntState = sdkCntUnredirect) (result : cntLbsRedirectDo i a = some r) :
      Took a (.yield i) (react r).2
  | reg (i : Input) (risk : a.kernel.accessRisk = .noRiskControl)
      (state : a.kernel.cntState = sdkCntRedirected) :
      Took a (.yield i) (react (cntDasRegDo i a)).2
  | work (i : Input) (risk : a.kernel.accessRisk = .noRiskControl)
      (state : a.kernel.cntState = sdkCntDasReged) :
      Took a (.yield i) (react (cntDasWorkDo i a)).2
  | retry (i : Input) (risk : a.kernel.accessRisk = .noRiskControl)
      (state : a.kernel.cntState = sdkCntDasBreak) :
      Took a (.yield i) (react (cntDasRetryDo i a)).2
  | default (i : Input) (redirected : a.kernel.cntState ≠ sdkCntRedirected)
      (dasReged : a.kernel.cntState ≠ sdkCntDasReged)
      (dasBreak : a.kernel.cntState ≠ sdkCntDasBreak) : Took a (.yield i) a

theorem next_took {a a' : Link} {s : Step} (h : next a s = some a') : Took a s a' := by
  cases s with
  | stop msgs =>
      cases h
      exact .stop msgs
  | yield i =>
      simp only [next, accessServerYield] at h
      cases hrisk : a.kernel.accessRisk with
      | riskControl =>
          rw [if_pos hrisk] at h
          cases h
          exact .offline i hrisk
      | noRiskControl =>
          simp only [hrisk, reduceCtorEq, if_false, Option.map_map, Option.map_eq_some_iff,
            Function.comp_apply, cntDo] at h
          obtain ⟨r, hdo, rfl⟩ := h
          split at hdo
          · exact .lbs i hrisk ‹_› hdo
          · split at hdo
            · cases hdo
              exact .reg i hrisk ‹_›
            · split at hdo
              · cases hdo
                exact .work i hrisk ‹_›
              · split at hdo
                · cases hdo
                  exact .retry i hrisk ‹_›
                · cases hdo
                  exact .default i ‹_› ‹_› ‹_›

end EzIot.Access
