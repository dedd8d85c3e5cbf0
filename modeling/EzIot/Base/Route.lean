import EzIot.CJson.Edit
import EzIot.Kernel.Message
import EzIot.Lib.Program
import EzIot.Lib.Run

/-! # The commands of the base domain

The platform tells a device whom it belongs to, asks for proofs of possession and sends the
address of a time server. Six kinds of commands are taken apart here, some as markup and some
as an object; two of them are answered. The parser of the markup is a parameter.
-/

namespace EzIot.Base

open CText CJson Kernel Program Run

/-! ## Markup -/

/-- A node of `ezxml` with texts in `τ`. The root of a text that is none has no name. -/
inductive Xml (τ : Type)
  | node (name : Option CString) (attrs : List (CString × CString)) (txt : τ)
      (children : List (Xml τ))

namespace Xml

section

variable {τ σ : Type}

def name : Xml τ → Option CString
  | node name _ _ _ => name

def txt : Xml τ → τ
  | node _ _ txt _ => txt

def child (key : CString) : Xml τ → Option (Xml τ)
  | node _ _ _ children => children.find? fun c => decide (c.name = some key)

def attr (key : CString) : Xml τ → Option CString
  | node _ attrs _ _ => (attrs.find? fun a => decide (a.1 = key)).map Prod.snd

mutual

/-- The tree with its texts read. -/
def map (f : τ → σ) : Xml τ → Xml σ
  | node name attrs txt children => node name attrs (f txt) (mapList f children)

def mapList (f : τ → σ) : List (Xml τ) → List (Xml σ)
  | [] => []
  | x :: xs => x.map f :: mapList f xs

end

end

end Xml

/-- What the text of a node points to: `ezxml_set_txt` copies nothing. -/
inductive XmlText
  | held (s : CString)
  /-- an array of a function that has returned, and what was written there -/
  | left (s : CString)

/-- A text that is read; `stale` is what stands where an array was. -/
def XmlText.read (stale : CString) : XmlText → CString
  | .held s => s
  | .left _ => stale

/-- `ezxml_parse_str`, `ezxml_toxml` and how `cJSON` prints a number. -/
structure BaseLib where
  parse : Option Bytes → UInt32 → Option (Xml CString)
  toXml : Xml CString → Bytes
  printNumber : Rat → Bytes

/-! ## The module -/

def kCenPlt2PuDomainConfig : Int32 := 0x1
def kPu2CenPltGetUserListRsp : Int32 := 0x3446
def kCenPlt2PuSetUserIdReq : Int32 := 0x4947
def kPu2CenPltBindUserWithTokenRsp : Int32 := 0x3803
def pu2CenPltQueryFeatureProfileReq : UInt32 := 0x3870
def pu2CenPltQueryFeatureProfileRsp : Int32 := 0x3871
def kCenPlt2PuBindUserTouchReq : Int32 := 0x4F14
def kCenPlt2PuBindUserTouchRsp : Int32 := 0x4F15

def baseDomainId : UInt32 := 1100
def baseDomainVer : CString := .lit "v2.0.0"

/-- `CIVIL_RESULT_GENERAL_PARSE_FAILED` and `CIVIL_RESULT_GENERAL_SYSTEM_ERROR`. -/
def parseFailed : Int := 3
def systemError : Int := 4

/-- The result of a query for a device that is bound to nobody. -/
def notBound : Int := 0x101c02

/-- `ez_base_ntp_info_t`. -/
structure NtpInfo where
  host : CField 64
  port : Int
  interval : Int
  timezone : CField 16
deriving DecidableEq

inductive BaseEvent
  | binding (userId : CField 32)
  | unbinding
  | bindingChallenge (challengeCode validityPeriod : Int)
  | ntpInfo (info : NtpInfo)
deriving DecidableEq

/-- The callbacks of the module; functions are numbered. -/
structure BaseState where
  gPfunc : Option Nat
  gProfileRspFunc : Option Nat
  gBaseIsInited : Bool
deriving DecidableEq

/-- What a command makes the module do. -/
structure BaseOut where
  events : List BaseEvent
  sent : List Pubmsg
  -- the calls of the function that waits for a profile
  profiles : List (Nat × Option Bytes)
deriving DecidableEq

def BaseOut.none : BaseOut := ⟨[], [], []⟩

inductive BaseFault
  -- a call through a null pointer
  | nullCallback
  -- a text is copied from a null pointer
  | nullText
deriving DecidableEq

abbrev BaseM (α : Type) := Program BaseOut BaseFault α

section Commands

variable (lib : BaseLib) (s : BaseState) (notice : BaseEvent → Int) (built : Bool)
  (stale : CString)

/-- `base_notice_get()(event, ..)`. -/
def raise (event : BaseEvent) : BaseM Int := do
  if s.gPfunc = none then stop .nullCallback
  else do
    write fun out => { out with events := out.events ++ [event] }
    pure (notice event)

def dev2cloudMsgSend (buf : Bytes) (cmdId : UInt32) (response : Bool) (seq : UInt32) : BaseM Unit :=
  write fun out => { out with sent := out.sent ++ [{
    msgResponse := response
    msgQos := .t0
    msgSeq := seq
    msgBody := buf
    msgDomainId := baseDomainId
    msgCommandId := cmdId
    commandVer := .strncpy baseDomainVer }] }

/-- A text of a structure, copied into a field that was zeroed. -/
def copyText {n : Nat} (v : Value) (name : String) : BaseM (CField (n + 1)) :=
  match v.stringElement name with
  | none => stop .nullText
  | some text => pure (.strncpy text)

def cloud2devSetNtpinfoReq (buf : Option Bytes) : BaseM Unit :=
  match (buf.bind cJSONParse).bind (Value.getObjectItem (ascii "NTP")) with
  | none => pure ()
  | some ntp => do
      let host ← copyText ntp "Addr"
      let timezone ← copyText ntp "Timezone"
      let _ ← raise s notice (.ntpInfo {
        host := host
        port := ntp.intElement "Port"
        interval := (ntp.intElement "Interval").tdiv 60
        timezone := timezone })
      pure ()

/-- `xml_make_rsp`. The text of the result is its array `buf`, which is gone when it returns. -/
def xmlMakeRsp (result : Int) : Xml XmlText :=
  .node (some (.lit "Response")) [] (.held (.lit ""))
    [.node (some (.lit "Result")) [] (.left (.ofMem (decimalInt result))) []]

def jsonMakeRsp (result : Int) : Value := .object [(ascii "result", .number (.ofInt result))]

/-- `cloud2dev_xml_req_bushandle`; `built` says whether there is memory for the response, and
`stale` what `ezxml_toxml` finds where the array of `xml_make_rsp` was. -/
def cloud2devXmlReqBushandle (rspCmd : UInt32) (seq : UInt32) (proc : BaseM Int) : BaseM Unit := do
  let result ← proc
  if built then
    dev2cloudMsgSend (lib.toXml ((xmlMakeRsp result).map (XmlText.read stale))) rspCmd true seq
  else pure ()

def cloud2devJsonReqBushandle (rspCmd : UInt32) (seq : UInt32) (proc : BaseM Int) : BaseM Unit := do
  let result ← proc
  if built then dev2cloudMsgSend (printValue lib.printNumber (jsonMakeRsp result)) rspCmd true seq
  else pure ()

/-- The root of a body with a certain name. -/
def rootNamed (name : CString) (buf : Option Bytes) (len : UInt32) : Option (Xml CString) :=
  (lib.parse buf len).filter fun root => decide (root.name = some name)

def baseProtocolBindStatusNoticeReq (buf : Option Bytes) (len : UInt32) : BaseM Int :=
  match (rootNamed lib (.lit "Request") buf len).bind (Xml.child (.lit "UserId")) with
  | none => pure parseFailed
  | some userId => do
      if userId.txt.val = [] then do
        let _ ← raise s notice .unbinding
        pure 0
      else do
        let _ ← raise s notice (.binding (.strncpy userId.txt))
        pure 0

/-- `base_protocol_bind_status_query_rsp`. Its result is only logged. -/
def baseProtocolBindStatusQueryRsp (buf : Option Bytes) (len : UInt32) : BaseM Unit :=
  match rootNamed lib (.lit "Response") buf len with
  | none => pure ()
  | some root =>
      match root.child (.lit "Result") with
      | none => pure ()
      | some result => do
          if atoi result.txt.val = notBound then do
            let _ ← raise s notice .unbinding
            pure ()
          else
            match root.child (.lit "User") with
            | none => do
                let _ ← raise s notice .unbinding
                pure ()
            | some user =>
                match user.attr (.lit "Id") with
                | none => stop .nullText
                | some id => do
                    let _ ← raise s notice (.binding (.strncpy id))
                    pure ()

/-- The numbers `token` and `bindPeriod`. -/
def challengeNumbers (root : Value) : Option (Dbl × Dbl) :=
  match root.getObjectItem (ascii "token"), root.getObjectItem (ascii "bindPeriod") with
  | some (.number token), some (.number bindPeriod) => some (token, bindPeriod)
  | _, _ => none

def baseProtocolBindChallengeReq (buf : Option Bytes) : BaseM Int :=
  match (buf.bind cJSONParse).bind challengeNumbers with
  | none => pure parseFailed
  | some x => do
      let rv ← raise s notice (.bindingChallenge x.1.valueint x.2.valueint)
      if rv ≠ 0 then pure systemError
      else pure 0

def baseProtocolQueryProfileRsp (buf : Option Bytes) : BaseM Unit :=
  match s.gProfileRspFunc with
  | none => stop .nullCallback
  | some func => write fun out => { out with profiles := out.profiles ++ [(func, buf)] }

def baseExtendDataRouteCb (submsg : Option Submsg) : BaseM Unit :=
  match submsg with
  | none => pure ()
  | some m =>
      if m.msgCommandId = kCenPlt2PuDomainConfig then cloud2devSetNtpinfoReq s notice m.buf
      else if m.msgCommandId = kCenPlt2PuSetUserIdReq then
        cloud2devXmlReqBushandle lib built stale kCenPlt2PuSetUserIdReq.toUInt32 m.msgSeq
          (baseProtocolBindStatusNoticeReq lib s notice m.buf m.bufLen)
      else if m.msgCommandId = kPu2CenPltGetUserListRsp then
        baseProtocolBindStatusQueryRsp lib s notice m.buf m.bufLen
      else if m.msgCommandId = kPu2CenPltBindUserWithTokenRsp then pure ()
      else if m.msgCommandId = pu2CenPltQueryFeatureProfileRsp then
        baseProtocolQueryProfileRsp s m.buf
      else if m.msgCommandId = kCenPlt2PuBindUserTouchReq then
        cloud2devJsonReqBushandle lib built kCenPlt2PuBindUserTouchRsp.toUInt32 m.msgSeq
          (baseProtocolBindChallengeReq s notice m.buf)
      else pure ()

end Commands

/-! ## Runs -/

inductive BaseInput
  | init (pfunc : Option Nat) (loaded : Int)
  | deinit
  | profileQuery (reqMsg : CString) (funcRsp : Option Nat)
  | recv (submsg : Option Submsg) (notice : BaseEvent → Int) (built : Bool) (stale : CString)

/-- `ez_iot_base_init`; `loaded` is the result of `base_extern_init`. -/
def BaseState.init (s : BaseState) (pfunc : Option Nat) (loaded : Int) : BaseState :=
  if pfunc = none ∨ loaded ≠ 0 then s else { s with gPfunc := pfunc, gBaseIsInited := true }

/-- `base_protocol_query_profile_req`. -/
def BaseState.profileQuery (s : BaseState) (reqMsg : CString) (funcRsp : Option Nat) :
    BaseState × BaseOut :=
  ({ s with gProfileRspFunc := funcRsp },
    (dev2cloudMsgSend reqMsg.val pu2CenPltQueryFeatureProfileReq false 0 .none).2)

/-- A command that is received. There is nothing where the module crashes. -/
def BaseState.recv (lib : BaseLib) (s : BaseState) (submsg : Option Submsg)
    (notice : BaseEvent → Int) (built : Bool) (stale : CString) : Option (BaseState × BaseOut) :=
  match baseExtendDataRouteCb lib s notice built stale submsg .none with
  | (.ok _, out) => some (s, out)
  | (.error _, _) => none

def BaseState.run (lib : BaseLib) (s : BaseState) : BaseInput → Option (BaseState × BaseOut)
  | .init pfunc loaded => some (s.init pfunc loaded, .none)
  | .deinit => some ({ s with gBaseIsInited := false }, .none)
  | .profileQuery reqMsg funcRsp => some (s.profileQuery reqMsg funcRsp)
  | .recv submsg notice built stale => s.recv lib submsg notice built stale

def BaseState.step (lib : BaseLib) (s : BaseState) (i : BaseInput) : Option BaseState :=
  (s.run lib i).map Prod.fst

/-- The module behind a successful `ez_iot_base_init`. -/
def BaseState.started (pfunc : Nat) : BaseState :=
  (⟨none, none, false⟩ : BaseState).init (some pfunc) 0

/-! ## What is meant -/

section Meant

variable (lib : BaseLib) (m : Submsg)

def UserIdRequest : Prop :=
  ∃ root, lib.parse m.buf m.bufLen = some root ∧ root.name = some (.lit "Request") ∧
    (root.child (.lit "UserId")).isSome

def UserListResponse : Prop :=
  ∃ root, lib.parse m.buf m.bufLen = some root ∧ root.name = some (.lit "Response") ∧
    (root.child (.lit "Result")).isSome

def BindingMessage : Prop :=
  (m.msgCommandId = kCenPlt2PuSetUserIdReq ∧ UserIdRequest lib m) ∨
    (m.msgCommandId = kPu2CenPltGetUserListRsp ∧ UserListResponse lib m)

def TouchRequest (code period : Int) : Prop :=
  ∃ root token bindPeriod, m.buf.bind cJSONParse = some root ∧
    root.getObjectItem (ascii "token") = some (.number token) ∧
    root.getObjectItem (ascii "bindPeriod") = some (.number bindPeriod) ∧
    token.valueint = code ∧ bindPeriod.valueint = period

def responseTo (cmdId : UInt32) (body : Bytes) : Pubmsg where
  msgResponse := true
  msgQos := .t0
  msgSeq := m.msgSeq
  msgBody := body
  msgDomainId := baseDomainId
  msgCommandId := cmdId
  commandVer := .strncpy baseDomainVer

def BaseEvent.isBindStatus : BaseEvent → Bool
  | .binding _ => true
  | .unbinding => true
  | .bindingChallenge _ _ => false
  | .ntpInfo _ => false

def xmlResult (body : Bytes) : Option Int :=
  ((rootNamed lib (.lit "Response") (some body) body.length.toUInt32).bind
    (Xml.child (.lit "Result"))).map fun result => atoi result.txt.val

def jsonResult (body : Bytes) : Option Int :=
  match (cJSONParse body).bind (Value.getObjectItem (ascii "result")) with
  | some (.number x) => some x.valueint
  | _ => none

/-- A command is answered if it is a request, and the response says success if it is one that
is accepted; a message about the binding raises one event about it. -/
structure Handled (notice : BaseEvent → Int) (out : BaseOut) : Prop where
  setUserId : m.msgCommandId = kCenPlt2PuSetUserIdReq → ∃ body result,
    out.sent = [responseTo m kCenPlt2PuSetUserIdReq.toUInt32 body] ∧
      xmlResult lib body = some result ∧ (result = 0 ↔ UserIdRequest lib m)
  bindTouch : m.msgCommandId = kCenPlt2PuBindUserTouchReq → ∃ body result,
    out.sent = [responseTo m kCenPlt2PuBindUserTouchRsp.toUInt32 body] ∧
      jsonResult body = some result ∧
      (result = 0 ↔ ∃ code period, TouchRequest m code period ∧
        notice (.bindingChallenge code period) = 0)
  binding : BindingMessage lib m → ∃ event, out.events.filter BaseEvent.isBindStatus = [event]

def RouteSound (s : BaseState) (i : BaseInput) : Prop :=
  ∃ s' out, s.run lib i = some (s', out) ∧
    ∀ m notice built stale, i = .recv (some m) notice built stale → Handled lib m notice out

def responseXml (text : CString) : Xml CString :=
  .node (some (.lit "Response")) [] (.lit "") [.node (some (.lit "Result")) [] text []]

/-- What the libraries are trusted with: a response is parsed back with its text, and the text
of an integer is its decimal. -/
structure Trusted : Prop where
  xml : ∀ text, ∃ root result,
    lib.parse (some (lib.toXml (responseXml text)))
        (lib.toXml (responseXml text)).length.toUInt32 = some root ∧
      root.name = some (.lit "Response") ∧ root.child (.lit "Result") = some result ∧
      result.txt = text
  integral : ∀ i : Int, i.natAbs < 10 ^ 15 → lib.printNumber i = decimalInt i

/-! ## When it is -/

def NtpTexts : Prop :=
  ∀ ntp, (m.buf.bind cJSONParse).bind (Value.getObjectItem (ascii "NTP")) = some ntp →
    ntp.stringElement "Addr" ≠ none ∧ ntp.stringElement "Timezone" ≠ none

def UserNamed : Prop :=
  ∀ root result user, lib.parse m.buf m.bufLen = some root → root.name = some (.lit "Response") →
    root.child (.lit "Result") = some result → atoi result.txt.val ≠ notBound →
    root.child (.lit "User") = some user → user.attr (.lit "Id") ≠ none

/-- A profile has been asked for, texts that are copied are there, and a response can be built;
where the array of a result was there stands the number zero or not, as the request is one or
not. -/
structure CommandOk (s : BaseState) (built : Bool) (stale : CString) : Prop where
  profile : m.msgCommandId = pu2CenPltQueryFeatureProfileRsp → s.gProfileRspFunc ≠ none
  ntp : m.msgCommandId = kCenPlt2PuDomainConfig → NtpTexts m
  user : m.msgCommandId = kPu2CenPltGetUserListRsp → UserNamed lib m
  built : m.msgCommandId = kCenPlt2PuSetUserIdReq ∨ m.msgCommandId = kCenPlt2PuBindUserTouchReq →
    built = true
  stale : m.msgCommandId = kCenPlt2PuSetUserIdReq → (atoi stale.val = 0 ↔ UserIdRequest lib m)

def RouteOk (s : BaseState) (i : BaseInput) : Prop :=
  ∀ m notice built stale, i = .recv (some m) notice built stale → CommandOk lib m s built stale

end Meant

/-! ## The commands -/

section Handled

variable {lib : BaseLib} {s : BaseState} {m : Submsg} {notice : BaseEvent → Int} {built : Bool}
  {stale : CString}

theorem raise_run (hp : s.gPfunc ≠ none) (event : BaseEvent) (out : BaseOut) :
    raise s notice event out =
      (.ok (notice event), { out with events := out.events ++ [event] }) := by
  unfold raise
  rw [if_neg hp]
  rfl

theorem rootNamed_eq_some {name : CString} {buf : Option Bytes} {len : UInt32}
    {root : Xml CString} : rootNamed lib name buf len = some root ↔
      lib.parse buf len = some root ∧ root.name = some name := by
  rw [rootNamed, Option.filter_eq_some_iff, decide_eq_true_iff]

theorem userIdRequest_iff : UserIdRequest lib m ↔
    ((rootNamed lib (.lit "Request") m.buf m.bufLen).bind (Xml.child (.lit "UserId"))).isSome := by
  simp only [Option.isSome_bind, Option.any_eq_true, rootNamed_eq_some, UserIdRequest, and_assoc]

theorem bindStatusNotice_run (lib : BaseLib) (m : Submsg) (notice : BaseEvent → Int)
    (hp : s.gPfunc ≠ none) : ∃ result events,
    baseProtocolBindStatusNoticeReq lib s notice m.buf m.bufLen .none =
        (.ok result, ⟨events, [], []⟩) ∧
      (result = 0 ↔ UserIdRequest lib m) ∧
      (UserIdRequest lib m → ∃ event, events.filter BaseEvent.isBindStatus = [event]) := by
  rw [userIdRequest_iff]
  unfold baseProtocolBindStatusNoticeReq
  cases (rootNamed lib (.lit "Request") m.buf m.bufLen).bind (Xml.child (.lit "UserId")) with
  | none => exact ⟨parseFailed, [], rfl, by decide, fun h => by cases h⟩
  | some userId =>
      by_cases hempty : userId.txt.val = []
      · refine ⟨0, [.unbinding], ?_, by simp, fun _ => ⟨.unbinding, rfl⟩⟩
        simp only [if_pos hempty]
        rw [bind_run, raise_run hp]
        rfl
      · refine ⟨0, [.binding (.strncpy userId.txt)], ?_, by simp, fun _ => ⟨_, rfl⟩⟩
        simp only [if_neg hempty]
        rw [bind_run, raise_run hp]
        rfl

theorem challengeNumbers_eq_some {root : Value} {x : Dbl × Dbl} :
    challengeNumbers root = some x ↔ root.getObjectItem (ascii "token") = some (.number x.1) ∧
      root.getObjectItem (ascii "bindPeriod") = some (.number x.2) := by
  unfold challengeNumbers
  split
  · next token bindPeriod htoken hperiod =>
      rw [htoken, hperiod]
      constructor
      · intro h
        cases h
        exact ⟨rfl, rfl⟩
      · rintro ⟨ht, hb⟩
        cases ht
        cases hb
        rfl
  · next hother =>
      refine iff_of_false (by simp) ?_
      rintro ⟨ht, hb⟩
      exact hother x.1 x.2 ht hb

theorem touchRequest_iff {code period : Int} : TouchRequest m code period ↔
    ∃ x, (m.buf.bind cJSONParse).bind challengeNumbers = some x ∧
      x.1.valueint = code ∧ x.2.valueint = period := by
  constructor
  · rintro ⟨root, token, bindPeriod, hroot, htoken, hperiod, hcode⟩
    refine ⟨(token, bindPeriod), ?_, hcode⟩
    rw [hroot, Option.bind_some]
    exact challengeNumbers_eq_some.mpr ⟨htoken, hperiod⟩
  · rintro ⟨x, hx, hcode⟩
    obtain ⟨root, hroot, hnumbers⟩ := Option.bind_eq_some_iff.mp hx
    obtain ⟨htoken, hperiod⟩ := challengeNumbers_eq_some.mp hnumbers
    exact ⟨root, x.1, x.2, hroot, htoken, hperiod, hcode⟩

theorem bindChallenge_run (m : Submsg) (notice : BaseEvent → Int) (hp : s.gPfunc ≠ none) :
    ∃ result events,
    baseProtocolBindChallengeReq s notice m.buf .none = (.ok result, ⟨events, [], []⟩) ∧
      result ∈ [0, parseFailed, systemError] ∧
      (result = 0 ↔ ∃ code period, TouchRequest m code period ∧
        notice (.bindingChallenge code period) = 0) := by
  simp only [touchRequest_iff]
  unfold baseProtocolBindChallengeReq
  cases (m.buf.bind cJSONParse).bind challengeNumbers with
  | none =>
      refine ⟨parseFailed, [], rfl, by decide, iff_of_false (by decide) ?_⟩
      rintro ⟨code, period, ⟨x, hx, -⟩, -⟩
      cases hx
  | some x =>
      have hrun : (raise s notice (.bindingChallenge x.1.valueint x.2.valueint) >>= fun rv =>
          if rv ≠ 0 then pure systemError else pure 0 : BaseM Int) .none =
            (.ok (if notice (.bindingChallenge x.1.valueint x.2.valueint) ≠ 0 then systemError
              else 0), ⟨[.bindingChallenge x.1.valueint x.2.valueint], [], []⟩) := by
        rw [bind_run, raise_run hp]
        show (if notice (.bindingChallenge x.1.valueint x.2.valueint) ≠ 0 then pure systemError
          else pure 0 : BaseM Int) _ = _
        by_cases hrv : notice (.bindingChallenge x.1.valueint x.2.valueint) ≠ 0
        · rw [if_pos hrv, if_pos hrv]
          rfl
        · rw [if_neg hrv, if_neg hrv]
          rfl
      refine ⟨_, _, hrun, ?_, ?_⟩
      · split <;> decide
      constructor
      · intro h
        refine ⟨_, _, ⟨x, rfl, rfl, rfl⟩, ?_⟩
        by_contra hrv
        rw [if_pos hrv] at h
        exact absurd h (by decide)
      · rintro ⟨code, period, ⟨x', hx', rfl, rfl⟩, haccept⟩
        cases hx'
        rw [if_neg (not_not_intro haccept)]

/-- Looking at a root that is a response. -/
theorem userNamed_iff {root : Xml CString}
    (hroot : rootNamed lib (.lit "Response") m.buf m.bufLen = some root) : UserNamed lib m ↔
      ∀ result user, root.child (.lit "Result") = some result → atoi result.txt.val ≠ notBound →
        root.child (.lit "User") = some user → user.attr (.lit "Id") ≠ none := by
  obtain ⟨hparse, hname⟩ := rootNamed_eq_some.mp hroot
  constructor
  · intro h result user
    exact h root result user hparse hname
  · intro h root' result user hparse' hname'
    obtain rfl : root = root' := Option.some_inj.mp (hparse.symm.trans hparse')
    exact h result user

/-- A response about the user does no harm exactly if the user that is looked at has an
identifier. -/
theorem bindStatusQuery_run (notice : BaseEvent → Int) (hp : s.gPfunc ≠ none) :
    (∃ out, baseProtocolBindStatusQueryRsp lib s notice m.buf m.bufLen .none = (.ok (), out) ∧
      (UserListResponse lib m → ∃ event, out.events.filter BaseEvent.isBindStatus = [event])) ↔
    UserNamed lib m := by
  have hraised : ∀ event : BaseEvent, event.isBindStatus = true →
      ∃ out, (raise s notice event >>= fun _ => pure () : BaseM Unit) .none = (.ok (), out) ∧
        (UserListResponse lib m → ∃ e, out.events.filter BaseEvent.isBindStatus = [e]) := by
    intro event hevent
    refine ⟨⟨[event], [], []⟩, ?_, fun _ => ⟨event, List.filter_cons_of_pos hevent⟩⟩
    rw [bind_run, raise_run hp]
    rfl
  unfold baseProtocolBindStatusQueryRsp
  cases hroot : rootNamed lib (.lit "Response") m.buf m.bufLen with
  | none =>
      have hnot : ∀ root, lib.parse m.buf m.bufLen = some root →
          root.name ≠ some (.lit "Response") := fun root hparse hname => by
        cases hroot.symm.trans (rootNamed_eq_some.mpr ⟨hparse, hname⟩)
      refine iff_of_true ⟨.none, rfl, ?_⟩ ?_
      · rintro ⟨root, hparse, hname, -⟩
        exact absurd hname (hnot root hparse)
      · intro root _ _ hparse hname
        exact absurd hname (hnot root hparse)
  | some root =>
      rw [userNamed_iff hroot]
      obtain ⟨hparse, hname⟩ := rootNamed_eq_some.mp hroot
      cases hresult : root.child (.lit "Result") with
      | none =>
          refine iff_of_true ⟨.none, by simp only [hresult]; rfl, ?_⟩ fun _ _ h => by cases h
          rintro ⟨root', hparse', -, hresult'⟩
          obtain rfl : root = root' := Option.some_inj.mp (hparse.symm.trans hparse')
          rw [hresult] at hresult'
          cases hresult'
      | some result =>
          simp only [hresult]
          by_cases hcode : atoi result.txt.val = notBound
          · rw [if_pos hcode]
            refine iff_of_true (hraised .unbinding rfl) ?_
            rintro _ _ ⟨⟩ hother
            exact absurd hcode hother
          · rw [if_neg hcode]
            cases huser : root.child (.lit "User") with
            | none =>
                exact iff_of_true (hraised .unbinding rfl) fun _ _ _ _ h => by cases h
            | some user =>
                simp only
                cases hid : user.attr (.lit "Id") with
                | none =>
                    simp only
                    refine iff_of_false ?_ fun h => h result user rfl hcode rfl hid
                    rintro ⟨out, hrun, -⟩
                    cases hrun
                | some id =>
                    simp only
                    refine iff_of_true (hraised (.binding (.strncpy id)) rfl) ?_
                    rintro _ _ ⟨⟩ - ⟨⟩
                    simp [hid]

theorem setNtpinfo_run (hp : s.gPfunc ≠ none) :
    (∃ out, cloud2devSetNtpinfoReq s notice m.buf .none = (.ok (), out)) ↔ NtpTexts m := by
  unfold cloud2devSetNtpinfoReq NtpTexts
  cases (m.buf.bind cJSONParse).bind (Value.getObjectItem (ascii "NTP")) with
  | none => exact iff_of_true ⟨.none, rfl⟩ fun _ h => by cases h
  | some ntp =>
      simp only [Option.some_inj, forall_eq']
      cases haddr : ntp.stringElement "Addr" with
      | none =>
          refine iff_of_false ?_ fun h => h.1 rfl
          rintro ⟨out, hrun⟩
          rw [bind_run, copyText, haddr] at hrun
          cases hrun
      | some addr =>
          cases hzone : ntp.stringElement "Timezone" with
          | none =>
              refine iff_of_false ?_ fun h => h.2 rfl
              rintro ⟨out, hrun⟩
              rw [bind_run, copyText, haddr] at hrun
              simp only [copyText, hzone] at hrun
              cases hrun
          | some zone =>
              refine iff_of_true ?_ ⟨by simp, by simp⟩
              refine ⟨⟨[.ntpInfo ⟨.strncpy addr, ntp.intElement "Port",
                (ntp.intElement "Interval").tdiv 60, .strncpy zone⟩], [], []⟩, ?_⟩
              simp only [copyText, haddr, hzone, pure_bind]
              rw [bind_run, raise_run hp]
              rfl

theorem queryProfile_run : (∃ out, baseProtocolQueryProfileRsp s m.buf .none = (.ok (), out)) ↔
    s.gProfileRspFunc ≠ none := by
  unfold baseProtocolQueryProfileRsp
  cases s.gProfileRspFunc with
  | none =>
      refine iff_of_false ?_ fun h => h rfl
      rintro ⟨out, hrun⟩
      cases hrun
  | some func => exact iff_of_true ⟨_, rfl⟩ (by simp)

/-- The result of a handler does not get into its response. -/
theorem xmlMakeRsp_read (result : Int) (stale : CString) :
    (xmlMakeRsp result).map (XmlText.read stale) = responseXml stale := rfl

theorem xmlResult_responseXml (hlib : Trusted lib) (text : CString) :
    xmlResult lib (lib.toXml (responseXml text)) = some (atoi text.val) := by
  obtain ⟨root, result, hparse, hname, hchild, rfl⟩ := hlib.xml text
  unfold xmlResult
  rw [rootNamed_eq_some.mpr ⟨hparse, hname⟩, Option.bind_some, hchild]
  rfl

theorem jsonResult_jsonMakeRsp (hlib : Trusted lib) {result : Int}
    (hresult : result ∈ [0, parseFailed, systemError]) :
    jsonResult (printValue lib.printNumber (jsonMakeRsp result)) = some result := by
  have hsmall : result.natAbs < 10 ^ 15 ∧ (Dbl.ofInt result).valueint = result := by
    simp only [List.mem_cons, List.not_mem_nil, or_false] at hresult
    rcases hresult with rfl | rfl | rfl <;> decide
  have hrecord : IsRecord lib.printNumber (jsonMakeRsp result) := by
    refine ⟨_, rfl, fun m hm => ?_, fun m hm => ?_⟩ <;> rw [List.mem_singleton.mp hm]
    · exact (by decide : (0 : UInt8) ∉ ascii "result")
    · exact ⟨rfl, rfl, prints_decimalInt hsmall.1 (hlib.integral result hsmall.1)⟩
  unfold jsonResult
  rw [cJSONParse_printRecord hrecord]
  exact congrArg some hsmall.2

/-- A request is answered if there is memory for the response. -/
theorem xmlReq_run {cmd : UInt32} {proc : BaseM Int} {result : Int} {events : List BaseEvent}
    (hproc : proc .none = (.ok result, ⟨events, [], []⟩)) :
    cloud2devXmlReqBushandle lib built stale cmd m.msgSeq proc .none = (.ok (), ⟨events,
      if built then [responseTo m cmd (lib.toXml (responseXml stale))] else [], []⟩) := by
  unfold cloud2devXmlReqBushandle
  rw [bind_run, hproc]
  cases built <;> rfl

theorem jsonReq_run {cmd : UInt32} {proc : BaseM Int} {result : Int} {events : List BaseEvent}
    (hproc : proc .none = (.ok result, ⟨events, [], []⟩)) :
    cloud2devJsonReqBushandle lib built cmd m.msgSeq proc .none = (.ok (), ⟨events,
      if built then [responseTo m cmd (printValue lib.printNumber (jsonMakeRsp result))] else [],
      []⟩) := by
  unfold cloud2devJsonReqBushandle
  rw [bind_run, hproc]
  cases built <;> rfl

/-! ## The dispatch -/

theorem commands_nodup : [kCenPlt2PuDomainConfig, kCenPlt2PuSetUserIdReq, kPu2CenPltGetUserListRsp,
    kPu2CenPltBindUserWithTokenRsp, pu2CenPltQueryFeatureProfileRsp,
    kCenPlt2PuBindUserTouchReq].Nodup := by decide

theorem handled_of_other {out : BaseOut} (hset : m.msgCommandId ≠ kCenPlt2PuSetUserIdReq)
    (htouch : m.msgCommandId ≠ kCenPlt2PuBindUserTouchReq)
    (hlist : m.msgCommandId ≠ kPu2CenPltGetUserListRsp) : Handled lib m notice out := by
  refine ⟨fun h => absurd h hset, fun h => absurd h htouch, ?_⟩
  rintro (⟨h, -⟩ | ⟨h, -⟩)
  · exact absurd h hset
  · exact absurd h hlist

theorem setUserId_iff (hlib : Trusted lib) (hp : s.gPfunc ≠ none)
    (hcmd : m.msgCommandId = kCenPlt2PuSetUserIdReq) :
    (∃ out, cloud2devXmlReqBushandle lib built stale kCenPlt2PuSetUserIdReq.toUInt32 m.msgSeq
        (baseProtocolBindStatusNoticeReq lib s notice m.buf m.bufLen) .none = (.ok (), out) ∧
      Handled lib m notice out) ↔
        built = true ∧ (atoi stale.val = 0 ↔ UserIdRequest lib m) := by
  obtain ⟨result, events, hrun, -, hevent⟩ := bindStatusNotice_run lib m notice hp
  have htouch : m.msgCommandId ≠ kCenPlt2PuBindUserTouchReq := hcmd.trans_ne (by decide)
  have hlist : m.msgCommandId ≠ kPu2CenPltGetUserListRsp := hcmd.trans_ne (by decide)
  rw [xmlReq_run hrun]
  constructor
  · rintro ⟨out, ⟨⟩, hhandled⟩
    obtain ⟨body, result', hsent, hsays, hresult'⟩ := hhandled.setUserId hcmd
    cases built with
    | false => cases hsent
    | true =>
        cases hsent
        rw [xmlResult_responseXml hlib, Option.some_inj] at hsays
        subst hsays
        exact ⟨rfl, hresult'⟩
  · rintro ⟨rfl, hstale⟩
    refine ⟨_, rfl, fun _ => ⟨_, _, rfl, xmlResult_responseXml hlib stale, hstale⟩,
      fun h => absurd h htouch, ?_⟩
    rintro (⟨-, h⟩ | ⟨h, -⟩)
    · exact hevent h
    · exact absurd h hlist

theorem bindTouch_iff (hlib : Trusted lib) (hp : s.gPfunc ≠ none)
    (hcmd : m.msgCommandId = kCenPlt2PuBindUserTouchReq) :
    (∃ out, cloud2devJsonReqBushandle lib built kCenPlt2PuBindUserTouchRsp.toUInt32 m.msgSeq
        (baseProtocolBindChallengeReq s notice m.buf) .none = (.ok (), out) ∧
      Handled lib m notice out) ↔ built = true := by
  obtain ⟨result, events, hrun, hsmall, hresult⟩ := bindChallenge_run m notice hp
  have hset : m.msgCommandId ≠ kCenPlt2PuSetUserIdReq := hcmd.trans_ne (by decide)
  have hlist : m.msgCommandId ≠ kPu2CenPltGetUserListRsp := hcmd.trans_ne (by decide)
  rw [jsonReq_run hrun]
  constructor
  · rintro ⟨out, ⟨⟩, hhandled⟩
    obtain ⟨body, result', hsent, -⟩ := hhandled.bindTouch hcmd
    by_contra hbuilt
    rw [eq_false_of_ne_true hbuilt] at hsent
    cases hsent
  · rintro rfl
    refine ⟨_, rfl, fun h => absurd h hset,
      fun _ => ⟨_, result, rfl, jsonResult_jsonMakeRsp hlib hsmall, hresult⟩, ?_⟩
    rintro (⟨h, -⟩ | ⟨h, -⟩)
    · exact absurd h hset
    · exact absurd h hlist

theorem userList_iff (hp : s.gPfunc ≠ none) (hcmd : m.msgCommandId = kPu2CenPltGetUserListRsp) :
    (∃ out, baseProtocolBindStatusQueryRsp lib s notice m.buf m.bufLen .none = (.ok (), out) ∧
      Handled lib m notice out) ↔ UserNamed lib m := by
  have hset : m.msgCommandId ≠ kCenPlt2PuSetUserIdReq := hcmd.trans_ne (by decide)
  have htouch : m.msgCommandId ≠ kCenPlt2PuBindUserTouchReq := hcmd.trans_ne (by decide)
  rw [← bindStatusQuery_run notice hp]
  refine exists_congr fun out => and_congr_right fun _ => ?_
  constructor
  · exact fun h hlist => h.binding (.inr ⟨hcmd, hlist⟩)
  · intro h
    refine ⟨fun hc => absurd hc hset, fun hc => absurd hc htouch, ?_⟩
    rintro (⟨hc, -⟩ | ⟨-, hlist⟩)
    · exact absurd hc hset
    · exact h hlist

theorem route_iff (hlib : Trusted lib) (notice : BaseEvent → Int) (hp : s.gPfunc ≠ none) :
    (∃ out, baseExtendDataRouteCb lib s notice built stale (some m) .none = (.ok (), out) ∧
      Handled lib m notice out) ↔ CommandOk lib m s built stale := by
  have hdistinct := commands_nodup
  simp only [List.nodup_cons, List.mem_cons, List.not_mem_nil, or_false, not_or] at hdistinct
  obtain ⟨⟨d₁, d₂, d₃, d₄, d₅⟩, ⟨e₁, e₂, e₃, e₄⟩, ⟨f₁, f₂, f₃⟩, ⟨g₁, g₂⟩, h₁, -⟩ := hdistinct
  have hother : m.msgCommandId ≠ kCenPlt2PuSetUserIdReq →
      m.msgCommandId ≠ kCenPlt2PuBindUserTouchReq → m.msgCommandId ≠ kPu2CenPltGetUserListRsp →
      ∀ x : BaseM Unit, (∃ out, x .none = (.ok (), out) ∧ Handled lib m notice out) ↔
        ∃ out, x .none = (.ok (), out) := fun hset htouch hlist x =>
    exists_congr fun out => and_iff_left (handled_of_other hset htouch hlist)
  unfold baseExtendDataRouteCb
  by_cases hconfig : m.msgCommandId = kCenPlt2PuDomainConfig
  · have hset := hconfig.trans_ne d₁
    have htouch := hconfig.trans_ne d₅
    have hlist := hconfig.trans_ne d₂
    have hprofile := hconfig.trans_ne d₄
    simp only [if_pos hconfig, hother hset htouch hlist, setNtpinfo_run hp]
    exact ⟨fun h => ⟨fun hc => absurd hc hprofile, fun _ => h, fun hc => absurd hc hlist,
      fun hc => absurd hc (not_or_intro hset htouch), fun hc => absurd hc hset⟩,
      fun h => h.ntp hconfig⟩
  by_cases hset : m.msgCommandId = kCenPlt2PuSetUserIdReq
  · simp only [if_neg hconfig, if_pos hset, setUserId_iff hlib hp hset]
    exact ⟨fun h => ⟨fun hc => absurd hc (hset.trans_ne e₃), fun hc => absurd hc hconfig,
      fun hc => absurd hc (hset.trans_ne e₁), fun _ => h.1, fun _ => h.2⟩,
      fun h => ⟨h.built (.inl hset), h.stale hset⟩⟩
  by_cases hlist : m.msgCommandId = kPu2CenPltGetUserListRsp
  · have htouch := hlist.trans_ne f₃
    simp only [if_neg hconfig, if_neg hset, if_pos hlist, userList_iff hp hlist]
    exact ⟨fun h => ⟨fun hc => absurd hc (hlist.trans_ne f₂), fun hc => absurd hc hconfig,
      fun _ => h, fun hc => absurd hc (not_or_intro hset htouch), fun hc => absurd hc hset⟩,
      fun h => h.user hlist⟩
  by_cases htoken : m.msgCommandId = kPu2CenPltBindUserWithTokenRsp
  · have htouch := htoken.trans_ne g₂
    simp only [if_neg hconfig, if_neg hset, if_neg hlist, if_pos htoken, hother hset htouch hlist]
    exact iff_of_true ⟨_, rfl⟩ ⟨fun hc => absurd hc (htoken.trans_ne g₁),
      fun hc => absurd hc hconfig, fun hc => absurd hc hlist,
      fun hc => absurd hc (not_or_intro hset htouch), fun hc => absurd hc hset⟩
  by_cases hprofile : m.msgCommandId = pu2CenPltQueryFeatureProfileRsp
  · have htouch := hprofile.trans_ne h₁
    simp only [if_neg hconfig, if_neg hset, if_neg hlist, if_neg htoken, if_pos hprofile,
      hother hset htouch hlist, queryProfile_run]
    exact ⟨fun h => ⟨fun _ => h, fun hc => absurd hc hconfig, fun hc => absurd hc hlist,
      fun hc => absurd hc (not_or_intro hset htouch), fun hc => absurd hc hset⟩,
      fun h => h.profile hprofile⟩
  simp only [if_neg hconfig, if_neg hset, if_neg hlist, if_neg htoken, if_neg hprofile]
  by_cases htouch : m.msgCommandId = kCenPlt2PuBindUserTouchReq
  · simp only [if_pos htouch, bindTouch_iff hlib hp htouch]
    exact ⟨fun h => ⟨fun hc => absurd hc hprofile, fun hc => absurd hc hconfig,
      fun hc => absurd hc hlist, fun _ => h, fun hc => absurd hc hset⟩,
      fun h => h.built (.inr htouch)⟩
  · simp only [if_neg htouch, hother hset htouch hlist]
    exact iff_of_true ⟨_, rfl⟩ ⟨fun hc => absurd hc hprofile, fun hc => absurd hc hconfig,
      fun hc => absurd hc hlist, fun hc => absurd hc (not_or_intro hset htouch),
      fun hc => absurd hc hset⟩

theorem recv_eq_some {submsg : Option Submsg} {s' : BaseState} {out : BaseOut} :
    s.recv lib submsg notice built stale = some (s', out) ↔
      s' = s ∧ baseExtendDataRouteCb lib s notice built stale submsg .none = (.ok (), out) := by
  unfold BaseState.recv
  cases baseExtendDataRouteCb lib s notice built stale submsg .none with
  | mk r out' =>
      cases r with
      | error fault => simp
      | ok _ => simp [eq_comm]

/-- From a module with a callback for events. -/
theorem routeSound_iff (hlib : Trusted lib) (hp : s.gPfunc ≠ none) (i : BaseInput) :
    RouteSound lib s i ↔ RouteOk lib s i := by
  cases i with
  | init pfunc loaded =>
      exact iff_of_true ⟨_, _, rfl, fun _ _ _ _ h => by cases h⟩ fun _ _ _ _ h => by cases h
  | deinit => exact iff_of_true ⟨_, _, rfl, fun _ _ _ _ h => by cases h⟩ fun _ _ _ _ h => by cases h
  | profileQuery reqMsg funcRsp =>
      exact iff_of_true ⟨_, _, rfl, fun _ _ _ _ h => by cases h⟩ fun _ _ _ _ h => by cases h
  | recv submsg notice built stale =>
      cases submsg with
      | none => exact iff_of_true ⟨_, _, rfl, fun _ _ _ _ h => by cases h⟩ fun _ _ _ _ h => by cases h
      | some m =>
          have hok : RouteOk lib s (.recv (some m) notice built stale) ↔
              CommandOk lib m s built stale := by
            refine ⟨fun h => h m notice built stale rfl, fun h m' notice' built' stale' heq => ?_⟩
            cases heq
            exact h
          rw [hok, ← route_iff hlib notice hp]
          constructor
          · rintro ⟨s', out, hrun, hhandled⟩
            exact ⟨out, (recv_eq_some.mp hrun).2, hhandled m notice built stale rfl⟩
          · rintro ⟨out, hroute, hhandled⟩
            refine ⟨s, out, recv_eq_some.mpr ⟨rfl, hroute⟩, fun m' notice' built' stale' heq => ?_⟩
            cases heq
            exact hhandled

theorem gPfunc_step {s' : BaseState} {i : BaseInput} (hp : s.gPfunc ≠ none)
    (hstep : s.step lib i = some s') : s'.gPfunc ≠ none := by
  obtain ⟨r, hrun, rfl⟩ := Option.map_eq_some_iff.mp hstep
  cases i with
  | init pfunc loaded =>
      cases hrun
      show (s.init pfunc loaded).gPfunc ≠ none
      unfold BaseState.init
      split
      · exact hp
      · next hok => exact fun h => hok (.inl h)
  | deinit =>
      cases hrun
      exact hp
  | profileQuery reqMsg funcRsp =>
      cases hrun
      exact hp
  | recv submsg notice built stale =>
      rw [(recv_eq_some.mp hrun).1]
      exact hp

end Handled

/-- Behind the initialisation there is always a callback for events; and a command is handled
without harm exactly when a profile was asked for, the texts that are copied are there, a
response can be built and what stands where its text was agrees with the request. -/
theorem base_route_iff (lib : BaseLib) (hlib : Trusted lib) (pfunc : Nat) {s : BaseState}
    (hreach : Reach (BaseState.step lib) (RouteOk lib) (.started pfunc) s) :
    s.gPfunc ≠ none ∧ ∀ i, RouteSound lib s i ↔ RouteOk lib s i := by
  have hp : s.gPfunc ≠ none := by
    refine hreach.invariant (I := fun s => s.gPfunc ≠ none)
      (by simp [BaseState.started, BaseState.init]) ?_
    exact fun _ _ _ hp _ hstep => gPfunc_step hp hstep
  exact ⟨hp, routeSound_iff hlib hp⟩

/-- A response up to its text, and behind it. -/
def responseHead : Bytes := ascii "<Response><Result>"
def responseEnd : Bytes := ascii "</Result></Response>"

/-- Markup of which only responses are read. -/
def sampleLib : BaseLib where
  parse buf _ := buf.map fun b =>
    if responseHead.isPrefixOf b then
      responseXml (.ofMem ((b.drop responseHead.length).take
        (b.length - responseHead.length - responseEnd.length)))
    else .node none [] (.lit "") []
  toXml
    | .node _ _ _ children =>
        responseHead ++ children.flatMap (fun c => c.txt.val) ++ responseEnd
  printNumber q := decimalInt q.num

theorem sampleLib_trusted : Trusted sampleLib where
  xml text := by
    have hbody : sampleLib.toXml (responseXml text) = responseHead ++ (text.val ++ responseEnd) := by
      simp [sampleLib, responseXml, Xml.txt]
    have hmem : CString.ofMem (((responseHead ++ (text.val ++ responseEnd)).drop
        responseHead.length).take ((responseHead ++ (text.val ++ responseEnd)).length -
          responseHead.length - responseEnd.length)) = text := by
      apply CString.ext
      have hlen : (responseHead ++ (text.val ++ responseEnd)).length - responseHead.length -
          responseEnd.length = text.val.length := by
        simp only [List.length_append]
        omega
      rw [List.drop_left, hlen, List.take_left]
      exact cstr_of_no_zero text.noNul
    refine ⟨responseXml text, .node (some (.lit "Result")) [] text [], ?_, rfl, rfl, rfl⟩
    rw [hbody]
    show some (if responseHead.isPrefixOf (responseHead ++ (text.val ++ responseEnd)) = true then _
      else _) = _
    rw [if_pos (by simp), hmem]
  integral i _ := by simp [sampleLib]

def sampleCommand (cmd : Int32) (body : Bytes) : Submsg :=
  ⟨7, some body, body.length.toUInt32, 1100, cmd, .strncpy baseDomainVer⟩

/-- Behind a query for a profile, a request that is no markup is answered, where the array still
holds the result. -/
theorem base_route_no_markup : ∃ s,
    (BaseState.started 1).step sampleLib (.profileQuery (.lit "q") (some 2)) = some s ∧
      RouteSound sampleLib s (.recv (some (sampleCommand kCenPlt2PuSetUserIdReq (ascii "x")))
        (fun _ => 0) true (.lit "3")) := by
  refine ⟨_, rfl, ?_⟩
  have hquery : RouteOk sampleLib (.started 1) (.profileQuery (.lit "q") (some 2)) :=
    fun _ _ _ _ heq => by cases heq
  refine ((base_route_iff sampleLib sampleLib_trusted 1 (Reach.start.next hquery rfl)).2 _).mpr
    fun m notice built stale heq => ?_
  cases heq
  refine ⟨fun h => absurd h (by decide), fun h => absurd h (by decide),
    fun h => absurd h (by decide), fun _ => rfl, fun _ => iff_of_false (by decide) ?_⟩
  rintro ⟨root, hparse, hname, -⟩
  cases hparse
  cases hname

/-- A profile comes that nobody has asked for. -/
theorem unasked_profile_crashes : ¬ ∀ (lib : BaseLib) (pfunc : Nat) (s : BaseState),
    Reach (BaseState.step lib) (fun _ _ => True) (.started pfunc) s → ∀ i, RouteSound lib s i := by
  intro hall
  obtain ⟨s', out, hrun, -⟩ := hall sampleLib 1 _ .start (.recv
    (some (sampleCommand pu2CenPltQueryFeatureProfileRsp (ascii "x"))) (fun _ => 0) true (.lit ""))
  have hcrash : (BaseState.started 1).recv sampleLib
      (some (sampleCommand pu2CenPltQueryFeatureProfileRsp (ascii "x"))) (fun _ => 0) true
        (.lit "") = none := by
    rfl
  cases hcrash.symm.trans hrun

end EzIot.Base
