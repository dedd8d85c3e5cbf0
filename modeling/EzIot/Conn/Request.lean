import EzIot.Conn.Adapter
import EzIot.Conn.Body
import EzIot.Model.Message

/-! # Serving a Wi-Fi configuration

A configuration that is complete is answered and tried, and the application is told what came
of it. The configuration is kept between requests, and the buffers are given back at the end.
-/

namespace EzIot.Conn

open CText CJson Ledger Run
open Model (nodeCount createTree createTree_ok parseTree)

/-! ## The handler -/

inductive EzconnState
  | succ
  | appConnected
  | connectingRoute
  | connectFailed
  | wifiConfigTimeout
deriving DecidableEq

def EzhalWifiState.code : EzhalWifiState → Int
  | .staConnected => 100
  | .notConnect => 102
  | .connectSuccess => 104
  | .passwordError => 106
  | .noApFound => 201
  | .unknow => 202

def getErrStr : EzhalWifiState → String
  | .notConnect => "wifi not connect."
  | .connectSuccess => "wifi connect success."
  | .passwordError => "wifi password error."
  | .noApFound => "wifi no ap found."
  | _ => "unknown error."

/-- Which allocations for the reply succeed: its object, its two members, and its text. -/
structure ReplyAllocs where
  root : Bool
  statusCode : Bool
  statusString : Bool
  rspStr : Bool

/-- The text of a reply and the number of its allocation. -/
structure RspStr where
  id : Nat
  text : Bytes
deriving DecidableEq

/-- What is done to the driver, the peer and the application. -/
inductive ConfigAct
  | respond (body : Bytes)
  | setCountryCode (cc : CField 4)
  | staConnect (ssid : CField 33) (password : CField 65)
  | staStop
  | wifiCb (state : EzconnState) (info : Option EzconnWifiInfo)
deriving DecidableEq

def statusTree (a : ReplyAllocs) (state : EzhalWifiState) : Value :=
  .object ((if a.statusCode then [(ascii "status_code", .number (.ofInt state.code))] else []) ++
    if a.statusString then [(ascii "status_string", .string (ascii (getErrStr state)))] else [])

/-- The first of the next `n` looks that finds the state `target`. -/
def pollUntil (target : EzhalWifiState) (states : Nat → EzhalWifiState) (i : Nat) :
    Nat → Option Nat
  | 0 => none
  | n + 1 => if states i = target then some i else pollUntil target states (i + 1) n

/-- The app comes back after the connection. -/
def appReturns (states : Nat → EzhalWifiState) : Bool :=
  match pollUntil .connectSuccess states 0 100 with
  | none => false
  | some k => (pollUntil .staConnected states (k + 1) 100).isSome

def sendHttpResp (rspStr : Option RspStr) : List ConfigAct := rspStr.toList.map (.respond ·.text)

/-- `ezos_free`, if there is something to free. -/
def freeRsp (rspStr : Option RspStr) (l : Ledger) : Ledger := l.free (rspStr.toList.map RspStr.id)

/-- `process_wifi_config_req`, with the tree it parses. All ways out but that through a null
pointer meet where the tree is deleted. -/
def processWifiConfigReqRun (mem : Bytes) (w : EzconnWifiInfo) (l : Ledger) :
    Option ((EzconnErrno × EzconnWifiInfo) × Ledger) :=
  match parseTree mem l with
  | (none, l) => some ((.jsonParse, w), l)
  | (some jsRoot, l) => (readConfig jsRoot.value w).map fun res => (res, jsRoot.delete l)

structure Served where
  fin : ConfigEnd
  wifiInfo : EzconnWifiInfo
  acts : List ConfigAct
  ledger : Ledger

section Serve

variable (printNumber : Rat → Bytes) (r : ConfigReq) (a : ReplyAllocs) (ctx : EzconnCtx)

def genRspWithState (state : EzhalWifiState) (l : Ledger) : Option RspStr × Ledger :=
  match createTree a.root (statusTree a state) l with
  | (none, l) => (none, l)
  | (some jsRoot, l) =>
      if a.rspStr then
        (some ⟨l.next, printValue printNumber jsRoot.value⟩, jsRoot.delete (l.alloc 1))
      else (none, jsRoot.delete l)

/-- The part of `process_wifi_config` that follows a complete configuration. Without
coexistence the reply is sent and freed before the connection, and freed again at the end. -/
def connectWifi (w : EzconnWifiInfo) (reqContent : Nat) (l : Ledger) : Served :=
  let early := if ctx.apstaCoexist then (none, l) else genRspWithState printNumber a .connectSuccess l
  let l := freeRsp early.1 early.2
  let wifiState := pollWifiState r.wifiState .unknow 0 100
  let isSucc := decide (wifiState = .connectSuccess)
  let rsp := if ctx.apstaCoexist then genRspWithState printNumber a wifiState l else (early.1, l)
  { fin := .connected isSucc
    wifiInfo := w
    acts := sendHttpResp early.1 ++
      [.setCountryCode w.cc, .staConnect w.ssid w.password, .wifiCb .connectingRoute none] ++
      (if isSucc then [] else [.staStop]) ++
      (if ctx.apstaCoexist then
        sendHttpResp rsp.1 ++ (if isSucc && appReturns r.wifiState then sendHttpResp rsp.1 else [])
      else []) ++
      [if isSucc then .wifiCb .succ (some w) else .wifiCb .connectFailed none]
    ledger := freeRsp rsp.1 (rsp.2.free [reqContent]) }

/-- `process_wifi_config`, with what it does and what it allocates. -/
def processWifiConfigRun (l : Ledger) : Option Served :=
  if r.malloc = false then some ⟨.failed .noMemory, ctx.wifiInfo, [], l⟩
  else
    (recvBody r.mem r.remainLen r.received).bind fun mem =>
      (processWifiConfigReqRun mem ctx.wifiInfo (l.alloc 1)).bind fun (p, l') =>
        if p.1 ≠ .succ then some ⟨.failed p.1, p.2, [], l'.free [l.next]⟩
        else if ctx.wifiCb = none then none
        else some (connectWifi printNumber r a ctx p.2 l.next l')

/-- What a tree that is parsed and deleted leaves. -/
def parsedLedger (mem : Bytes) (l : Ledger) : Ledger :=
  match parseTree mem l with
  | (none, l) => l
  | (some jsRoot, l) => jsRoot.delete l

theorem processWifiConfigReqRun_eq (mem : Bytes) (w : EzconnWifiInfo) (l : Ledger) :
    processWifiConfigReqRun mem w l =
      (processWifiConfigReq mem w).map fun res => (res, parsedLedger mem l) := by
  unfold processWifiConfigReqRun processWifiConfigReq parsedLedger parseTree
  cases cJSONParse mem with
  | none => rfl
  | some root => rfl

/-- It ends as the handler does, and leaves the same configuration. -/
theorem processWifiConfigRun_end (l : Ledger) :
    (processWifiConfigRun printNumber r a ctx l).map (fun s => (s.fin, s.wifiInfo)) =
      processWifiConfig r ctx := by
  unfold processWifiConfigRun processWifiConfig
  split
  · rfl
  · rw [Option.map_bind]
    congr 1
    funext mem
    simp only [Function.comp_apply]
    rw [processWifiConfigReqRun_eq, Option.bind_map, Option.map_bind]
    congr 1
    funext p
    simp only [Function.comp_apply]
    split
    · rfl
    · split
      · rfl
      · rfl

end Serve

/-! ## The members of a configuration -/

/-- A member that is read: from the body or from its `wifi_info`, needed or not. -/
structure ConfigField where
  name : String
  ofWifiInfo : Bool
  required : Bool
deriving DecidableEq

namespace ConfigField

def areaCode : ConfigField := ⟨"areaCode", false, false⟩
def token : ConfigField := ⟨"token", false, true⟩
def lbsDomain : ConfigField := ⟨"lbs_domain", false, true⟩
def deviceId : ConfigField := ⟨"device_id", false, false⟩
def ssid : ConfigField := ⟨"ssid", true, true⟩
def password : ConfigField := ⟨"password", true, true⟩

def all : List ConfigField := [areaCode, token, lbsDomain, deviceId, ssid, password]

def item (f : ConfigField) (root : Value) : Option Value :=
  if f.ofWifiInfo then (root.getObjectItem (ascii "wifi_info")).bind (·.getObjectItem (ascii f.name))
  else root.getObjectItem (ascii f.name)

def text (f : ConfigField) (root : Value) : Option CString := (f.item root).bind Value.valuestring

end ConfigField

inductive Fault
  | missing
  | noString
deriving DecidableEq

def ConfigField.fault (f : ConfigField) (root : Value) : Option Fault :=
  match f.item root with
  | none => if f.required then some .missing else none
  | some x => if x.valuestring = none then some .noString else none

def firstFault (root : Value) : Option Fault := ConfigField.all.findSome? (·.fault root)

def store {n : Nat} (old : CField (n + 1)) (t : Option CString) : CField (n + 1) :=
  match t with
  | none => old
  | some s => .strncpy s

/-- The configuration of a body, over an earlier one. -/
def configOf (root : Value) (w : EzconnWifiInfo) : EzconnWifiInfo where
  ssid := store w.ssid (ConfigField.ssid.text root)
  password := store w.password (ConfigField.password.text root)
  cc := store w.cc (ConfigField.areaCode.text root)
  token := store w.token (ConfigField.token.text root)
  domain := store w.domain (ConfigField.lbsDomain.text root)
  deviceId := store w.deviceId (ConfigField.deviceId.text root)

/-- How a request ends whose first fault is this one. -/
def EndsWith (root : Value) (w : EzconnWifiInfo) (res : Option (EzconnErrno × EzconnWifiInfo)) :
    Option Fault → Prop
  | some .noString => res = none
  | some .missing => ∃ w', res = some (.paramError, w')
  | none => res = some (.succ, configOf root w)

section Fields

variable {root v : Value} {mem : Bytes} {w : EzconnWifiInfo} {f : ConfigField}

/-- A member is no text, missing, or a text. -/
theorem member_cases (name : String) (hitem : f.item root = v.getObjectItem (ascii name)) :
    (f.fault root = some .noString ∧ memberText v name = none) ∨
      (f.fault root = (if f.required then some .missing else none) ∧ f.text root = none ∧
        memberText v name = some none) ∨
      ∃ s, f.fault root = none ∧ f.text root = some s ∧ memberText v name = some (some s) := by
  unfold ConfigField.fault ConfigField.text memberText
  rw [hitem]
  cases v.getObjectItem (ascii name) with
  | none => exact .inr (.inl ⟨rfl, rfl, rfl⟩)
  | some x =>
      simp only [Option.bind_some]
      cases hx : x.valuestring with
      | none => exact .inl ⟨rfl, rfl⟩
      | some s => exact .inr (.inr ⟨s, rfl, rfl, rfl⟩)

theorem optional_cases (name : String) (hreq : f.required = false)
    (hitem : f.item root = v.getObjectItem (ascii name)) :
    (f.fault root = some .noString ∧ memberText v name = none) ∨
      (f.fault root = none ∧ memberText v name = some (f.text root)) := by
  rcases member_cases name hitem with h | ⟨hf, ht, hm⟩ | ⟨s, hf, ht, hm⟩
  · exact .inl h
  · rw [hreq] at hf
    exact .inr ⟨hf, by rw [hm, ht]⟩
  · exact .inr ⟨hf, by rw [hm, ht]⟩

theorem required_cases (name : String) (hreq : f.required = true)
    (hitem : f.item root = v.getObjectItem (ascii name)) :
    (f.fault root = some .noString ∧ memberText v name = none) ∨
      (f.fault root = some .missing ∧ memberText v name = some none) ∨
      ∃ s, f.fault root = none ∧ f.text root = some s ∧ memberText v name = some (some s) := by
  rcases member_cases name hitem with h | ⟨hf, -, hm⟩ | h
  · exact .inl h
  · rw [hreq] at hf
    exact .inr (.inl ⟨hf, hm⟩)
  · exact .inr (.inr h)

/-- The members are read in their order up to the first fault. -/
theorem processWifiConfigReq_endsWith (hparse : cJSONParse mem = some root) :
    EndsWith root w (processWifiConfigReq mem w) (firstFault root) := by
  unfold processWifiConfigReq readConfig firstFault ConfigField.all
  rw [hparse]
  simp only [List.findSome?_cons, List.findSome?_nil]
  rcases optional_cases "areaCode" (f := .areaCode) (v := root) rfl rfl with ⟨hf, hm⟩ | ⟨hf, hm⟩
  · rw [hf, hm]
    rfl
  rw [hf, hm]
  rcases required_cases "token" (f := .token) (v := root) rfl rfl with
    ⟨hf, hm⟩ | ⟨hf, hm⟩ | ⟨token, hf, htoken, hm⟩
  · rw [hf, hm]
    rfl
  · rw [hf, hm]
    exact ⟨_, rfl⟩
  rw [hf, hm]
  rcases required_cases "lbs_domain" (f := .lbsDomain) (v := root) rfl rfl with
    ⟨hf, hm⟩ | ⟨hf, hm⟩ | ⟨domain, hf, hdomain, hm⟩
  · simp only [hf, hm]
    rfl
  · simp only [hf, hm]
    exact ⟨_, rfl⟩
  simp only [hf, hm, Option.bind_some]
  rcases optional_cases "device_id" (f := .deviceId) (v := root) rfl rfl with ⟨hf, hm⟩ | ⟨hf, hm⟩
  · simp only [hf, hm]
    rfl
  simp only [hf, hm, Option.bind_some]
  cases hinfo : root.getObjectItem (ascii "wifi_info") with
  | none =>
      -- without `wifi_info` its first member is missing
      have hssid : ConfigField.ssid.fault root = some .missing := by
        simp [ConfigField.fault, ConfigField.item, ConfigField.ssid, hinfo]
      rw [hssid]
      exact ⟨_, rfl⟩
  | some info =>
      have hitem (f : ConfigField) (hf : f.ofWifiInfo = true) :
          f.item root = info.getObjectItem (ascii f.name) := by
        unfold ConfigField.item
        rw [if_pos hf, hinfo]
        rfl
      rcases required_cases "ssid" (f := .ssid) rfl (hitem .ssid rfl) with
        ⟨hf, hm⟩ | ⟨hf, hm⟩ | ⟨ssid, hf, hssid, hm⟩
      · simp only [hf, hm]
        rfl
      · simp only [hf, hm]
        exact ⟨_, rfl⟩
      simp only [hf, hm, Option.bind_some]
      rcases required_cases "password" (f := .password) rfl (hitem .password rfl) with
        ⟨hf, hm⟩ | ⟨hf, hm⟩ | ⟨password, hf, hpassword, hm⟩
      · simp only [hf, hm]
        rfl
      · simp only [hf, hm]
        exact ⟨_, rfl⟩
      simp only [hf, hm, Option.bind_some]
      change some _ = some _
      unfold configOf
      rw [htoken, hdomain, hssid, hpassword]
      cases ConfigField.areaCode.text root <;> cases ConfigField.deviceId.text root <;> rfl

end Fields

/-! ## What is served -/

section Served

variable {printNumber : Rat → Bytes} {r : ConfigReq} {a : ReplyAllocs} {ctx : EzconnCtx}
  {l : Ledger} {mem : Bytes} {root : Value} {s : Served}

theorem processWifiConfigRun_noMemory (hmalloc : r.malloc = false) :
    processWifiConfigRun printNumber r a ctx l = some ⟨.failed .noMemory, ctx.wifiInfo, [], l⟩ := by
  unfold processWifiConfigRun
  rw [if_pos hmalloc]

theorem processWifiConfigRun_of_recv (hmalloc : r.malloc = true)
    (hrecv : recvBody r.mem r.remainLen r.received = some mem) :
    processWifiConfigRun printNumber r a ctx l =
      (processWifiConfigReq mem ctx.wifiInfo).bind fun p =>
        if p.1 ≠ .succ then
          some ⟨.failed p.1, p.2, [], (parsedLedger mem (l.alloc 1)).free [l.next]⟩
        else if ctx.wifiCb = none then none
        else some (connectWifi printNumber r a ctx p.2 l.next (parsedLedger mem (l.alloc 1))) := by
  unfold processWifiConfigRun
  simp only [processWifiConfigReqRun_eq, Option.bind_map]
  rw [hmalloc, hrecv]
  rfl

/-- What is no configuration, or lacks a member before any that is no text, is refused. -/
theorem processWifiConfigRun_refused (hmalloc : r.malloc = true)
    (hrecv : recvBody r.mem r.remainLen r.received = some mem)
    (h : ∀ root, cJSONParse mem = some root → firstFault root = some .missing) :
    ∃ s, processWifiConfigRun printNumber r a ctx l = some s ∧ s.acts = [] ∧
      s.ledger = (parsedLedger mem (l.alloc 1)).free [l.next] := by
  rw [processWifiConfigRun_of_recv hmalloc hrecv]
  cases hparse : cJSONParse mem with
  | none =>
      have hreq : processWifiConfigReq mem ctx.wifiInfo = some (.jsonParse, ctx.wifiInfo) := by
        unfold processWifiConfigReq
        rw [hparse]
      rw [hreq]
      exact ⟨_, rfl, rfl, rfl⟩
  | some root =>
      have hends := processWifiConfigReq_endsWith (w := ctx.wifiInfo) hparse
      rw [h root hparse] at hends
      obtain ⟨w, hreq⟩ := hends
      rw [hreq]
      exact ⟨_, rfl, rfl, rfl⟩

theorem processWifiConfigRun_noString (hmalloc : r.malloc = true)
    (hrecv : recvBody r.mem r.remainLen r.received = some mem) (hparse : cJSONParse mem = some root)
    (h : firstFault root = some .noString) : processWifiConfigRun printNumber r a ctx l = none := by
  have hends := processWifiConfigReq_endsWith (w := ctx.wifiInfo) hparse
  rw [h] at hends
  have hreq : processWifiConfigReq mem ctx.wifiInfo = none := hends
  rw [processWifiConfigRun_of_recv hmalloc hrecv, hreq]
  rfl

theorem processWifiConfigRun_taken (hmalloc : r.malloc = true)
    (hrecv : recvBody r.mem r.remainLen r.received = some mem) (hparse : cJSONParse mem = some root)
    (h : firstFault root = none) :
    processWifiConfigRun printNumber r a ctx l =
      if ctx.wifiCb = none then none
      else some (connectWifi printNumber r a ctx (configOf root ctx.wifiInfo) l.next
        (parsedLedger mem (l.alloc 1))) := by
  have hends := processWifiConfigReq_endsWith (w := ctx.wifiInfo) hparse
  rw [h] at hends
  have hreq : processWifiConfigReq mem ctx.wifiInfo =
      some (.succ, configOf root ctx.wifiInfo) := hends
  rw [processWifiConfigRun_of_recv hmalloc hrecv, hreq]
  rfl

theorem processWifiConfigRun_cases (hmalloc : r.malloc = true)
    (hrecv : recvBody r.mem r.remainLen r.received = some mem)
    (hs : processWifiConfigRun printNumber r a ctx l = some s) :
    (s.acts = [] ∧ s.ledger = (parsedLedger mem (l.alloc 1)).free [l.next]) ∨
      (ctx.wifiCb ≠ none ∧ ∃ root, cJSONParse mem = some root ∧ firstFault root = none ∧
        s = connectWifi printNumber r a ctx (configOf root ctx.wifiInfo) l.next
          (parsedLedger mem (l.alloc 1))) := by
  by_cases hmissing : ∀ root, cJSONParse mem = some root → firstFault root = some .missing
  · obtain ⟨s', hs', hacts, hledger⟩ := processWifiConfigRun_refused hmalloc hrecv hmissing
    cases hs.symm.trans hs'
    exact .inl ⟨hacts, hledger⟩
  · push Not at hmissing
    obtain ⟨root, hparse, hfault⟩ := hmissing
    cases hfirst : firstFault root with
    | some fault =>
        cases fault with
        | missing => exact absurd hfirst hfault
        | noString =>
            rw [processWifiConfigRun_noString hmalloc hrecv hparse hfirst] at hs
            cases hs
    | none =>
        rw [processWifiConfigRun_taken hmalloc hrecv hparse hfirst] at hs
        split at hs
        next => cases hs
        next hcb =>
          cases hs
          exact .inr ⟨hcb, root, hparse, hfirst, rfl⟩

theorem staConnect_mem (w : EzconnWifiInfo) (id : Nat) (l : Ledger) :
    .staConnect w.ssid w.password ∈ (connectWifi printNumber r a ctx w id l).acts := by
  unfold connectWifi
  simp

theorem reported_iff {w info : EzconnWifiInfo} {id : Nat} :
    .wifiCb .succ (some info) ∈ (connectWifi printNumber r a ctx w id l).acts ↔
      pollWifiState r.wifiState .unknow 0 100 = .connectSuccess ∧ info = w := by
  have hresp (rsp : Option RspStr) : ConfigAct.wifiCb .succ (some info) ∉ sendHttpResp rsp := by
    unfold sendHttpResp
    simp
  unfold connectWifi
  by_cases hsucc : pollWifiState r.wifiState .unknow 0 100 = .connectSuccess <;>
    cases ctx.apstaCoexist <;> simp [hsucc, hresp]

/-! ### What is allocated -/

theorem fresh_one (l : Ledger) : l.fresh 1 = [l.next] := rfl

theorem parsedLedger_owes {held : List Nat} {l' : Ledger} (h : Owes l l' held) (mem : Bytes) :
    Owes l (parsedLedger mem l') held := by
  unfold parsedLedger parseTree
  cases cJSONParse mem with
  | none => exact h
  | some root => exact ((h.alloc (nodeCount root)).perm List.perm_append_comm).free

/-- The text of the reply is in use, the tree it was printed from is not. -/
theorem genRspWithState_owes (printNumber : Rat → Bytes) (a : ReplyAllocs) (state : EzhalWifiState)
    {held : List Nat} {l' : Ledger} (h : Owes l l' held) :
    Owes l (genRspWithState printNumber a state l').2
      ((genRspWithState printNumber a state l').1.toList.map RspStr.id ++ held) := by
  unfold genRspWithState
  cases hroot : a.root with
  | false => exact h
  | true =>
      rw [createTree_ok]
      have htree := (h.alloc (nodeCount (statusTree a state))).perm List.perm_append_comm
      cases a.rspStr with
      | false => exact htree.free
      | true =>
          have htext := htree.alloc 1
          rw [List.append_assoc] at htext
          exact (htext.perm (List.perm_append_comm.append_left _)).free

theorem genRspWithState_isSome (printNumber : Rat → Bytes) (a : ReplyAllocs)
    (state : EzhalWifiState) (l : Ledger) :
    (genRspWithState printNumber a state l).1.isSome = (a.root && a.rspStr) := by
  unfold genRspWithState createTree
  cases a.root <;> cases a.rspStr <;> rfl

/-- Once the body is received the buffers are given back exactly if the reply is not freed
before the end, or cannot be made. -/
theorem connectWifi_settled_iff {w : EzconnWifiInfo} {id : Nat} {l' : Ledger}
    (h : Owes l l' [id]) :
    Settled l (connectWifi printNumber r a ctx w id l').ledger ↔
      (ctx.apstaCoexist = false → a.root = false ∨ a.rspStr = false) := by
  unfold connectWifi freeRsp
  cases hcoexist : ctx.apstaCoexist with
  | true =>
      simp only [if_true, Option.toList_none, List.map_nil, free_nil]
      have hreply := genRspWithState_owes printNumber a (pollWifiState r.wifiState .unknow 0 100) h
      refine iff_of_true ?_ (fun hfalse => absurd hfalse (by decide))
      exact (hreply.perm List.perm_append_comm).free.free_all
  | false =>
      simp only [Bool.false_eq_true, if_false, forall_const]
      have hmade := genRspWithState_isSome printNumber a .connectSuccess l'
      -- everything is free before the second free of the reply
      have hdone := (genRspWithState_owes printNumber a .connectSuccess h).free.free_all
      cases hrsp : (genRspWithState printNumber a .connectSuccess l').1 with
      | none =>
          rw [hrsp] at hdone hmade
          simp only [Option.toList_none, List.map_nil, free_nil] at hdone ⊢
          exact iff_of_true hdone (Bool.and_eq_false_iff.mp hmade.symm)
      | some rsp =>
          rw [hrsp] at hdone hmade
          have hid : rsp.id ∈ (some rsp).toList.map RspStr.id := List.mem_singleton_self _
          have hboth : (a.root && a.rspStr) = true := hmade.symm
          refine iff_of_false (hdone.not_settled_free hid List.not_mem_nil) fun hfailed => ?_
          rw [Bool.and_eq_false_iff.mpr hfailed] at hboth
          exact absurd hboth (by decide)

end Served

/-! ## What is promised -/

/-- The body has every member that is needed, as a text. -/
def Configures (body : Bytes) : Prop :=
  ∃ root, cJSONParse body = some root ∧
    ∀ f ∈ ConfigField.all, f.required = true → (f.text root).isSome = true

section Promise

variable (printNumber : Rat → Bytes) (r : ConfigReq) (a : ReplyAllocs) (ctx : EzconnCtx) (l : Ledger)
  (body : Bytes) (failed : Bool)

/-- Where receiving fails or a member that is needed is missing or no text, the request ends
without a null pointer being read, and nothing is connected. -/
def Guarded : Prop :=
  failed = true ∨ ¬ Configures body →
    ∃ s, processWifiConfigRun printNumber r a ctx l = some s ∧
      ∀ ssid password, .staConnect ssid password ∉ s.acts

/-- Success is reported, with this configuration. -/
def Reports (info : EzconnWifiInfo) : Prop :=
  ∃ a l s, processWifiConfigRun printNumber r a ctx l = some s ∧ .wifiCb .succ (some info) ∈ s.acts

/-- Whatever happened before, the same configuration is reported. -/
def Independent : Prop :=
  ∀ s s' info info', Reach ConnState.step (fun _ _ => True) .initial s →
    Reach ConnState.step (fun _ _ => True) .initial s' →
    s.handler = some (.serve .wifiConfig) → s'.handler = some (.serve .wifiConfig) →
    Reports printNumber r s.gConnCtx info → Reports printNumber r s'.gConnCtx info' → info = info'

/-- What is allocated for the request and the reply is freed once. -/
def FreesOnce : Prop :=
  ∀ s, processWifiConfigRun printNumber r a ctx l = some s → Settled l s.ledger

structure ConfigRight : Prop where
  text : r.malloc = true → failed = false → TextRight r body
  guarded : Guarded printNumber r a ctx l body failed
  independent : Independent printNumber r
  freed : FreesOnce printNumber r a ctx l

/-- A configuration that is taken from this memory, and a connection that succeeds. -/
structure Connects (mem : Bytes) (root : Value) : Prop where
  parsed : cJSONParse mem = some root
  complete : firstFault root = none
  connected : pollWifiState r.wifiState .unknow 0 100 = .connectSuccess

/-- When it is so: the body comes in one piece with a zero behind the buffer; of a request
that must be refused, the first fault in the buffer is a member that is missing; a
configuration that connects names the area and the device; and the reply comes last, or
cannot be made. -/
structure ConfigCondition (ps : List Bytes) : Prop where
  text : r.malloc = true → failed = false → InOnePiece r ps
  missing : r.malloc = true → failed = true ∨ ¬ Configures body →
    ∀ root, cJSONParse (overlay r.mem ps) = some root → firstFault root = some .missing
  named : r.malloc = true → ∀ root, Connects r (overlay r.mem ps) root →
    (ConfigField.areaCode.text root).isSome = true ∧ (ConfigField.deviceId.text root).isSome = true
  coexist : r.malloc = true → ctx.wifiCb ≠ none →
    ∀ root, cJSONParse (overlay r.mem ps) = some root → firstFault root = none →
      ctx.apstaCoexist = false → a.root = false ∨ a.rspStr = false

end Promise

section Samples

def textMember (name text : String) : Bytes × Value := (ascii name, .string (ascii text))

/-- A body with the needed members, and with these before them. -/
def sampleBody (more : List (Bytes × Value)) : Bytes :=
  printValue (fun _ => []) (.object (more ++ [textMember "token" "t", textMember "lbs_domain" "d",
    (ascii "wifi_info", .object [textMember "ssid" "s", textMember "password" "p"])]))

def namedBody : Bytes := sampleBody [textMember "areaCode" "CN", textMember "device_id" "1"]

def sampleReq (body : Bytes) (pieces : List Recv) (state : EzhalWifiState) : ConfigReq :=
  ⟨body.length, true, List.replicate (body.length + 1) 0, pieces, fun _ => state⟩

/-- A request is served, at once or after one that names the area and the device and does
not connect. -/
def servedRun (again : Bool) : List ConnEvent :=
  [sampleStart, .request .wifiConfig, .test] ++
    if again then
      [.finish (sampleReq namedBody [.data namedBody] .passwordError), .request .wifiConfig, .test]
    else []

theorem servedRun_reaches (again : Bool) :
    ∃ s, Reach ConnState.step (fun _ _ => True) .initial s ∧
      s.handler = some (.serve .wifiConfig) ∧ s.gConnCtx.wifiCb ≠ none ∧
      s.gConnCtx.wifiInfo.cc = .strncpy (.lit (if again then "CN" else "")) ∧
      s.gConnCtx.wifiInfo.deviceId = .strncpy (.lit (if again then "1" else "")) := by
  have hrun : (((servedRun again).foldlM ConnState.step .initial).map fun s =>
      (s.handler, s.gConnCtx.wifiCb, s.gConnCtx.wifiInfo.cc, s.gConnCtx.wifiInfo.deviceId)) =
        some (some (.serve .wifiConfig), some 1, .strncpy (.lit (if again then "CN" else "")),
          .strncpy (.lit (if again then "1" else ""))) := by
    cases again <;> decide +kernel
  obtain ⟨s, hs, hvalue⟩ := Option.map_eq_some_iff.mp hrun
  simp only [Prod.mk.injEq] at hvalue
  obtain ⟨hhandler, hcb, hcc, hdevice⟩ := hvalue
  exact ⟨s, Reach.of_foldlM hs, hhandler, by simp [hcb], hcc, hdevice⟩

end Samples

/-! ## When the promise is kept -/

section Kept

variable {printNumber : Rat → Bytes} {r : ConfigReq} {a : ReplyAllocs} {ctx : EzconnCtx}
  {l : Ledger} {mem body : Bytes} {failed : Bool} {root : Value} {info : EzconnWifiInfo}

theorem text_isSome_of_complete {f : ConfigField} (h : firstFault root = none)
    (hf : f ∈ ConfigField.all) (hreq : f.required = true) : (f.text root).isSome = true := by
  have hfault := List.findSome?_eq_none_iff.mp h f hf
  unfold ConfigField.fault at hfault
  unfold ConfigField.text
  cases hitem : f.item root with
  | none => simp [hitem, hreq] at hfault
  | some x =>
      cases hx : x.valuestring with
      | none => simp [hitem, hx] at hfault
      | some t => simp [hx]

theorem store_eq {n : Nat} {t : Option CString} (h : t.isSome = true) (old old' : CField (n + 1)) :
    store old t = store old' t := by
  obtain ⟨s, rfl⟩ := Option.isSome_iff_exists.mp h
  rfl

/-- A body that names everything leaves nothing of an earlier configuration. -/
theorem configOf_eq (h : ∀ f ∈ ConfigField.all, (f.text root).isSome = true) (w w' : EzconnWifiInfo) :
    configOf root w = configOf root w' := by
  unfold configOf
  rw [store_eq (h .ssid (by decide)) w.ssid w'.ssid,
    store_eq (h .password (by decide)) w.password w'.password,
    store_eq (h .areaCode (by decide)) w.cc w'.cc,
    store_eq (h .token (by decide)) w.token w'.token,
    store_eq (h .lbsDomain (by decide)) w.domain w'.domain,
    store_eq (h .deviceId (by decide)) w.deviceId w'.deviceId]

section Received

variable (hrecv : recvBody r.mem r.remainLen r.received = some mem)

include hrecv

theorem guarded_iff : Guarded printNumber r a ctx l body failed ↔
    (r.malloc = true → failed = true ∨ ¬ Configures body →
      ∀ root, cJSONParse mem = some root → firstFault root = some .missing) := by
  constructor
  · intro hguarded hmalloc hbad root hparse
    obtain ⟨s, hs, hno⟩ := hguarded hbad
    cases hfault : firstFault root with
    | none =>
        rw [processWifiConfigRun_taken hmalloc hrecv hparse hfault] at hs
        split at hs
        next => cases hs
        next =>
          cases hs
          exact absurd (staConnect_mem _ _ _) (hno _ _)
    | some fault =>
        cases fault with
        | missing => rfl
        | noString =>
            rw [processWifiConfigRun_noString hmalloc hrecv hparse hfault] at hs
            cases hs
  · intro hmissing hbad
    cases hmalloc : r.malloc with
    | false => exact ⟨_, processWifiConfigRun_noMemory hmalloc, fun _ _ => List.not_mem_nil⟩
    | true =>
        obtain ⟨s, hs, hacts, -⟩ := processWifiConfigRun_refused hmalloc hrecv (hmissing hmalloc hbad)
        refine ⟨s, hs, fun _ _ => ?_⟩
        rw [hacts]
        exact List.not_mem_nil

theorem reports_iff : Reports printNumber r ctx info ↔
    r.malloc = true ∧ ctx.wifiCb ≠ none ∧
      ∃ root, Connects r mem root ∧ info = configOf root ctx.wifiInfo := by
  constructor
  · rintro ⟨a, l, s, hs, hreport⟩
    cases hmalloc : r.malloc with
    | false =>
        rw [processWifiConfigRun_noMemory hmalloc] at hs
        cases hs
        exact absurd hreport List.not_mem_nil
    | true =>
        rcases processWifiConfigRun_cases hmalloc hrecv hs with
          ⟨hacts, -⟩ | ⟨hcb, root, hparse, hfirst, rfl⟩
        · rw [hacts] at hreport
          exact absurd hreport List.not_mem_nil
        · obtain ⟨hconnected, hinfo⟩ := reported_iff.mp hreport
          exact ⟨rfl, hcb, root, ⟨hparse, hfirst, hconnected⟩, hinfo⟩
  · rintro ⟨hmalloc, hcb, root, ⟨hparse, hfirst, hconnected⟩, hinfo⟩
    let a : ReplyAllocs := ⟨true, true, true, true⟩
    let l : Ledger := ⟨0, []⟩
    have hs : processWifiConfigRun printNumber r a ctx l = some _ :=
      (processWifiConfigRun_taken hmalloc hrecv hparse hfirst).trans (if_neg hcb)
    exact ⟨a, l, _, hs, reported_iff.mpr ⟨hconnected, hinfo⟩⟩

theorem independent_iff : Independent printNumber r ↔
    (r.malloc = true → ∀ root, Connects r mem root →
      (ConfigField.areaCode.text root).isSome = true ∧
        (ConfigField.deviceId.text root).isSome = true) := by
  constructor
  · intro hindependent hmalloc root hconnects
    obtain ⟨s, hreach, hhandler, hcb, hcc, hdevice⟩ := servedRun_reaches false
    obtain ⟨s', hreach', hhandler', hcb', hcc', hdevice'⟩ := servedRun_reaches true
    have hsame := hindependent s s' _ _ hreach hreach' hhandler hhandler'
      ((reports_iff hrecv).mpr ⟨hmalloc, hcb, root, hconnects, rfl⟩)
      ((reports_iff hrecv).mpr ⟨hmalloc, hcb', root, hconnects, rfl⟩)
    constructor
    · have hccSame := congrArg EzconnWifiInfo.cc hsame
      cases htext : ConfigField.areaCode.text root with
      | some t => rfl
      | none =>
          simp only [configOf, htext, store, hcc, hcc'] at hccSame
          exact absurd hccSame (by decide)
    · have hdeviceSame := congrArg EzconnWifiInfo.deviceId hsame
      cases htext : ConfigField.deviceId.text root with
      | some t => rfl
      | none =>
          simp only [configOf, htext, store, hdevice, hdevice'] at hdeviceSame
          exact absurd hdeviceSame (by decide)
  · intro hnamed s s' info info' _ _ _ _ hreport hreport'
    obtain ⟨hmalloc, -, root, hconnects, rfl⟩ := (reports_iff hrecv).mp hreport
    obtain ⟨-, -, root', hconnects', rfl⟩ := (reports_iff hrecv).mp hreport'
    cases hconnects.parsed.symm.trans hconnects'.parsed
    obtain ⟨hcc, hdevice⟩ := hnamed hmalloc root hconnects
    refine configOf_eq (fun f hf => ?_) _ _
    by_cases hreq : f.required = true
    · exact text_isSome_of_complete hconnects.complete hf hreq
    · -- the two members that are not needed
      simp only [ConfigField.all, List.mem_cons, List.not_mem_nil, or_false] at hf
      rcases hf with rfl | rfl | rfl | rfl | rfl | rfl
      · exact hcc
      · exact absurd rfl hreq
      · exact absurd rfl hreq
      · exact hdevice
      · exact absurd rfl hreq
      · exact absurd rfl hreq

theorem freesOnce_iff : FreesOnce printNumber r a ctx l ↔
    (r.malloc = true → ctx.wifiCb ≠ none →
      ∀ root, cJSONParse mem = some root → firstFault root = none →
        ctx.apstaCoexist = false → a.root = false ∨ a.rspStr = false) := by
  have howes := parsedLedger_owes (Owes.first l 1) mem
  rw [fresh_one] at howes
  constructor
  · intro hfreed hmalloc hcb root hparse hfirst
    have hs : processWifiConfigRun printNumber r a ctx l = some _ :=
      (processWifiConfigRun_taken hmalloc hrecv hparse hfirst).trans (if_neg hcb)
    exact (connectWifi_settled_iff howes).mp (hfreed _ hs)
  · intro hcoexist s hs
    cases hmalloc : r.malloc with
    | false =>
        rw [processWifiConfigRun_noMemory hmalloc] at hs
        cases hs
        exact Owes.rfl
    | true =>
        rcases processWifiConfigRun_cases hmalloc hrecv hs with
          ⟨-, hledger⟩ | ⟨hcb, root, hparse, hfirst, rfl⟩
        · rw [hledger]
          exact howes.free_all
        · exact (connectWifi_settled_iff howes).mpr (hcoexist hmalloc hcb root hparse hfirst)

end Received

end Kept

/-- A request is served as promised exactly under the condition: whatever its body is, the
way it comes in pieces, and what the buffer held before. -/
theorem wifi_config_iff (printNumber : Rat → Bytes) (r : ConfigReq) (a : ReplyAllocs)
    (ctx : EzconnCtx) (l : Ledger) {body : Bytes} {ps : List Bytes} {failed : Bool}
    (hlen : body.length = r.contentLen) (hbody : ps.flatten <+: body)
    (hpieces : recvPieces r.remainLen r.received = some (ps, failed)) :
    ConfigRight printNumber r a ctx l body failed ↔ ConfigCondition r a ctx body failed ps := by
  have hrecv : recvBody r.mem r.remainLen r.received = some (overlay r.mem ps) :=
    recvBody_of_pieces hpieces
  have htext (hok : failed = false) : TextRight r body ↔ InOnePiece r ps := by
    rw [hok] at hpieces
    exact textRight_iff hpieces hbody hlen
  constructor
  · rintro ⟨htextRight, hguarded, hindependent, hfreed⟩
    exact ⟨fun hmalloc hok => (htext hok).mp (htextRight hmalloc hok), (guarded_iff hrecv).mp hguarded,
      (independent_iff hrecv).mp hindependent, (freesOnce_iff hrecv).mp hfreed⟩
  · rintro ⟨hone, hmissing, hnamed, hcoexist⟩
    exact ⟨fun hmalloc hok => (htext hok).mpr (hone hmalloc hok), (guarded_iff hrecv).mpr hmissing,
      (independent_iff hrecv).mpr hnamed, (freesOnce_iff hrecv).mpr hcoexist⟩

def sampleCtx (coexist : Bool) : EzconnCtx :=
  { EzconnCtx.zero with wifiCb := some 1, apstaCoexist := coexist }

/-- A body that names everything, after a time-out and in one piece. -/
theorem wifi_config_iff_named :
    ConfigRight (fun _ => []) (sampleReq namedBody [.timeout, .data namedBody] .connectSuccess)
      ⟨true, true, true, true⟩ (sampleCtx true) ⟨0, []⟩ namedBody false := by
  have hparsed (tail : Bytes) (htail : tail = [] ∨ tail = [0]) :
      ∃ root, cJSONParse (namedBody ++ tail) = some root ∧
        (ConfigField.all.all fun f => (f.text root).isSome) = true := by
    refine Option.map_eq_some_iff.mp ?_
    rcases htail with rfl | rfl <;> decide +kernel
  have hconfigures : Configures namedBody := by
    obtain ⟨root, hparse, hall⟩ := hparsed [] (.inl rfl)
    rw [List.append_nil] at hparse
    exact ⟨root, hparse, fun f hf _ => List.all_eq_true.mp hall f hf⟩
  have hmem : overlay (sampleReq namedBody [.timeout, .data namedBody] .connectSuccess).mem [namedBody] =
      namedBody ++ [0] := by decide +kernel
  have hbody : [namedBody].flatten <+: namedBody := by simp
  refine (wifi_config_iff _ _ _ _ _ rfl hbody (by decide +kernel)).mpr
    ⟨fun _ _ => ⟨by decide +kernel, by decide, by decide +kernel⟩, ?_, ?_, ?_⟩
  · rintro - (hfailed | hnot)
    · cases hfailed
    · exact absurd hconfigures hnot
  · rintro - root ⟨hparse, -, -⟩
    obtain ⟨root', hparse', hall⟩ := hparsed [0] (.inr rfl)
    rw [hmem] at hparse
    cases hparse.symm.trans hparse'
    have hall' := List.all_eq_true.mp hall
    exact ⟨hall' .areaCode (by decide), hall' .deviceId (by decide)⟩
  · rintro - - root - - hcoexist
    cases hcoexist

/-- A body in two pieces. -/
def splitReq : ConfigReq :=
  sampleReq namedBody [.data (namedBody.take 20), .data (namedBody.drop 20)] .connectSuccess

/-- Receiving fails at once, and the buffer holds what another request has left. -/
def staleReq : ConfigReq :=
  { sampleReq namedBody [.failed] .connectSuccess with mem := namedBody ++ [0] }

/-- A body that names neither the area nor the device. -/
def bareReq : ConfigReq := sampleReq (sampleBody []) [.data (sampleBody [])] .connectSuccess

def namedReq : ConfigReq := sampleReq namedBody [.data namedBody] .connectSuccess

/-- A body in two pieces is not the text. Where receiving fails, the configuration of another
request is tried. A body without the area is reported with an earlier one, and without
coexistence the reply is freed twice. -/
theorem two_pieces_not_the_text :
    ¬ TextRight splitReq namedBody ∧
      ¬ Guarded (fun _ => []) staleReq ⟨true, true, true, true⟩ (sampleCtx true) ⟨0, []⟩ namedBody
        true ∧
      ¬ Independent (fun _ => []) bareReq ∧
      ¬ FreesOnce (fun _ => []) namedReq ⟨true, true, true, true⟩ (sampleCtx false) ⟨0, []⟩ := by
  have hnamed : ∃ root, cJSONParse (namedBody ++ [0]) = some root ∧ firstFault root = none :=
    Option.map_eq_some_iff.mp (by decide +kernel)
  obtain ⟨root, hparse, hfirst⟩ := hnamed
  refine ⟨fun htext => ?_, fun hguarded => ?_, fun hindependent => ?_, fun hfreed => ?_⟩
  · have hpieces : recvPieces splitReq.remainLen splitReq.received =
        some ([namedBody.take 20, namedBody.drop 20], false) := by decide +kernel
    have hbody : [namedBody.take 20, namedBody.drop 20].flatten <+: namedBody := by simp
    have hone := (textRight_iff (r := splitReq) hpieces hbody rfl).mp htext
    exact absurd hone.pieces (by decide)
  · have hrecv : recvBody staleReq.mem staleReq.remainLen staleReq.received = some (namedBody ++ [0]) := by
      decide +kernel
    have hmissing := (guarded_iff (r := staleReq) hrecv).mp hguarded rfl (.inl rfl) root hparse
    rw [hfirst] at hmissing
    cases hmissing
  · have hbare : ∃ root, cJSONParse (sampleBody [] ++ [0]) = some root ∧
        (firstFault root, (ConfigField.areaCode.text root).isSome) = (none, false) :=
      Option.map_eq_some_iff.mp (by decide +kernel)
    obtain ⟨root, hparse, hvalue⟩ := hbare
    obtain ⟨hfirst, harea⟩ := Prod.mk.inj hvalue
    have hrecv : recvBody bareReq.mem bareReq.remainLen bareReq.received =
        some (sampleBody [] ++ [0]) := by decide +kernel
    have hnamed := (independent_iff (r := bareReq) hrecv).mp hindependent rfl root
      ⟨hparse, hfirst, rfl⟩
    rw [harea] at hnamed
    exact absurd hnamed.1 (by decide)
  · have hrecv : recvBody namedReq.mem namedReq.remainLen namedReq.received = some (namedBody ++ [0]) := by
      decide +kernel
    rcases (freesOnce_iff (r := namedReq) hrecv).mp hfreed rfl (by decide) root hparse hfirst rfl with
      hroot | hrsp
    · cases hroot
    · cases hrsp

end EzIot.Conn
