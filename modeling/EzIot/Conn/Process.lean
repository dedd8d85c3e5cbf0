import EzIot.CJson.Edit

/-! # Requests of the provisioning server

An app that provisions a device sends the Wi-Fi configuration as the body of a request.
The device receives it, takes it apart and tries to connect.
-/

namespace EzIot.Conn

open CText CJson

inductive EzconnErrno
  | succ
  | invalidParam
  | internal
  | apStartFailed
  | httpdStartFailed
  | apAlreadyInit
  | noMemory
  | jsonParse
  | paramError
deriving DecidableEq

structure EzconnWifiInfo where
  ssid : CField 33
  password : CField 65
  cc : CField 4
  token : CField 128
  domain : CField 128
  deviceId : CField 32
deriving DecidableEq

structure EzconnDevInfo where
  devSerial : CField 72
  devType : CField 64
  devVersion : CField 64
deriving DecidableEq

structure EzconnCtx where
  timeOutTimer : Int
  httpdServer : Option Nat
  wifiCb : Option Nat
  devInfo : EzconnDevInfo
  wifiInfo : EzconnWifiInfo
  apstaCoexist : Bool
deriving DecidableEq

/-- `g_conn_ctx` after `ezos_memset`. -/
def EzconnCtx.zero : EzconnCtx :=
  ⟨0, none, none, ⟨.strncpy (.lit ""), .strncpy (.lit ""), .strncpy (.lit "")⟩,
    ⟨.strncpy (.lit ""), .strncpy (.lit ""), .strncpy (.lit ""), .strncpy (.lit ""),
      .strncpy (.lit ""), .strncpy (.lit "")⟩, false⟩

inductive EzhalWifiState
  | unknow
  | staConnected
  | notConnect
  | connectSuccess
  | passwordError
  | noApFound
deriving DecidableEq

/-! ## Receiving a body -/

/-- What `httpd_req_recv` returns: some bytes, a time-out, or that there are no more. -/
inductive Recv
  | data (b : Bytes)
  | timeout
  | failed
deriving DecidableEq

/-- The loop that receives the body. Every piece is written to the beginning of the
buffer; `mem` is the memory from there on, behind the buffer too. There is no result while
the loop goes on. -/
def recvBody (mem : Bytes) (remainLen : Int) : List Recv → Option Bytes
  | [] => if remainLen ≤ 0 then some mem else none
  | r :: rs =>
      if remainLen ≤ 0 then some mem
      else
        match r with
        | .timeout => recvBody mem remainLen rs
        | .failed => some mem
        | .data b =>
            if b = [] ∨ remainLen < b.length then none
            else recvBody (b ++ mem.drop b.length) (remainLen - b.length) rs

/-! ## The configuration -/

/-- The text of a member, if there is one. There is no result where it is copied from a
null pointer. -/
def memberText (v : Value) (name : String) : Option (Option CString) :=
  match v.getObjectItem (ascii name) with
  | none => some none
  | some x => x.valuestring.map some

/-- The members of the tree, stored one after the other up to the first that is missing. -/
def readConfig (root : Value) (w : EzconnWifiInfo) : Option (EzconnErrno × EzconnWifiInfo) :=
  (memberText root "areaCode").bind fun cc =>
    let w := match cc with
      | none => w
      | some s => { w with cc := .strncpy s }
    (memberText root "token").bind fun
      | none => some (.paramError, w)
      | some token =>
          let w := { w with token := .strncpy token }
          (memberText root "lbs_domain").bind fun
            | none => some (.paramError, w)
            | some domain =>
                let w := { w with domain := .strncpy domain }
                (memberText root "device_id").bind fun deviceId =>
                  let w := match deviceId with
                    | none => w
                    | some s => { w with deviceId := .strncpy s }
                  match root.getObjectItem (ascii "wifi_info") with
                  | none => some (.paramError, w)
                  | some info =>
                      (memberText info "ssid").bind fun
                        | none => some (.paramError, w)
                        | some ssid =>
                            let w := { w with ssid := .strncpy ssid }
                            (memberText info "password").bind fun
                              | none => some (.paramError, w)
                              | some password =>
                                  some (.succ, { w with password := .strncpy password })

def processWifiConfigReq (mem : Bytes) (w : EzconnWifiInfo) :
    Option (EzconnErrno × EzconnWifiInfo) :=
  match cJSONParse mem with
  | none => some (.jsonParse, w)
  | some root => readConfig root w

/-- What a request for a configuration meets: the length it announces, the memory, what is
received, and the states of the connection while it is looked at. -/
structure ConfigReq where
  contentLen : Nat
  malloc : Bool
  mem : Bytes
  received : List Recv
  wifiState : Nat → EzhalWifiState

/-- `int remain_len = req->content_len`. -/
def ConfigReq.remainLen (r : ConfigReq) : Int := Int.bmod r.contentLen 4294967296

/-- The loop that looks at the connection, at most `n` times from the `i`-th on. -/
def pollWifiState (states : Nat → EzhalWifiState) (state : EzhalWifiState) (i : Nat) :
    Nat → EzhalWifiState
  | 0 => state
  | n + 1 =>
      if states i = .connectSuccess then .connectSuccess
      else pollWifiState states (states i) (i + 1) n

/-- How `process_wifi_config` ends: before it connects, or with a connection or without. -/
inductive ConfigEnd
  | failed (ret : EzconnErrno)
  | connected (isSucc : Bool)
deriving DecidableEq

def processWifiConfig (r : ConfigReq) (ctx : EzconnCtx) : Option (ConfigEnd × EzconnWifiInfo) :=
  if r.malloc = false then some (.failed .noMemory, ctx.wifiInfo)
  else
    (recvBody r.mem r.remainLen r.received).bind fun mem =>
      (processWifiConfigReq mem ctx.wifiInfo).bind fun p =>
        if p.1 ≠ .succ then some (.failed p.1, p.2)
        else if ctx.wifiCb = none then none
        else some (.connected (decide (pollWifiState r.wifiState .unknow 0 100 = .connectSuccess)), p.2)

/-! ## Usable requests -/

/-- The body has every member that is needed. -/
def complete (root : Value) : Bool :=
  (root.getObjectItem (ascii "token")).isSome && (root.getObjectItem (ascii "lbs_domain")).isSome &&
    (match root.getObjectItem (ascii "wifi_info") with
      | none => false
      | some info =>
          (info.getObjectItem (ascii "ssid")).isSome && (info.getObjectItem (ascii "password")).isSome)

/-- There is memory for the body, and what is received is a configuration. -/
def ConfigReq.usable (r : ConfigReq) : Prop :=
  r.malloc = true ∧ ∀ mem, recvBody r.mem r.remainLen r.received = some mem →
    ∃ root, cJSONParse mem = some root ∧ complete root = true

section Usable

variable {r : ConfigReq} {ctx : EzconnCtx} {root : Value} {mem : Bytes} {w w' : EzconnWifiInfo}

theorem memberText_isSome {name : String} {t : Option CString} (h : memberText root name = some t) :
    t.isSome = (root.getObjectItem (ascii name)).isSome := by
  unfold memberText at h
  split at h
  next hnone =>
    cases h
    rw [hnone]
    rfl
  next x hsome =>
    obtain ⟨s, -, rfl⟩ := Option.map_eq_some_iff.mp h
    rw [hsome]
    rfl

theorem processWifiConfigReq_succ_iff {ret : EzconnErrno}
    (h : processWifiConfigReq mem w = some (ret, w')) :
    ret = .succ ↔ ∃ root, cJSONParse mem = some root ∧ complete root = true := by
  unfold processWifiConfigReq at h
  cases hparse : cJSONParse mem with
  | none =>
      rw [hparse] at h
      cases h
      simp
  | some root =>
      simp only [hparse, Option.some_inj, exists_eq_left'] at h ⊢
      unfold readConfig at h
      obtain ⟨cc, -, h⟩ := Option.bind_eq_some_iff.mp h
      obtain ⟨token, htoken, h⟩ := Option.bind_eq_some_iff.mp h
      have htoken' := memberText_isSome htoken
      cases token with
      | none =>
          cases h
          simp [complete, ← htoken']
      | some token =>
          obtain ⟨domain, hdomain, h⟩ := Option.bind_eq_some_iff.mp h
          have hdomain' := memberText_isSome hdomain
          cases domain with
          | none =>
              cases h
              simp [complete, ← hdomain']
          | some domain =>
              obtain ⟨deviceId, -, h⟩ := Option.bind_eq_some_iff.mp h
              cases hinfo : root.getObjectItem (ascii "wifi_info") with
              | none =>
                  rw [hinfo] at h
                  cases h
                  simp [complete, hinfo]
              | some info =>
                  rw [hinfo] at h
                  obtain ⟨ssid, hssid, h⟩ := Option.bind_eq_some_iff.mp h
                  have hssid' := memberText_isSome hssid
                  cases ssid with
                  | none =>
                      cases h
                      simp [complete, hinfo, ← hssid']
                  | some ssid =>
                      obtain ⟨password, hpassword, h⟩ := Option.bind_eq_some_iff.mp h
                      have hpassword' := memberText_isSome hpassword
                      cases password with
                      | none =>
                          cases h
                          simp [complete, hinfo, ← hpassword']
                      | some password =>
                          cases h
                          simp [complete, hinfo, ← htoken', ← hdomain', ← hssid', ← hpassword']

theorem processWifiConfig_failed_iff {e : ConfigEnd} (h : processWifiConfig r ctx = some (e, w')) :
    (∃ ret, e = .failed ret) ↔ ¬ r.usable := by
  unfold processWifiConfig at h
  split at h
  next hmalloc =>
    cases h
    simp [ConfigReq.usable, hmalloc]
  next hmalloc =>
    rw [Bool.not_eq_false] at hmalloc
    obtain ⟨mem, hrecv, h⟩ := Option.bind_eq_some_iff.mp h
    obtain ⟨⟨ret, w⟩, hreq, h⟩ := Option.bind_eq_some_iff.mp h
    have hsucc := processWifiConfigReq_succ_iff hreq
    have husable : r.usable ↔ ret = .succ := by
      simp only [ConfigReq.usable, hmalloc, true_and, hrecv, Option.some_inj, forall_eq']
      exact hsucc.symm
    rw [husable]
    split at h
    next hne =>
      cases h
      simpa using hne
    next heq =>
      split at h
      · cases h
      · cases h
        simpa using heq

end Usable

end EzIot.Conn
