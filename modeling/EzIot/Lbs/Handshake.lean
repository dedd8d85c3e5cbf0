import EzIot.Lbs.Transport

/-! # Handshakes with the LBS

Three variants: with a new device number, with the known one and a new master key,
and with both known. Each of them is a chain of steps on the affair; only the end
of the chain writes keys and addresses to the kernel and to the flash.
-/

namespace EzIot.Lbs

open CText CJson Kernel Program

variable (c : Crypto)

/-! ## Signatures -/

/-- The signature of the serial number under the master key. -/
def serialSign (a : Affair) : Except CryptoError Bytes :=
  c.hmac384 a.masterKey (c.sha384 a.devSubserial.val)

/-- `authentication_iii_serialize_serial_sha384`. -/
def signSerialize : Run Unit := do
  let a ← read Session.affair
  let sign ← crypto (serialSign c a)
  appendPayload (sign.take 48)

/-- `digital_sign_serialize_and_check_sha384` on the end of a reply. -/
def signCheck (targetSign : Bytes) (targetSignLen : UInt16) : Run Unit := do
  check (targetSignLen ≠ 48) Code.signCheckError
  let a ← read Session.affair
  let sign ← crypto (serialSign c a)
  check (targetSign ≠ sign.take 48) Code.hmacCompareError

/-! ## Authentication I and II -/

/-- The key exchange part of `send_authentication_i`. A `break` out of its switch
does not leave the loop around it, so the request is sent in any case. -/
def appendPubkey : Run Unit := do
  let pubkey ← crypto c.publicKey
  malloc Code.mallocError
  let a ← read Session.affair
  let (out, tag) ← crypto (c.gcmEnc (a.shareKey.take 16) pubkey)
  appendPayload (tag ++ out)

def authModeByte : AuthMode → UInt8
  | .sap => 0
  | .license => 1

def sendAuthenticationI : Run Unit := do
  commonSerialize 2
  let a ← read Session.affair
  appendPayload ([authModeByte a.devAuthMode, a.devSubserial.length.toUInt8] ++ a.devSubserial.val)
  let curAuthType ← read fun s => s.kernel.devCurAuthType
  if curAuthType = authProtocolEcdh then
    ignore (appendPubkey c)
    headerSerialize authenticationI
    sendLbsMsg
  else stop (.code Code.internalErr)

/-- The search for the type of the reply among those of the request. It goes
through the whole buffer, behind the types that were written there. -/
def findAuthType (outVarHead : Bytes) (inAuthType : UInt8) : Bool :=
  (List.range 13).any fun i => outVarHead.getD (i + 2) 0 == inAuthType

/-- Upper case digits of a byte, as `%02X` prints them. -/
def hexByte (b : UInt8) : Bytes :=
  [b >>> 4, b &&& 0xF].map fun d => if d < 10 then d + 48 else d + 55

/-- `ezdev_generate_masterkey`. -/
def generateMasterkey (peerPubkey : Bytes) : Run Bytes := do
  check (peerPubkey.length ≠ 97) Code.inputParamInvalid
  crypto (c.calcSecret peerPubkey)

/-- `aes_128_decrypt_peer_pubkey` into a buffer of 128 bytes; the length is kept in
eight bits. A text that is longer than the buffer is written behind it before the
tag is compared. -/
def decryptPeerPubkey (remainLen : UInt32) : Run Bytes := do
  let a ← read Session.affair
  let recvPlatKeyLen := (remainLen - 20).toUInt8
  check (recvPlatKeyLen = 0) Code.aesInputLen
  let plain := c.gcmDec (a.shareKey.take 16) (a.payloadBytes 20 recvPlatKeyLen.toNat)
    (a.payloadBytes 4 16)
  match plain with
  | .error .setdeckey => stop (.code Code.setdeckeyError)
  | _ => if 128 < recvPlatKeyLen then stop .fault else crypto plain

def parseAuthenticationII (remainLen : UInt32) : Run Unit := do
  let a ← read Session.affair
  check (varHeadFlag (a.outHead.headD 0) ≠ 1) Code.internalErr
  check (varHeadFlag a.inHead ≠ 1) Code.platformInvalidData
  if a.inVarHead ≠ a.outVarHead.headD 0 then
    if findAuthType a.outVarHead a.inVarHead then stop (.code Code.authTypeNeedRematch)
    else stop (.code Code.authTypeMatchFail)
  else
    check (a.payloadByte 3 ≠ 0) (Code.platform (a.payloadByte 3))
    let curAuthType ← read fun s => s.kernel.devCurAuthType
    if curAuthType = authProtocolEcdh then
      let peerPubkey ← decryptPeerPubkey c remainLen
      let masterkey ← generateMasterkey c peerPubkey
      setAffair fun a => { a with masterKey := ((c.md5 masterkey).take 8).flatMap hexByte }
    else stop (.code Code.internalErr)

/-- The assignment of `wait_authentication_ii` after the error that asks for it. -/
def rematch (x : Run Unit) : Run Unit := fun s =>
  match x s with
  | (.error (.code e), s') =>
      if e = Code.authTypeNeedRematch then
        (.error (.code e),
          { s' with kernel := { s'.kernel with devCurAuthType := s'.affair.inVarHead } })
      else (.error (.code e), s')
  | r => r

def waitAuthenticationII : Run Unit := do
  let remainLen ← waitReply authenticationII
  rematch (parseAuthenticationII c remainLen)

/-! ## Device number and session key -/

def sendUpdateSessionkeyReq : Run Unit := do
  commonSerialize 1
  let a ← read Session.affair
  appendPayload (32 :: a.devId)
  signSerialize c
  headerSerialize refreshsessionkeyReq
  ignore sendLbsMsg

def sendAuthenticationCreatDevId : Run Unit := do
  commonSerialize 1
  signSerialize c
  headerSerialize requestDevid
  ignore sendLbsMsg

def parseAuthenticationCreateDevId (remainLen : UInt32) : Run Unit := do
  let a ← read Session.affair
  check (a.payloadByte 3 ≠ 0) (Code.platform (a.payloadByte 3))
  check (a.payloadByte 20 ≠ 32) Code.platformAppointError
  let devId ← crypto (c.gcmDec a.masterKey (a.payloadBytes 21 32) (a.payloadBytes 4 16))
  check (devId.length ≠ 32) Code.platformAppointError
  setAffair fun a => { a with devId := devId }
  check (a.payloadByte 69 ≠ 16) Code.platformAppointError
  let sessionKey ← crypto (c.gcmDec a.masterKey (a.payloadBytes 70 16) (a.payloadBytes 53 16))
  check (sessionKey.length ≠ 16) Code.platformAppointError
  setAffair fun a => { a with sessionKey := sessionKey }
  signCheck c (a.payloadBytes 86 48) (remainLen - 86).toUInt16

def waitUpdateSessionkeyRsp : Run Unit := do
  let remainLen ← waitReply refreshsessionkeyRsp
  parseAuthenticationCreateDevId c remainLen

def waitAuthenticationCreatDevId : Run Unit := do
  let remainLen ← waitReply responseDevid
  parseAuthenticationCreateDevId c remainLen

/-! ## A new session key for known keys -/

def appendRandom (random : Affair → UInt8) : Run Unit := do
  let a ← read Session.affair
  let en ← crypto (c.cbcEnc a.masterKey [random a])
  appendPayload en

def sendRefreshsessionkeyI : Run Unit := do
  commonSerialize 1
  let a ← read Session.affair
  appendPayload (a.devSubserial.length.toUInt8 :: a.devSubserial.val ++ 32 :: a.devId)
  appendRandom c Affair.random1
  headerSerializeOld requestDevid
  ignore sendLbsMsg

def parseRefreshsessionkeyII (remainLen : UInt32) : Run Unit := do
  let a ← read Session.affair
  check (a.payloadByte 3 ≠ 0) (Code.platform (a.payloadByte 3))
  check ((remainLen - 4).toUInt8 ≠ 32) Code.platformAppointError
  let aseDst ← crypto (c.cbcDec a.masterKey (a.payloadBytes 4 32))
  check (aseDst.getD 0 0 ≠ a.random1) Code.random1CheckError
  setAffair fun a => { a with
    random2 := aseDst.getD 1 0
    sessionKey := (List.range 16).map fun i => aseDst.getD (i + 2) 0 }

def waitRefreshsessionkeyII : Run Unit := do
  let remainLen ← waitReply responseDevid
  parseRefreshsessionkeyII c remainLen

def sendRefreshsessionkeyIII : Run Unit := do
  commonSerialize 1
  appendRandom c Affair.random2
  headerSerializeOld applyDevidCfm
  ignore sendLbsMsg

/-! ## The address of the DAS -/

/-- `crypto_data_req_das_serialize` and the request around it. -/
def sendCryptoDataReq : Run Unit := do
  commonSerialize 1
  malloc Code.mallocError
  let a ← read Session.affair
  let json := printUnformatted [(ascii "DevSerial", .string a.devSubserial.val),
    (ascii "Type", .string (ascii "DAS")), (ascii "Mode", .number a.devAccessMode.toNat)]
  malloc Code.jsonFormatError
  malloc Code.mallocError
  let out ← crypto (c.cbcEnc a.sessionKey json)
  appendPayload out
  headerSerializeOld cryptoDataReq
  ignore sendLbsMsg

/-- `json_parse_das_server_info`. The pointer to the address is used without a
test. -/
def jsonParseDasServerInfo (mem : Bytes) : Except Stop DasInfo :=
  match cJSONParse mem with
  | none => .error (.code Code.jsonParseError)
  | some root =>
      match root.getObjectItem (ascii "Type") with
      | some (.string type) =>
          if type ≠ ascii "DAS" then .error (.code Code.getErrorJson)
          else match root.getObjectItem (ascii "DasInfo") with
          | none => .error (.code Code.getErrorJson)
          | some info =>
              match info.getObjectItem (ascii "Port"), info.getObjectItem (ascii "UdpPort"),
                info.getObjectItem (ascii "ServerID"), info.getObjectItem (ascii "Domain") with
              | some (.number port), some (.number udpPort), some (.string serverid),
                  some (.string domain) =>
                  match info.getObjectItem (ascii "Address") with
                  | none => .error .fault
                  | some (.string address) =>
                      if 64 ≤ address.length then .error (.code Code.platformAppointError)
                      else if 64 ≤ domain.length then .error (.code Code.platformAppointError)
                      else if 64 ≤ serverid.length then .error (.code Code.platformAppointError)
                      else .ok ⟨UInt16.ofInt port.valueint, UInt16.ofInt udpPort.valueint,
                        .strncpy (.ofMem address), .strncpy (.ofMem domain),
                        .strncpy (.ofMem serverid)⟩
                  | some _ => .error (.code Code.getErrorJson)
              | _, _, _, _ => .error (.code Code.getErrorJson)
      | _ => .error (.code Code.jsonParseError)

/-- `parse_crypto_data_rsp_das`. Nothing ends the decrypted text; the parser goes
on in what lies behind it. -/
def parseCryptoDataRspDas (remainLen : UInt32) : Run DasInfo := do
  let a ← read Session.affair
  check (a.payloadByte 3 ≠ 0) (Code.platform (a.payloadByte 3))
  let enSrcLen := remainLen - 4
  malloc Code.mallocError
  check (enSrcLen = 0 ∨ enSrcLen % 16 ≠ 0) Code.aesInputLen
  let deDst ← crypto (c.cbcDec a.sessionKey (a.payloadBytes 4 enSrcLen.toNat))
  let heap ← read fun s => s.world.heap
  lift (jsonParseDasServerInfo (deDst ++ heap))

def waitCryptoDataRspDas : Run DasInfo := do
  let remainLen ← waitReply cryptoDataRsp
  parseCryptoDataRspDas c remainLen

/-! ## The three variants -/

def initLbsAffair (nUpper : Bool) : Run Unit := do
  malloc Code.memLack
  malloc Code.memLack
  malloc Code.memLack
  malloc Code.memLack
  write fun s => { s with affair :=
    { random1 := s.world.random
      random2 := 0
      devAccessMode := s.kernel.devInfo.devAccessMode
      devAuthMode := s.kernel.devInfo.devAuthMode
      devSubserial := s.kernel.devInfo.devSubserial
      masterKey := s.kernel.masterKey
      devId := s.kernel.devId
      sessionKey := List.replicate 16 0
      shareKey := c.shareKey s.kernel.devInfo nUpper
      outHead := []
      outVarHead := List.replicate 16 0
      outPayload := []
      inHead := 0
      inVarHead := 0
      inPayload := [] } }

def saveKeyValue : Run Unit := write fun s => { s with
  kernel := { s.kernel with
    devId := s.affair.devId
    masterKey := s.affair.masterKey
    sessionKey := s.affair.sessionKey }
  saved := s.saved ++ [(.devid, s.affair.devId), (.masterkey, s.affair.masterKey)] }

def saveDasInfo (revcDasInfo : DasInfo) : Run Unit := write fun s =>
  { s with kernel := { s.kernel with redirectDasInfo := revcDasInfo } }

/-- The end of every variant. -/
def finishRedirect : Run Unit := do
  clearLbsAffairBuf
  sendCryptoDataReq c
  let revcDasInfo ← waitCryptoDataRspDas c
  saveKeyValue
  saveDasInfo revcDasInfo

def exchangeKeys (nUpper : Bool) : Run Unit := do
  initLbsAffair c nUpper
  lbsConnect
  sendAuthenticationI c
  waitAuthenticationII c
  clearLbsAffairBuf

/-- The frame of these variants: the context for the current authentication type
is set up before and released after. -/
def withEcdh (x : Run Unit) : Run Unit := do
  let curAuthType ← read fun s => s.kernel.devCurAuthType
  if curAuthType = authProtocolEcdh then
    malloc Code.memLack
    write fun s => { s with kernel := { s.kernel with devLastAuthType := s.kernel.devCurAuthType } }
    fun s =>
      let r := x s
      if r.2.kernel.devLastAuthType = authProtocolEcdh then r
      else (.error (.code Code.internalErr), r.2)
  else stop (.code Code.internalErr)

def lbsRedirectWithAuth (nUpper : Bool) : Run Unit := withEcdh do
  exchangeKeys c nUpper
  sendUpdateSessionkeyReq c
  waitUpdateSessionkeyRsp c
  finishRedirect c

def lbsRedirectCreatedevidWithAuth (nUpper : Bool) : Run Unit := withEcdh do
  exchangeKeys c nUpper
  sendAuthenticationCreatDevId c
  waitAuthenticationCreatDevId c
  finishRedirect c

def lbsRedirect : Run Unit := do
  initLbsAffair c true
  lbsConnect
  sendRefreshsessionkeyI c
  waitRefreshsessionkeyII c
  clearLbsAffairBuf
  sendRefreshsessionkeyIII c
  finishRedirect c

/-! ## The redirect of the access layer -/

/-- What `cnt_state_lbs_redirect` clears after an error. -/
def clearRejected (e : Nat) (s : Session) : Session :=
  let s := if e = Code.devidInconformity then
    { s with kernel := { s.kernel with devId := List.replicate 32 0 } } else s
  if e = Code.masterkeyInvalid then
    { s with kernel := { s.kernel with masterKey := List.replicate 16 0 } } else s

/-- One pass of `cnt_state_lbs_redirect`. -/
def redirectOnce (nUpper : Bool) : Run Unit := fun s =>
  let x := if unset s.kernel.devId then lbsRedirectCreatedevidWithAuth c nUpper
    else if unset s.kernel.masterKey then lbsRedirectWithAuth c nUpper
    else lbsRedirect c
  match x s with
  | (.error (.code e), s') => (.error (.code e), clearRejected e s')
  | r => r

/-- `cnt_state_lbs_redirect`: a wrong signature gets a second pass with the other
spelling of the share key. -/
def cntStateLbsRedirect : Run Unit := fun s =>
  match redirectOnce c true s with
  | (.error (.code e), s') =>
      if e = Code.lbsSigncheckError then redirectOnce c false s' else (.error (.code e), s')
  | r => r

end EzIot.Lbs
