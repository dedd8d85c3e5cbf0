import EzIot.CJson.Print
import EzIot.Kernel.State
import EzIot.Kernel.Upstream
import EzIot.Lib.Program

/-! # Packets of the LBS

The network side of `lbs_transport.c`. What the server sends, how reads, writes
and allocations end, and the cryptographic functions are arbitrary. A handshake
works on a scratch record, the affair, whose reply buffer is cleared before every
reply, so offsets into a reply count from its start. Reads behind a reply see the
cleared buffer.
-/

namespace EzIot.Lbs

open CText CJson Kernel Program

/-! ## Sessions -/

/-- What a handshake fills in before anything is saved. -/
structure Affair where
  random1 : UInt8
  random2 : UInt8
  devAccessMode : UInt16
  devAuthMode : AuthMode
  devSubserial : CField 72
  masterKey : Bytes
  devId : Bytes
  sessionKey : Bytes
  shareKey : Bytes
  outHead : Bytes
  outVarHead : Bytes
  outPayload : Bytes
  inHead : UInt8
  inVarHead : UInt8
  inPayload : Bytes

/-- How a read or a write of the socket fails. -/
inductive NetError
  | socketError
  | timeout
  | closed

def NetError.code : NetError → Nat
  | .socketError => Code.netSocketError
  | .timeout => Code.netSocketTimeout
  | .closed => Code.netSocketClosed

/-- How `net_connect` fails. -/
inductive ConnectError
  | gethostbyname
  | connect
  | timeout
deriving DecidableEq

def ConnectError.code : ConnectError → Nat
  | .gethostbyname => Code.netGethostbynameError
  | .connect => Code.netConnectError
  | .timeout => Code.netSocketTimeout

/-- How the functions of mbedTLS fail. -/
inductive CryptoError
  | aesInputLen
  | setdeckey
  | crypt
  | paddingUnmatched
  | ecpGroupLoad
  | ecdhReadPublic
  | ecdhCalcSecret
  | hmac

def CryptoError.code : CryptoError → Nat
  | .aesInputLen => Code.aesInputLen
  | .setdeckey => Code.setdeckeyError
  | .crypt => Code.cryptError
  | .paddingUnmatched => Code.aesPaddingUnmatched
  | .ecpGroupLoad => Code.ecpGroupLoadErr
  | .ecdhReadPublic => Code.ecdhReadPublicErr
  | .ecdhCalcSecret => Code.ecdhCalcSecretErr
  | .hmac => Code.hmacError

/-- The functions that a handshake calls. Each of them may fail. -/
structure Crypto where
  shareKey : DevInfo → Bool → Bytes
  publicKey : Except CryptoError Bytes
  calcSecret : Bytes → Except CryptoError Bytes
  gcmEnc : Bytes → Bytes → Except CryptoError (Bytes × Bytes)
  gcmDec : Bytes → Bytes → Bytes → Except CryptoError Bytes
  cbcEnc : Bytes → Bytes → Except CryptoError Bytes
  cbcDec : Bytes → Bytes → Except CryptoError Bytes
  md5 : Bytes → Bytes
  sha384 : Bytes → Bytes
  hmac384 : Bytes → Bytes → Except CryptoError Bytes

/-- The rest of the world: the bytes that arrive, the results of writes,
allocations and connections, and a random number. What is used up is taken away. -/
structure World where
  incoming : List (Except NetError UInt8)
  writes : List (Option NetError)
  allocs : List Bool
  creates : List Bool
  connects : List (Except ConnectError (CField 64))
  random : UInt8
  heap : Bytes

/-- `sdk_keyvalue_type`. -/
inductive KeyValue
  | devid
  | masterkey
deriving DecidableEq

/-- The kernel, the affair, the world and the calls of `key_value_save`. -/
structure Session where
  kernel : SdkKernel
  affair : Affair
  world : World
  saved : List (KeyValue × Bytes)

/-- How a handshake stops: with an error, or outside of what C defines. -/
inductive Stop
  | code (e : Nat)
  | fault
deriving DecidableEq

abbrev Run := Program Session Stop

def setAffair (f : Affair → Affair) : Run Unit := write fun s => { s with affair := f s.affair }

def check (bad : Prop) [Decidable bad] (e : Nat) : Run Unit :=
  if bad then stop (.code e) else pure ()

/-- `ezos_malloc`. -/
def malloc (e : Nat) : Run Unit := fun s =>
  match s.world.allocs with
  | false :: rest =>
      (.error (.code e), { s with world := { s.world with allocs := rest } })
  | true :: rest => (.ok (), { s with world := { s.world with allocs := rest } })
  | [] => (.ok (), s)

def crypto {α : Type} (x : Except CryptoError α) : Run α :=
  lift (match x with
    | .ok a => .ok a
    | .error e => .error (.code e.code))

/-! ## The socket -/

/-- Take bytes until there are enough of them. -/
def takeBytes : Nat → List (Except NetError UInt8) → Except NetError Bytes × List (Except NetError UInt8)
  | 0, rest => (.ok [], rest)
  | _ + 1, [] => (.error .timeout, [])
  | _ + 1, .error e :: rest => (.error e, rest)
  | n + 1, .ok b :: rest =>
      match takeBytes n rest with
      | (.ok bs, rest') => (.ok (b :: bs), rest')
      | (.error e, rest') => (.error e, rest')

/-- `net_read`. A read of no byte sees a closed connection. -/
def netReadFrom (n : Nat) (incoming : List (Except NetError UInt8)) :
    Except NetError Bytes × List (Except NetError UInt8) :=
  if n = 0 then
    match incoming with
    | [] => (.error .timeout, [])
    | .error e :: rest => (.error e, rest)
    | .ok b :: rest => (.error .closed, .ok b :: rest)
  else takeBytes n incoming

/-- An operation on what arrives. -/
def receive {α : Type}
    (f : List (Except NetError UInt8) → Except NetError α × List (Except NetError UInt8)) :
    Run α := fun s =>
  let r := f s.world.incoming
  (match r.1 with
    | .ok a => .ok a
    | .error e => .error (.code e.code),
    { s with world := { s.world with incoming := r.2 } })

def netRead (n : Nat) : Run Bytes := receive (netReadFrom n)

def readByte : Run UInt8 := do
  let b ← netRead 1
  return b.headD 0

def netWrite : Run Unit := fun s =>
  match s.world.writes with
  | some e :: rest =>
      (.error (.code e.code), { s with world := { s.world with writes := rest } })
  | none :: rest => (.ok (), { s with world := { s.world with writes := rest } })
  | [] => (.ok (), s)

def netCreate : Run Unit := fun s =>
  match s.world.creates with
  | false :: rest =>
      (.error (.code Code.netConnectError), { s with world := { s.world with creates := rest } })
  | true :: rest => (.ok (), { s with world := { s.world with creates := rest } })
  | [] => (.ok (), s)

/-- `net_connect`: the address that was connected to. -/
def netConnect : Run (Except ConnectError (CField 64)) := fun s =>
  match s.world.connects with
  | r :: rest => (.ok r, { s with world := { s.world with connects := rest } })
  | [] => (.ok (.error .timeout), s)

/-- Both attempts of `lbs_connect`. The second one goes to the address of an
earlier connection and is not made without one. -/
def lbsConnect : Run Unit := do
  netCreate
  match ← netConnect with
  | .ok ip => setIp ip
  | .error e =>
      netCreate
      let serverIp ← read fun s => s.kernel.serverInfo.serverIp
      if serverIp.length = 0 then stop (.code e.code)
      else
        match ← netConnect with
        | .ok ip => setIp ip
        | .error e => stop (.code (if e = .gethostbyname then e.code else Code.netConnectError))
where
  setIp (ip : CField 64) : Run Unit := write fun s =>
    { s with kernel := { s.kernel with serverInfo := { s.kernel.serverInfo with serverIp := ip } } }

/-! ## Replies -/

def authenticationI : UInt8 := 0x1
def authenticationII : UInt8 := 0x2
def refreshsessionkeyReq : UInt8 := 0x4
def refreshsessionkeyRsp : UInt8 := 0x6
def requestDevid : UInt8 := 0x7
def responseDevid : UInt8 := 0x8
def applyDevidCfm : UInt8 := 0x9
def cryptoDataReq : UInt8 := 0xA
def cryptoDataRsp : UInt8 := 0xB

/-- The flag of a header byte that announces a variable header. -/
def varHeadFlag (byte1 : UInt8) : UInt8 := (byte1 &&& 0x08) >>> 3

def payloadBufLen : UInt32 := messageSizeMax.toUInt32

def varHeadBufLen : UInt32 := 16

/-- The length in the header: seven bits a byte, and no limit to their number. -/
def remainLoop : List (Except NetError UInt8) → UInt32 → UInt32 →
    Except NetError UInt32 × List (Except NetError UInt8)
  | [], _, _ => (.error .timeout, [])
  | .error e :: rest, _, _ => (.error e, rest)
  | .ok byte2 :: rest, remainLen, remainMult =>
      let remainLen := remainLen + (byte2 &&& 0x7F).toUInt32 * remainMult
      if byte2 &&& 0x80 = 0 then (.ok remainLen, rest)
      else remainLoop rest remainLen (remainMult * 128)

/-- `wait_assign_response`: the command and the length of the payload. One byte is taken off for
the variable header, `var_head_buf_off` of the first reply that has one. It is not set back, and
a second such reply to the same handshake loses two; as no request after the first is answered
with this command, that handshake ends with an error either way. -/
def waitAssignResponse : Run (UInt8 × UInt32) := do
  let byte1 ← readByte
  let revCmd := (byte1 &&& 0xF0) >>> 4
  let remainLen ← receive fun incoming => remainLoop incoming 0 1
  setAffair fun a => { a with inHead := byte1 }
  if varHeadFlag byte1 = 1 ∧ revCmd = authenticationII then
    check (payloadBufLen + varHeadBufLen < remainLen) Code.memLack
    let b ← readByte
    setAffair fun a => { a with inVarHead := b }
    let remainLen := remainLen - 1
    check (payloadBufLen < remainLen) Code.memLack
    let payload ← netRead remainLen.toNat
    setAffair fun a => { a with inPayload := payload }
    return (revCmd, remainLen)
  else
    check (payloadBufLen < remainLen) Code.memLack
    let payload ← netRead remainLen.toNat
    setAffair fun a => { a with inPayload := payload }
    return (revCmd, remainLen)

/-- A reply with the expected command. -/
def waitReply (cmd : UInt8) : Run UInt32 := do
  let (revCmd, remainLen) ← waitAssignResponse
  check (revCmd ≠ cmd) Code.netReadErrorRequest
  return remainLen

/-- A byte of the reply buffer. -/
def Affair.payloadByte (a : Affair) (i : Nat) : UInt8 := a.inPayload.getD i 0

/-- Bytes of the reply buffer. -/
def Affair.payloadBytes (a : Affair) (start len : Nat) : Bytes :=
  (List.range len).map fun i => a.payloadByte (start + i)

/-! ## Requests -/

def clearLbsAffairBuf : Run Unit := setAffair fun a =>
  { a with outHead := [], outPayload := [], inHead := 0, inPayload := [] }

def appendPayload (b : Bytes) : Run Unit :=
  setAffair fun a => { a with outPayload := a.outPayload ++ b }

def commonSerialize (lowVersion : UInt8) : Run Unit := appendPayload [1, lowVersion, 0]

/-- The length bytes of a header, at most four. -/
def lengthBytes : Nat → Nat → Bytes
  | 0, _ => []
  | fuel + 1, n =>
      if 0 < n / 128 then ((n % 128).toUInt8 ||| 0x80) :: lengthBytes fuel (n / 128)
      else [(n % 128).toUInt8]

/-- `header_serialize`. The authentication types of the device go out with the
first request only; more than fourteen of them leave their buffer. -/
def headerSerialize (cmd : UInt8) : Run Unit := do
  let kernel ← read Session.kernel
  if cmd = authenticationI then
    if 14 < kernel.devAuthTypeCount.toNat then stop .fault
    else
      let varHead := [kernel.devCurAuthType, kernel.devAuthTypeCount] ++
        kernel.devAuthTypeGroup.take kernel.devAuthTypeCount.toNat
      setAffair fun a => { a with
        outVarHead := varHead ++ List.replicate (16 - varHead.length) 0
        outHead := (((cmd &&& 0x0F) <<< 4) ||| 0x2 ||| 0x8) ::
          lengthBytes 4 (a.outPayload.length + varHead.length) }
  else
    setAffair fun a => { a with
      outHead := (((cmd &&& 0x0F) <<< 4) ||| 0x2) :: lengthBytes 4 a.outPayload.length }

def headerSerializeOld (cmd : UInt8) : Run Unit := setAffair fun a =>
  { a with outHead := ((cmd &&& 0x0F) <<< 4) :: lengthBytes 4 a.outPayload.length }

def sendLbsMsg : Run Unit := do
  netWrite
  let head ← read fun s => s.affair.outHead.headD 0
  if (head &&& 0xF0) >>> 4 = authenticationI ∧ varHeadFlag head = 1 then netWrite
  else pure ()
  netWrite

end EzIot.Lbs
