import EzIot.Kernel.Extend

/-! # The state of the kernel

`ezdev_sdk_kernel` with the members that the connection to the cloud reads and
writes. Internal errors are numbers here: the answers of the servers are added to
a base value and compared with the names in the middle of the enumeration.
-/

namespace EzIot.Kernel

open CText

/-! ## Error codes -/

namespace Code

def succ : Nat := 0
def dasNeedReconnect : Nat := 4
def inputParamInvalid : Nat := 5
def memLack : Nat := 7
def netGethostbynameError : Nat := 8
def createSockError : Nat := 9
def netConnectError : Nat := 10
def netReadErrorRequest : Nat := 14
def netSocketError : Nat := 15
def netSocketTimeout : Nat := 16
def netSocketClosed : Nat := 17
def mallocError : Nat := 19
def jsonParseError : Nat := 20
def getErrorJson : Nat := 21
def jsonFormatError : Nat := 22
def forceOffline : Nat := 26
def internalErr : Nat := 35
def callMqttConnect : Nat := 100
def callMqttSubError : Nat := 101
def aesInputLen : Nat := 300
def setdeckeyError : Nat := 301
def cryptError : Nat := 302
def aesPaddingUnmatched : Nat := 303
def ecpGroupLoadErr : Nat := 304
def ecdhReadPublicErr : Nat := 305
def ecdhCalcSecretErr : Nat := 306
def platformAppointError : Nat := 600
def signCheckError : Nat := 601
def hmacError : Nat := 602
def random1CheckError : Nat := 605
def hmacCompareError : Nat := 606
def platformError : Nat := 10000
def lbsSigncheckError : Nat := 10001
def platformInvalidData : Nat := 10003
def devidInconformity : Nat := 10004
def masterkeyInvalid : Nat := 10010
def authTypeNeedRematch : Nat := 10020
def authTypeMatchFail : Nat := 10021
def mqttErrorBegin : Nat := 11000
def mqttBlacklist : Nat := 11010
def mqttRedirect : Nat := 11011
def mqttSessionExist : Nat := 11012

/-- `mkernel_internal_platform_error + result_code`; the code is a signed `char`. -/
def platform (resultCode : UInt8) : Nat := ((platformError : Int) + resultCode.toInt8.toInt).toNat

end Code

/-! ## The kernel -/

structure DasInfo where
  dasPort : UInt16
  dasUdpPort : UInt16
  dasAddress : CField 64
  dasDomain : CField 64
  dasServerid : CField 64
deriving DecidableEq

structure ServerInfo where
  serverName : CField 64
  serverIp : CField 64
  serverPort : Int16
deriving DecidableEq

inductive AuthMode
  | sap
  | license
deriving DecidableEq

structure DevInfo where
  devAccessMode : UInt16
  devAuthMode : AuthMode
  devSubserial : CField 72
  devVerificationCode : CField 48
deriving DecidableEq

/-- `sdk_entrance_state`. -/
inductive EntrState
  | normal
  | switchover
deriving DecidableEq

/-! The values of `sdk_cloud_cnt_state`. The member is a number: the code has a
branch for every other one. -/

def sdkCntUnredirect : Nat := 0
def sdkCntRedirected : Nat := 1
def sdkCntDasReged : Nat := 2
def sdkCntDasBreak : Nat := 4

/-- `sdk_dev_auth_protocol_ecdh`. -/
def authProtocolEcdh : UInt8 := 1

structure SdkKernel where
  lbsRedirectTimes : UInt8
  dasRetryTimes : UInt8
  entrState : EntrState
  cntState : Nat
  masterKey : Bytes
  devId : Bytes
  sessionKey : Bytes
  dasKeepaliveInterval : UInt32
  devInfo : DevInfo
  serverInfo : ServerInfo
  redirectDasInfo : DasInfo
  accessRisk : RiskFlag
  devCurAuthType : UInt8
  devDefAuthType : UInt8
  devAuthTypeCount : UInt8
  devLastAuthType : UInt8
  devAuthTypeGroup : List UInt8
deriving DecidableEq

/-- The member as `ezos_strcmp("", ..)` sees it. -/
def unset (key : Bytes) : Bool := key.headD 0 = 0

def DasInfo.zero : DasInfo :=
  ⟨0, 0, .strncpy (.lit ""), .strncpy (.lit ""), .strncpy (.lit "")⟩

/-- The part of `ez_kernel_init` for the connection; `masterKey` is what the flash
holds. -/
def kernelInit (serverName : CString) (serverPort : Int16) (devInfo : DevInfo) (devid : Bytes)
    (masterKey : Bytes) : SdkKernel where
  lbsRedirectTimes := 0
  dasRetryTimes := 0
  entrState := .normal
  cntState := sdkCntUnredirect
  masterKey := masterKey
  devId := devid.take 32
  sessionKey := List.replicate 16 0
  dasKeepaliveInterval := 30
  devInfo := devInfo
  serverInfo := ⟨.strncpy serverName, .strncpy (.lit ""), serverPort⟩
  redirectDasInfo := .zero
  accessRisk := .noRiskControl
  devCurAuthType := authProtocolEcdh
  devDefAuthType := authProtocolEcdh
  devAuthTypeCount := 1
  devLastAuthType := authProtocolEcdh
  devAuthTypeGroup := authProtocolEcdh :: List.replicate 63 0

end EzIot.Kernel
