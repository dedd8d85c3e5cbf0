import EzIot.Lib.CText

/-! # Messages of the kernel

The message types that the modules exchange with the kernel, with the field
widths of `ez_iot_core_def.h`. A buffer is the memory behind its pointer.
-/

namespace EzIot.Kernel

open CText

inductive Qos
  | t0
  | t1
  | t2
deriving DecidableEq

/-- `ez_kernel_pubmsg_v3_t`. -/
structure PubmsgV3 where
  msgResponse : Bool
  msgQos : Qos
  msgSeq : UInt32
  msgBody : Bytes
  resourceId : CField 64
  resourceType : CField 64
  module : CField 16
  method : CField 128
  msgType : CField 64
  subSerial : CField 72
  extMsg : CField 128
deriving DecidableEq

/-- `ez_kernel_submsg_v3_t`; `bufLen` bytes of the buffer belong to the message. -/
structure SubmsgV3 where
  buf : Option Bytes
  bufLen : UInt32
  msgSeq : UInt32
  resourceId : CField 64
  resourceType : CField 64
  module : CField 16
  method : CField 128
  msgType : CField 64
  subSerial : CField 72
  extMsg : CField 128
deriving DecidableEq

/-- `ez_kernel_pubmsg_t`, a message of the older protocol. -/
structure Pubmsg where
  msgResponse : Bool
  msgQos : Qos
  msgSeq : UInt32
  msgBody : Bytes
  msgDomainId : UInt32
  msgCommandId : UInt32
  commandVer : CField 32
deriving DecidableEq

/-- `ez_kernel_submsg_t`. -/
structure Submsg where
  msgSeq : UInt32
  buf : Option Bytes
  bufLen : UInt32
  msgDomainId : Int32
  msgCommandId : Int32
  commandVer : CField 32
deriving DecidableEq

/-- `ez_kernel_publish_ack_t`. -/
structure PublishAck where
  lastError : Int32
  msgSeq : UInt32
  moduleName : CField 16
  msgType : CField 64
deriving DecidableEq

/-- The events of the kernel; only the acknowledgement has a context that is
read. -/
inductive KernelEvent
  | online
  | brk
  | switchover
  | reconnect
  | publishAck (ack : PublishAck)
deriving DecidableEq

end EzIot.Kernel
