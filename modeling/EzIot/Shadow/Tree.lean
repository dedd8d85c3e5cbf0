import EzIot.CJson.Parse
import EzIot.Lib.Nested

/-! # The shadow registry

Five nested lists (devices, resource types, indexes, domains, keys) hold the
registered keys. A node pointer of the source is a position here, so a key is
named by the path to it. Members that no modelled function reads (`prot_ver`,
`domain_int`) are left out, and a callback is known by a number only. An index
is stored in an `int` but always comes from an `ez_int16_t`.
-/

namespace EzIot.Shadow

open CText CJson Nested

/-! ## Timers -/

/-- `ezos_timespec_t`; the zero value is a timer that is not running. -/
structure Timespec where
  sec : Int
  nsec : Int
deriving DecidableEq

def Timespec.zero : Timespec := ⟨0, 0⟩

def timeIsexpired (timer now : Timespec) : Bool :=
  let sec := timer.sec - now.sec
  let nsec := timer.nsec - now.nsec
  let res : Timespec := if nsec < 0 then ⟨sec - 1, nsec + 1000000000⟩ else ⟨sec, nsec⟩
  res.sec < 0 || (res.sec == 0 && res.nsec ≤ 0)

/-- `time_countdown` with the clock reading as an argument. -/
def timeCountdown (timeoutMs : Nat) (now : Timespec) : Timespec :=
  let sec := (timeoutMs / 1000 : Nat) + now.sec
  let nsec := (timeoutMs % 1000 * 1000000 : Nat) + now.nsec
  if 1000000000 ≤ nsec then ⟨sec + 1, nsec - 1000000000⟩ else ⟨sec, nsec⟩

/-! ## Nodes -/

abbrev Callback := Nat

structure NodeKey where
  key : CField 32
  cloud2dev : Option Callback
  dev2cloud : Option Callback
  statVer : UInt32
  needReport : Bool
  msgSeq : UInt32
  jsonValue : Option Value
  reportTimer : Timespec

structure NodeDomain where
  domainString : CField 32
  keyLst : List NodeKey

structure NodeIndex where
  index : Int16
  needSync : Bool
  syncTimer : Timespec
  retryCount : UInt16
  domainLst : List NodeDomain

structure NodeIndexSet where
  type : CField 32
  indexLst : List NodeIndex

structure NodeDev where
  devSn : CField 48
  typeLst : List NodeIndexSet

abbrev Modules := List NodeDev

def defaultName : CString := .lit "global"

inductive ShadowErr
  | succ
  | memory
  | devNotFound
  | rsctypeNotFound
  | indexNotFound
  | domainNotFound
  | keyNotFound
deriving DecidableEq

structure ShadowRes where
  devSerial : CField 48
  resType : CField 32
  localIndex : Int16

/-- `ez_shadow_business_t`, one registered property. -/
structure Business where
  key : CField 32
  business2dev : Option Callback
  business2cloud : Option Callback

/-! ## Paths -/

abbrev KeyPath := Nat × Nat × Nat × Nat × Nat × Unit

def NodeDomain.keyAt (d : NodeDomain) : Nat × Unit → Option NodeKey :=
  itemAt (fun k _ => some k) d.keyLst

def NodeIndex.keyAt (x : NodeIndex) : Nat × Nat × Unit → Option NodeKey :=
  itemAt NodeDomain.keyAt x.domainLst

def NodeIndexSet.keyAt (s : NodeIndexSet) : Nat × Nat × Nat × Unit → Option NodeKey :=
  itemAt NodeIndex.keyAt s.indexLst

def NodeDev.keyAt (d : NodeDev) : Nat × Nat × Nat × Nat × Unit → Option NodeKey :=
  itemAt NodeIndexSet.keyAt d.typeLst

/-- The key node behind a pointer. -/
def keyAt (g : Modules) : KeyPath → Option NodeKey := itemAt NodeDev.keyAt g

/-! ## Searching -/

def isDev (sn : CString) (d : NodeDev) : Bool := d.devSn.toCString = sn
def isType (resType : CString) (s : NodeIndexSet) : Bool := s.type.toCString = resType
def isIndex (index : Int16) (x : NodeIndex) : Bool := index = x.index
def isDomain (domainId : CString) (d : NodeDomain) : Bool := d.domainString.toCString = domainId
def isKey (key : CString) (k : NodeKey) : Bool := k.key.toCString = key

def shadowModuleFindDev (lst : Modules) (sn : CString) : Option (Nat × NodeDev) :=
  locate (isDev sn) lst

def shadowModuleFindIndexs (lst : List NodeIndexSet) (resType : CString) :
    Option (Nat × NodeIndexSet) :=
  locate (isType resType) lst

def shadowModuleFindIndex (lst : List NodeIndex) (index : Int16) : Option (Nat × NodeIndex) :=
  locate (isIndex index) lst

def shadowModuleFindDomain (lst : List NodeDomain) (domainId : CString) :
    Option (Nat × NodeDomain) :=
  locate (isDomain domainId) lst

def shadowModuleFindKey (lst : List NodeKey) (key : CString) : Option (Nat × NodeKey) :=
  locate (isKey key) lst

/-- The chain of searches down to an index node, with the error of the first
search that fails. -/
def findIndexNode (g : Modules) (devSn resType : CString) (index : Int16) :
    Except ShadowErr ((Nat × Nat × Nat) × NodeIndex) :=
  match shadowModuleFindDev g devSn with
  | none => .error .devNotFound
  | some (i, dev) =>
      match shadowModuleFindIndexs dev.typeLst resType with
      | none => .error .rsctypeNotFound
      | some (j, indexs) =>
          match shadowModuleFindIndex indexs.indexLst index with
          | none => .error .indexNotFound
          | some (k, node) => .ok ((i, j, k), node)

/-- The chain of searches down to a key node. -/
def findKeyNode (g : Modules) (devSn resType : CString) (index : Int16) (domainId key : CString) :
    Except ShadowErr (KeyPath × NodeKey) :=
  match findIndexNode g devSn resType index with
  | .error e => .error e
  | .ok ((i, j, k), node) =>
      match shadowModuleFindDomain node.domainLst domainId with
      | none => .error .domainNotFound
      | some (m, dom) =>
          match shadowModuleFindKey dom.keyLst key with
          | none => .error .keyNotFound
          | some (n, pkey) => .ok ((i, j, k, m, n, ()), pkey)

/-! ## Writing through a pointer -/

def NodeDomain.modifyKey (n : Nat) (f : NodeKey → NodeKey) (d : NodeDomain) : NodeDomain :=
  { d with keyLst := d.keyLst.modify n f }

def NodeIndex.modifyKey (m n : Nat) (f : NodeKey → NodeKey) (x : NodeIndex) : NodeIndex :=
  { x with domainLst := x.domainLst.modify m (NodeDomain.modifyKey n f) }

def NodeIndexSet.modifyIndex (k : Nat) (f : NodeIndex → NodeIndex) (s : NodeIndexSet) :
    NodeIndexSet :=
  { s with indexLst := s.indexLst.modify k f }

def NodeDev.modifyIndex (j k : Nat) (f : NodeIndex → NodeIndex) (d : NodeDev) : NodeDev :=
  { d with typeLst := d.typeLst.modify j (NodeIndexSet.modifyIndex k f) }

def modifyIndex (g : Modules) (i j k : Nat) (f : NodeIndex → NodeIndex) : Modules :=
  g.modify i (NodeDev.modifyIndex j k f)

/-! ## Registration -/

def newKey (b : Business) : NodeKey where
  key := b.key
  cloud2dev := b.business2dev
  dev2cloud := b.business2cloud
  statVer := 0
  needReport := true
  msgSeq := 0
  jsonValue := none
  reportTimer := .zero

/-- A registered property is written over an existing key: the callbacks are
taken over and a report is due; the outstanding `msg_seq` stays. -/
def NodeKey.reRegister (b : Business) (k : NodeKey) : NodeKey :=
  { k with cloud2dev := b.business2dev, dev2cloud := b.business2cloud, needReport := true }

/-- One round of the loop of `shadow_module_add_domain`. -/
def addKey (lst : List NodeKey) (b : Business) : List NodeKey :=
  upsert (isKey b.key.toCString) (newKey b) (NodeKey.reRegister b) lst

def NodeDomain.addKeys (props : List Business) (d : NodeDomain) : NodeDomain :=
  { d with keyLst := props.foldl addKey d.keyLst }

def newDomain (domainId : CString) : NodeDomain := ⟨.strncpy domainId, []⟩

/-- `shadow_module_add_domain` on the index node. It gives up when there is
nothing to register. -/
def shadowModuleAddDomain (domainId : CString) (props : List Business) (x : NodeIndex) :
    NodeIndex :=
  if props = [] then x
  else
    { x with domainLst :=
        upsert (isDomain domainId) (newDomain domainId) (NodeDomain.addKeys props) x.domainLst }

def newIndex (index : Int16) : NodeIndex := ⟨index, true, .zero, 0, []⟩

/-- Find the index node or add one, then work on it. -/
def shadowModuleAddIndex (index : Int16) (body : NodeIndex → NodeIndex) (s : NodeIndexSet) :
    NodeIndexSet :=
  { s with indexLst := upsert (isIndex index) (newIndex index) body s.indexLst }

/-- The stored name of a new resource type: an empty one becomes the default. -/
def newIndexSet (resType : CString) : NodeIndexSet :=
  ⟨.strncpy (if resType.length = 0 then defaultName else resType), []⟩

/-- Find the resource type or add one, then work on it. -/
def shadowModuleAddIndexSet (resType : CString) (body : NodeIndexSet → NodeIndexSet)
    (d : NodeDev) : NodeDev :=
  { d with typeLst := upsert (isType resType) (newIndexSet resType) body d.typeLst }

def newDev (sn : CString) : NodeDev := ⟨.strncpy sn, []⟩

/-- Find the device or add one, then work on it. -/
def shadowModuleAddDev (sn : CString) (body : NodeDev → NodeDev) (g : Modules) : Modules :=
  upsert (isDev sn) (newDev sn) body g

/-- The name a serial is kept under; `own` is `dev_subserial` of the kernel. -/
def devName (own sn : CString) : CString := if own = sn then defaultName else sn

/-- What a registration names. -/
structure Registration where
  sn : CString
  resType : CString
  index : Int16
  domainId : CString
  props : List Business

/-- `shadow_core_module_addv3` where every allocation succeeds. Without
properties the nodes above the domain are added all the same. -/
def shadowCoreModuleAddv3 (own : CString) (r : Registration) (g : Modules) :
    ShadowErr × Modules :=
  (if r.props = [] then .memory else .succ,
    shadowModuleAddDev (devName own r.sn)
      (shadowModuleAddIndexSet r.resType
        (shadowModuleAddIndex r.index (shadowModuleAddDomain r.domainId r.props))) g)

/-- `shadow_core_module_clear`: the device that is found goes with its subtree. -/
def shadowCoreModuleClear (own sn : CString) (g : Modules) : Modules :=
  g.eraseP (isDev (devName own sn))

/-! ## Changed values -/

inductive ShadowData
  | bool (valueInt : Int)
  | int (valueInt : Int)
  | double (valueDouble : Dbl)
  | string (value : CString)
  | array (value : Bytes)
  | object (value : Bytes)
  | max

/-- `ez_shadow_value_t`; the text of an array or object is the memory behind the
pointer. -/
structure ShadowValue where
  length : UInt32
  data : ShadowData

def tlv2json (v : ShadowValue) : Option Value :=
  if v.length = 0 then none
  else
    match v.data with
    | .bool i => some (.bool (i ≠ 0))
    | .int i => some (.number (.ofInt i))
    | .double d => some (.number d)
    | .string s => some (.string s.val)
    | .array text => cJSONParse text
    | .object text => cJSONParse text
    | .max => none

/-- A new value makes the key due and forgets the report that is under way. -/
def NodeKey.changed (value : Option ShadowValue) (k : NodeKey) : NodeKey :=
  { k with statVer := k.statVer + 1, needReport := true, msgSeq := 0,
           jsonValue := value.bind tlv2json }

def shadowCorePropertieChanged (own sn resType : CString) (index : Int16) (domainId pkey : CString)
    (value : Option ShadowValue) (g : Modules) : ShadowErr × Modules :=
  match findKeyNode g (devName own sn) resType index domainId pkey with
  | .error e => (e, g)
  | .ok ((i, j, k, m, n, _), _) =>
      (.succ, modifyIndex g i j k fun x =>
        { NodeIndex.modifyKey m n (NodeKey.changed value) x with syncTimer := .zero })

/-! ## Traversals -/

def NodeDev.mapIndex (f : NodeIndex → NodeIndex) (d : NodeDev) : NodeDev :=
  { d with typeLst := d.typeLst.map fun s => { s with indexLst := s.indexLst.map f } }

/-- The loops over devices, resource types and indexes. -/
def mapIndex (f : NodeIndex → NodeIndex) (g : Modules) : Modules := g.map (NodeDev.mapIndex f)

def NodeIndex.reset (x : NodeIndex) : NodeIndex :=
  { x with needSync := true, syncTimer := .zero,
           domainLst := x.domainLst.map fun d =>
             { d with keyLst := d.keyLst.map fun k => { k with needReport := true } } }

/-- Every key is due again. -/
def shadowStatusReset (g : Modules) : Modules := mapIndex NodeIndex.reset g

/-- Every index is asked for its desired state again. -/
def shadowStatus2sync (g : Modules) : Modules :=
  mapIndex (fun x => { x with needSync := true, syncTimer := .zero, retryCount := 0 }) g

section Sweep

variable {σ : Type}

def NodeDomain.sweepKeys (f : CField 32 → σ → NodeKey → σ × NodeKey × Bool) (s : σ)
    (d : NodeDomain) : σ × NodeDomain × Bool :=
  let (s', l, stop) := sweep (f d.domainString) s d.keyLst
  (s', { d with keyLst := l }, stop)

def NodeIndex.sweepKeys (f : Int16 → CField 32 → σ → NodeKey → σ × NodeKey × Bool) (s : σ)
    (x : NodeIndex) : σ × NodeIndex × Bool :=
  let (s', l, stop) := sweep (NodeDomain.sweepKeys (f x.index)) s x.domainLst
  (s', { x with domainLst := l }, stop)

def NodeIndexSet.sweepKeys (f : CField 32 → Int16 → CField 32 → σ → NodeKey → σ × NodeKey × Bool)
    (s : σ) (t : NodeIndexSet) : σ × NodeIndexSet × Bool :=
  let (s', l, stop) := sweep (NodeIndex.sweepKeys (f t.type)) s t.indexLst
  (s', { t with indexLst := l }, stop)

def NodeDev.sweepKeys
    (f : CField 48 → CField 32 → Int16 → CField 32 → σ → NodeKey → σ × NodeKey × Bool) (s : σ)
    (d : NodeDev) : σ × NodeDev × Bool :=
  let (s', l, stop) := sweep (NodeIndexSet.sweepKeys (f d.devSn)) s d.typeLst
  (s', { d with typeLst := l }, stop)

/-- The five nested loops over the keys with a state, left by `goto done`. -/
def sweepKeys (f : CField 48 → CField 32 → Int16 → CField 32 → σ → NodeKey → σ × NodeKey × Bool)
    (s : σ) (g : Modules) : σ × Modules × Bool :=
  sweep (NodeDev.sweepKeys f) s g

end Sweep

/-- What an acknowledgement with a result code writes to its key. -/
def NodeKey.acknowledged (code : Int) (k : NodeKey) : NodeKey :=
  let k' := if code = 0 then { k with needReport := false, jsonValue := none } else k
  { k' with msgSeq := 0, reportTimer := .zero }

/-- `shadow_reply2report`: the first key that waits for `seq` is acknowledged. -/
def shadowReply2report (seq : UInt32) (code : Int) (g : Modules) : Modules :=
  (sweepKeys (fun _ _ _ _ (_ : Unit) k =>
    if k.msgSeq = seq then ((), k.acknowledged code, true) else ((), k, false)) () g).2.1

end EzIot.Shadow
