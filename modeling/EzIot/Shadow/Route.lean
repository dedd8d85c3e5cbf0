import EzIot.Kernel.Message
import EzIot.Shadow.Paths
import EzIot.Shadow.Status

/-! # Inputs of the shadow module

Kernel events and messages of the cloud end in one dispatcher, which tells them
apart by a type string and takes an untyped payload: the memory behind a pointer.
Reading through a null pointer or past the end of the memory is a fault, after
which the process has no state any more.
-/

namespace EzIot.Shadow

open CText CJson Nested Run Kernel

/-! ## Values from the cloud -/

/-- `is_double`: a number that is no `int` up to `DBL_EPSILON`. -/
def isDouble : Dbl → Bool
  | .inf _ => true
  | .fin q =>
      let i : Rat := (Dbl.fin q).valueint
      let epsilon : Rat := mkRat 1 (2 ^ 52)
      !(i - q ≤ epsilon && q - i ≤ epsilon && q ≤ (intMax : Rat) && (intMin : Rat) ≤ q)

/-- `json2tlv`; `print` is `cJSON_PrintUnformatted`. -/
def json2tlv (print : Value → Bytes) : Value → Option ShadowValue
  | .null => none
  | .bool b => some ⟨4, .bool (if b then 1 else 0)⟩
  | .number d => some (if isDouble d then ⟨8, .double d⟩ else ⟨4, .int d.valueint⟩)
  | .string s => some ⟨s.length.toUInt32, .string (.ofMem s)⟩
  | .array items =>
      let text := print (.array items)
      some ⟨text.length.toUInt32, .array text⟩
  | .object members =>
      let text := print (.object members)
      some ⟨text.length.toUInt32, .object text⟩

/-- `valuestring`: a null pointer unless the value is a string. -/
def valuestring : Value → Option CString
  | .string s => some (.ofMem s)
  | _ => none

/-- The surroundings of the dispatcher: the own serial, the printer of cJSON and
the results of the `business2dev` callbacks. -/
structure App where
  own : CString
  print : Value → Bytes
  cloud2dev : Callback → ShadowValue → BusinessParam → Int

/-- A call of a `business2dev` callback. -/
structure Cloud2dev where
  callback : Callback
  value : ShadowValue
  param : BusinessParam

/-- `do_set`: its result and the callback it called. -/
def doSet (app : App) (res : ShadowRes) (domain key : CString) (value : Value) (g : Modules) :
    Int × Option Cloud2dev :=
  match findKeyNode g res.devSerial.toCString res.resType.toCString res.localIndex domain key with
  | .error _ => (-1, none)
  | .ok (_, pkey) =>
      match pkey.cloud2dev with
      | none => (-1, none)
      | some cb =>
          match json2tlv app.print value with
          | none => (-1, none)
          | some tlv =>
              let param := genParam app.own res.devSerial res.resType res.localIndex domain key
              (app.cloud2dev cb tlv param, some ⟨cb, tlv, param⟩)

/-- `domain`, `identifier` and `value` of a desired state, handed to `do_set`. The
outer `none` is the fault of copying a name that is no string. -/
def setDesired (app : App) (res : ShadowRes) (g : Modules) (desired : Value) :
    Option (Int × Option Cloud2dev) :=
  match desired.getObjectItem (ascii "domain") with
  | none => some (-1, none)
  | some jsonDomain =>
      match valuestring jsonDomain with
      | none => none
      | some domain =>
          match desired.getObjectItem (ascii "identifier") with
          | none => some (-1, none)
          | some jsonIdentifier =>
              match valuestring jsonIdentifier with
              | none => none
              | some identifier =>
                  match desired.getObjectItem (ascii "value") with
                  | none => some (-1, none)
                  | some value => some (doSet app res domain identifier value g)

def shadowSet2dev (app : App) (res : ShadowRes) (payload : Option Bytes) (g : Modules) :
    Option (Int × Option Cloud2dev) :=
  match payload.bind cJSONParse with
  | none => some (-1, none)
  | some root =>
      match (root.getObjectItem (ascii "state")).bind (·.getObjectItem (ascii "desired")) with
      | none => some (-1, none)
      | some desired => setDesired app res g desired

/-- The calls of `shadow_reply2query`: one for each desired state, and none when
the reply has no code 0 or no list of desired states. -/
def queryReplyCalls (app : App) (res : ShadowRes) (payload : Option Bytes) (g : Modules) :
    Option (List Cloud2dev) :=
  match payload.bind cJSONParse with
  | none => some []
  | some root =>
      match root.getObjectItem (ascii "code") with
      | some (.number d) =>
          if d.valueint ≠ 0 then some []
          else
            match (root.getObjectItem (ascii "state")).bind
                (·.getObjectItem (ascii "desired")) with
            | some (.array items) =>
                (items.mapM (setDesired app res g)).map fun rs => rs.filterMap (·.2)
            | _ => some []
      | _ => some []

def shadowStatusSyncDisable (res : ShadowRes) (g : Modules) : Modules :=
  match findIndexNode g res.devSerial.toCString res.resType.toCString res.localIndex with
  | .error _ => g
  | .ok ((i, j, k), _) => modifyIndex g i j k fun x =>
      { x with needSync := false, syncTimer := .zero, retryCount := 0 }

/-! ## The dispatcher -/

inductive Handler
  | set2dev
  | reply2query
  | reply2report
deriving DecidableEq

/-- The branch that `shadow_core_cloud_data_in` takes for a business type. -/
def businessHandler (businessType : CString) : Option Handler :=
  if businessType = .lit "set" then some .set2dev
  else if businessType = .lit "query_reply" then some .reply2query
  else if businessType = .lit "report" then some .reply2report
  else none

/-- The `code` and `seq` of `shadow_protocol_set_reply`. -/
structure SetReply where
  res : ShadowRes
  code : Int
  seq : UInt32

/-- What an input does: the branch that was taken, the callbacks called, the
reply sent and the tree afterwards, which is `none` after a fault. -/
structure Outcome where
  ran : Option Handler
  calls : List Cloud2dev
  reply : Option SetReply
  modules : Option Modules

def Outcome.ignored (g : Modules) : Outcome := ⟨none, [], none, some g⟩

def Outcome.fault (h : Handler) : Outcome := ⟨some h, [], none, none⟩

/-- `*(ez_int32_t *)payload`. -/
def readInt32 : Bytes → Option Int32
  | a :: b :: c :: d :: _ =>
      some (Int32.ofNat (a.toNat + 256 * (b.toNat + 256 * (c.toNat + 256 * d.toNat))))
  | _ => none

def int32Bytes (i : Int32) : Bytes :=
  let n := i.toUInt32.toNat
  [n.toUInt8, (n / 256).toUInt8, (n / 65536).toUInt8, (n / 16777216).toUInt8]

/-- `shadow_core_cloud_data_in`. The resource is a null pointer for kernel
events, and the first two branches read its members. -/
def shadowCoreCloudDataIn (app : App) (res : Option ShadowRes) (seq : UInt32)
    (businessType : CString) (payload : Option Bytes) (g : Modules) : Outcome :=
  match businessHandler businessType with
  | none => .ignored g
  | some .set2dev =>
      match res.bind fun r => (shadowSet2dev app r payload g).map (r, ·) with
      | none => .fault .set2dev
      | some (r, rv, call) => ⟨some .set2dev, call.toList, some ⟨r, rv, seq⟩, some g⟩
  | some .reply2query =>
      match res.bind fun r => (queryReplyCalls app r payload g).map (r, ·) with
      | none => .fault .reply2query
      | some (r, calls) =>
          ⟨some .reply2query, calls, none, some (shadowStatusSyncDisable r g)⟩
  | some .reply2report =>
      match payload.bind readInt32 with
      | none => .fault .reply2report
      | some code => ⟨some .reply2report, [], none, some (shadowReply2report seq code.toInt g)⟩

/-- The publish acknowledgement in `iot_core_event_route`. -/
def publishAckRoute (app : App) (ack : PublishAck) (g : Modules) : Outcome :=
  if ack.moduleName.toCString = .lit "basic" then
    shadowCoreCloudDataIn app none ack.msgSeq ack.msgType.toCString
      (some (int32Bytes ack.lastError)) g
  else .ignored g

/-- The other events only raise flags. -/
def raises : KernelEvent → Option EventType
  | .online => some .online
  | .switchover => some .reset
  | .brk => some .offline
  | .reconnect => some .online
  | .publishAck _ => none

def iotCoreEventRoute (app : App) (e : KernelEvent) (g : Modules) : Outcome :=
  match e with
  | .publishAck ack => publishAckRoute app ack g
  | _ => .ignored g

def shadowDataRouteCb (app : App) (m : SubmsgV3) (g : Modules) : Outcome :=
  if m.method.toCString = .lit "shadow" then
    let serial := if m.subSerial.length = 0 then defaultName else m.subSerial.toCString
    let res : ShadowRes := ⟨.strncpy serial, .strncpy m.resourceType.toCString,
      Int16.ofInt (atoi m.resourceId.val)⟩
    shadowCoreCloudDataIn app (some res) m.msgSeq m.msgType.toCString m.buf g
  else .ignored g

/-! ## Runs -/

/-- What reaches the module, and what the device does by itself in between. -/
inductive Input
  | kernel (e : KernelEvent)
  | cloud (m : SubmsgV3)
  | internal (f : Modules → Modules)

def Input.outcome (app : App) (g : Modules) : Input → Outcome
  | .kernel e => iotCoreEventRoute app e g
  | .cloud m => shadowDataRouteCb app m g
  | .internal f => .ignored (f g)

/-- The flag event of an input; data that came in raises none. -/
def Input.raises : Input → EventType
  | .kernel e => (Shadow.raises e).getD .recv
  | _ => .recv

/-- A step of the module; a faulted process stays dead. -/
def Input.apply (app : App) (s : Option Worker) (i : Input) : Option Worker :=
  s.bind fun w => (i.outcome app w.modules).modules.map fun g =>
    shadowCoreEventOccured i.raises { w with modules := g }

/-- The members of a key that belong to its report. -/
def NodeKey.SameReport (k k' : NodeKey) : Prop :=
  k'.needReport = k.needReport ∧ k'.msgSeq = k.msgSeq ∧ k'.jsonValue = k.jsonValue ∧
    k'.reportTimer = k.reportTimer

/-- The acknowledgement of a published report. -/
def Input.IsReportAck : Input → Prop
  | .kernel (.publishAck ack) =>
      ack.moduleName.toCString = .lit "basic" ∧ ack.msgType.toCString = .lit "report"
  | _ => False

section Runs

variable (app : App) (w : Worker) (run : List Input)

/-- The module before input `n`. -/
abbrev moduleAt (n : Nat) : Option Worker := stateAt (Input.apply app) (some w) run n

/-- Acknowledgements and messages of the cloud do not do each other's work. -/
structure ChannelsSeparate : Prop where
  keys : ∀ n i before after, run[n]? = some i → moduleAt app w run n = some before →
    moduleAt app w run (n + 1) = some after → (∀ f, i ≠ .internal f) →
    ∀ q k k', keyAt before.modules q = some k → keyAt after.modules q = some k' →
    ¬ k.SameReport k' → i.IsReportAck
  cloud : ∀ n m before, run[n]? = some (.cloud m) → moduleAt app w run n = some before →
    (shadowDataRouteCb app m before.modules).ran ≠ some .reply2report
  ack : ∀ n a before, run[n]? = some (.kernel (.publishAck a)) →
    moduleAt app w run n = some before →
    (publishAckRoute app a before.modules).ran ≠ some .set2dev ∧
      (publishAckRoute app a before.modules).ran ≠ some .reply2query

end Runs

/-- The type string of the input belongs to its channel: the cloud does not send
`report`, and nothing was published as `set` or `query_reply`. -/
def Input.Proper : Input → Prop
  | .cloud m => m.method.toCString = .lit "shadow" → m.msgType.toCString ≠ .lit "report"
  | .kernel (.publishAck a) => a.moduleName.toCString = .lit "basic" →
      a.msgType.toCString ≠ .lit "set" ∧ a.msgType.toCString ≠ .lit "query_reply"
  | _ => True

/-! ### The dispatcher keeps the keys, except for a report -/

theorem NodeKey.SameReport.refl (k : NodeKey) : k.SameReport k := ⟨rfl, rfl, rfl, rfl⟩

theorem businessHandler_report {t : CString} (h : businessHandler t = some .reply2report) :
    t = .lit "report" := by
  unfold businessHandler at h
  split at h
  · cases h
  · split at h
    · cases h
    · split at h
      · assumption
      · cases h

theorem businessHandler_other {t : CString} (h : businessHandler t = some .set2dev ∨
    businessHandler t = some .reply2query) : t = .lit "set" ∨ t = .lit "query_reply" := by
  unfold businessHandler at h
  split at h
  · exact .inl (by assumption)
  · split at h
    · exact .inr (by assumption)
    · split at h <;> simp at h

/-- The branch that was taken is the one of the type string. -/
theorem dataIn_ran (app : App) (res : Option ShadowRes) (seq : UInt32) (t : CString)
    (payload : Option Bytes) (g : Modules) :
    (shadowCoreCloudDataIn app res seq t payload g).ran = businessHandler t := by
  unfold shadowCoreCloudDataIn
  cases hh : businessHandler t with
  | none => rfl
  | some h =>
      cases h <;> dsimp only <;> split <;> rfl

theorem keyAt_syncDisable (res : ShadowRes) (g : Modules) (q : KeyPath) :
    keyAt (shadowStatusSyncDisable res g) q = keyAt g q := by
  unfold shadowStatusSyncDisable
  split
  · rfl
  · refine itemAt_modify_same (fun d p => ?_) g _ q
    refine itemAt_modify_same (fun s p => ?_) d.typeLst _ p
    refine itemAt_modify_same (fun x p => ?_) s.indexLst _ p
    rfl

theorem dataIn_keys {app : App} {res : Option ShadowRes} {seq : UInt32} {t : CString}
    {payload : Option Bytes} {g g' : Modules} (ht : businessHandler t ≠ some .reply2report)
    (h : (shadowCoreCloudDataIn app res seq t payload g).modules = some g') (q : KeyPath) :
    keyAt g' q = keyAt g q := by
  unfold shadowCoreCloudDataIn at h
  cases hh : businessHandler t with
  | none =>
      simp only [hh, Outcome.ignored, Option.some.injEq] at h
      rw [h]
  | some hd =>
      cases hd with
      | set2dev =>
          simp only [hh] at h
          split at h
          · simp [Outcome.fault] at h
          · simp only [Option.some.injEq] at h
            rw [h]
      | reply2query =>
          simp only [hh] at h
          split at h
          · simp [Outcome.fault] at h
          · simp only [Option.some.injEq] at h
            rw [← h, keyAt_syncDisable]
      | reply2report => exact absurd hh ht

theorem ignored_keys {g g' : Modules} (h : (Outcome.ignored g).modules = some g') : g' = g := by
  simpa [Outcome.ignored] using h.symm

/-- One input changes the report of a key only as the acknowledgement of one. -/
theorem outcome_keys {app : App} {i : Input} (hproper : i.Proper) (hinput : ∀ f, i ≠ .internal f)
    {g g' : Modules} (h : (i.outcome app g).modules = some g') (hack : ¬ i.IsReportAck)
    (q : KeyPath) : keyAt g' q = keyAt g q := by
  cases i with
  | internal f => exact absurd rfl (hinput f)
  | cloud m =>
      simp only [Input.outcome, shadowDataRouteCb] at h
      split at h
      · rename_i hmethod
        exact dataIn_keys (fun hr => hproper hmethod (businessHandler_report hr)) h q
      · rw [ignored_keys h]
  | kernel e =>
      cases e with
      | publishAck a =>
          simp only [Input.outcome, iotCoreEventRoute, publishAckRoute] at h
          split at h
          · rename_i hmodule
            exact dataIn_keys (fun hr => hack ⟨hmodule, businessHandler_report hr⟩) h q
          · rw [ignored_keys h]
      | online | brk | switchover | reconnect => rw [ignored_keys h]

theorem cloud_ran {app : App} {m : SubmsgV3} (hproper : (Input.cloud m).Proper) (g : Modules) :
    (shadowDataRouteCb app m g).ran ≠ some .reply2report := by
  unfold shadowDataRouteCb
  split
  · rename_i hmethod
    rw [dataIn_ran]
    exact fun hr => hproper hmethod (businessHandler_report hr)
  · exact fun h => nomatch h

theorem ack_ran {app : App} {a : PublishAck} (hproper : (Input.kernel (.publishAck a)).Proper)
    (g : Modules) : (publishAckRoute app a g).ran ≠ some .set2dev ∧
      (publishAckRoute app a g).ran ≠ some .reply2query := by
  unfold publishAckRoute
  split
  · rename_i hmodule
    rcases hproper hmodule with ⟨hset, hquery⟩
    have hother : ¬ (businessHandler a.msgType.toCString = some .set2dev ∨
        businessHandler a.msgType.toCString = some .reply2query) := fun hr =>
      (businessHandler_other hr).elim hset hquery
    rw [dataIn_ran]
    exact not_or.mp hother
  · exact ⟨(fun h => nomatch h), (fun h => nomatch h)⟩

theorem shadowCoreEventOccured_modules (t : EventType) (w : Worker) :
    (shadowCoreEventOccured t w).modules = w.modules := by
  cases t with
  | report =>
      unfold shadowCoreEventOccured
      dsimp only
      split <;> rfl
  | reset | add | online | offline | recv => rfl

/-- The channels stay separate in every run of inputs whose type strings belong to
their channel, whatever the device does in between. -/
theorem channels_separate_of_proper (app : App) (w : Worker) (run : List Input)
    (hproper : ∀ i ∈ run, i.Proper) : ChannelsSeparate app w run where
  keys := by
    intro n i before after hget hbefore hafter hinput q k k' hk hk' hdiff
    by_contra hack
    rw [moduleAt, stateAt_succ _ hget, ← moduleAt, hbefore] at hafter
    obtain ⟨g', hmodules, heq⟩ := Option.map_eq_some_iff.mp hafter
    have hkeys := outcome_keys (hproper i (List.mem_of_getElem? hget)) hinput hmodules hack q
    rw [← heq, shadowCoreEventOccured_modules, hkeys, hk] at hk'
    cases hk'
    exact hdiff (NodeKey.SameReport.refl k)
  cloud n m before hget _ := cloud_ran (hproper _ (List.mem_of_getElem? hget)) _
  ack n a before hget _ := ack_ran (hproper _ (List.mem_of_getElem? hget)) _

/-! ### A proper run, and a forged acknowledgement -/

def sampleApp : App := ⟨.lit "OWN", fun _ => [], fun _ _ _ => 0⟩

/-- A message of the cloud for the sample device. -/
def cloudMessage (msgType : CField 64) (text : Bytes) : SubmsgV3 where
  buf := some text
  bufLen := text.length.toUInt32
  msgSeq := 1
  resourceId := .strncpy (.lit "0")
  resourceType := .strncpy (.lit "Video")
  module := .strncpy (.lit "basic")
  method := .strncpy (.lit "shadow")
  msgType := msgType
  subSerial := .strncpy (.lit "SUB1")
  extMsg := .strncpy (.lit "")

/-- Register a key and send its report with number 1. -/
def reportSample (g : Modules) : Modules :=
  (shadowProcReport (.lit "OWN") (fun _ => sampleVisit) 0
    (shadowCoreModuleAddv3 (.lit "OWN") sampleRegistration g).2).modules

def properRun : List Input :=
  [.internal reportSample, .cloud (cloudMessage (.strncpy (.lit "set")) (ascii "1")),
    .kernel (.publishAck ⟨0, 1, .strncpy (.lit "basic"), .strncpy (.lit "report")⟩)]

theorem properRun_separate : ChannelsSeparate sampleApp (Worker.init []) properRun :=
  channels_separate_of_proper _ _ _ (by
    intro i hi
    simp only [properRun, List.mem_cons, List.not_mem_nil, or_false] at hi
    rcases hi with rfl | rfl | rfl
    · trivial
    · exact fun _ => by decide
    · exact fun _ => by decide)

/-- The cloud sends four zero bytes as a `report`: the text is read as result
code 0 and the key is taken as acknowledged. -/
theorem forged_ack_not_separate : ¬ ChannelsSeparate sampleApp (Worker.init [])
    [.internal reportSample, .cloud (cloudMessage (.strncpy (.lit "report")) [0, 0, 0, 0])] := by
  intro h
  have hforged := h.keys 1 _ _ _ rfl rfl rfl (fun _ heq => nomatch heq) (0, 0, 0, 0, 0, ()) _ _
    rfl rfl fun hsame => absurd hsame.1 (by decide)
  exact hforged

end EzIot.Shadow
