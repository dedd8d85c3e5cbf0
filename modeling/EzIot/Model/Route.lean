import EzIot.CJson.Edit
import EzIot.Lib.Scan
import EzIot.Model.Domain
import EzIot.Model.Value

/-! # Routing messages of the things model

A message names a domain and an identifier. It goes to the request or the reply router
that the domain has registered, or unparsed to the default callback.
-/

namespace EzIot.Model

open CText CJson Kernel Ledger

/-! ## Messages -/

/-- `ez_model_type_e`. -/
inductive ModelType
  | ezEvent
  | ezAttribute
  | ezService
deriving DecidableEq

structure EzBasicInfo where
  type : ModelType
  resourceId : CField 64
  resourceType : CField 64
  domain : CField 64
  identifier : CField 64
  subserial : CField 72
deriving DecidableEq

structure EzErrInfo where
  status : Int
  errCode : CField 32
  errMsg : CField 256
deriving DecidableEq

/-- A call of one of the callbacks. -/
inductive RouterCall
  | request (router : Nat) (basicInfo : EzBasicInfo) (msgType : CField 64) (buf : ModelMsg)
      (msgSeq : UInt32)
  | reply (router : Nat) (basicInfo : EzBasicInfo) (msgType : CField 64) (status : EzErrInfo)
      (buf : ModelMsg) (msgSeq : UInt32)
  | default (router : Nat) (basicInfo : EzBasicInfo) (msgType : CField 64) (buf : Bytes)
      (len : UInt32) (msgSeq : UInt32)
deriving DecidableEq

/-- What a routing function calls, and what it leaves of the nodes it was given. -/
structure Routed where
  calls : List RouterCall
  ledger : Ledger

/-- The text of a member that is a string. -/
def stringMember (root : Value) (name : String) : CString :=
  match root.getObjectItem (ascii name) with
  | some (.string s) => .ofMem s
  | _ => .lit ""

/-- `ez_parse_das_reply`. A value that cannot be converted leaves `data` zero. -/
def ezParseDasReply (print : Value → Option Bytes) (pjsroot : Value) : EzErrInfo × ModelMsg :=
  (⟨pjsroot.intElement "status", .strncpy (stringMember pjsroot "code"),
      .strncpy (stringMember pjsroot "errorMsg")⟩,
    match pjsroot.getObjectItem (ascii "data") with
    | none => .zero
    | some pjsdata =>
        match pjsdata.getObjectItem (ascii "Value") with
        | some pjsvalue => (json2tlv print (some pjsvalue)).getD .zero
        | none => (json2tlv print (some pjsdata)).getD .zero)

/-- `strstr(msg_type, "reply")`. -/
def IsReply (msgType : CField 64) : Prop := (strstr (ascii "reply") msgType.val).isSome

instance (msgType : CField 64) : Decidable (IsReply msgType) :=
  inferInstanceAs (Decidable (_ = true))

section Router

variable (print : Value → Option Bytes) (basicInfo : EzBasicInfo) (msgType : CField 64)
  (buf : Bytes) (msgSeq : UInt32) (domainInfo : EzDomainReg)

def callReply (pjsRoot : Value) : List RouterCall :=
  (domainInfo.dasReplyRouter.map fun router =>
    .reply router basicInfo msgType (ezParseDasReply print pjsRoot).1
      (ezParseDasReply print pjsRoot).2 msgSeq).toList

def callRequest : Option ModelMsg → List RouterCall
  | none => []
  | some tlv =>
      (domainInfo.dasReqRouter.map fun router =>
        .request router basicInfo msgType tlv msgSeq).toList

/-- The end of both functions, with the calls that were made before it. -/
def leaveRoute (pjsRoot : JsonTree) (l : Ledger) (calls : List RouterCall) : Routed :=
  ⟨calls, pjsRoot.delete l⟩

/-- `ez_attribute_data_route`. The value is fetched for `set` only; for any other request
`pjsValue` is still the null pointer. -/
def ezAttributeDataRoute (l : Ledger) : Routed :=
  match parseTree buf l with
  | (none, l) => ⟨[], l⟩
  | (some pjsRoot, l) =>
      if IsReply msgType ∧ domainInfo.dasReplyRouter.isSome then
        leaveRoute pjsRoot l (callReply print basicInfo msgType msgSeq domainInfo pjsRoot.value)
      else if msgType.toCString = .lit "set" then
        match (pjsRoot.value.getObjectItem (ascii "data")).bind
            (Value.getObjectItem (ascii "Value")) with
        | none => leaveRoute pjsRoot l []
        | some pjsValue =>
            leaveRoute pjsRoot l
              (callRequest basicInfo msgType msgSeq domainInfo (json2tlv print (some pjsValue)))
      else
        leaveRoute pjsRoot l (callRequest basicInfo msgType msgSeq domainInfo (json2tlv print none))

def ezServiceDataRoute (l : Ledger) : Routed :=
  match parseTree buf l with
  | (none, l) => ⟨[], l⟩
  | (some pjsRoot, l) =>
      if IsReply msgType then
        leaveRoute pjsRoot l (callReply print basicInfo msgType msgSeq domainInfo pjsRoot.value)
      else
        match pjsRoot.value.getObjectItem (ascii "data") with
        | none => leaveRoute pjsRoot l []
        | some pjsData =>
            leaveRoute pjsRoot l
              (callRequest basicInfo msgType msgSeq domainInfo (json2tlv print (some pjsData)))

end Router

/-- The type for a method; one that is not known leaves the zero of `ezos_memset`. -/
def modelType (method : CString) : ModelType :=
  if method = .lit "event" then .ezEvent
  else if method = .lit "attribute" then .ezAttribute
  else if method = .lit "service" then .ezService
  else .ezEvent

def basicInfoOf (m : SubmsgV3) (domain identifier : CString) : EzBasicInfo where
  type := modelType m.method.toCString
  resourceId := .strncpy m.resourceId.toCString
  resourceType := .strncpy m.resourceType.toCString
  domain := .strncpy domain
  identifier := .strncpy identifier
  subserial := .strncpy m.subSerial.toCString

/-- The `switch` of `ez_model_data_route`. -/
def routeToDomain (print : Value → Option Bytes) (m : SubmsgV3) (basicInfo : EzBasicInfo)
    (buf : Bytes) (domainInfo : EzDomainReg) (l : Ledger) : Routed :=
  match basicInfo.type with
  | .ezEvent => ⟨[], l⟩
  | .ezAttribute => ezAttributeDataRoute print basicInfo m.msgType buf m.msgSeq domainInfo l
  | .ezService => ezServiceDataRoute print basicInfo m.msgType buf m.msgSeq domainInfo l

/-- `ez_model_data_route` from the lookup of the domain on. -/
def routeFound (print : Value → Option Bytes) (s : ModelState) (m : SubmsgV3)
    (basicInfo : EzBasicInfo) (buf : Bytes) (l : Ledger) : Option EzDomainReg → Option Routed
  | none =>
      s.gModelCbLockH.lock.map fun _ =>
        ⟨(s.gEzModelDataRouter.map fun router =>
          .default router basicInfo m.msgType buf m.bufLen m.msgSeq).toList, l⟩
  | some domainInfo => some (routeToDomain print m basicInfo buf domainInfo l)

/-- `ez_model_data_route`. There is no result where a mutex is gone. -/
def ezModelDataRoute (print : Value → Option Bytes) (s : ModelState) (m : SubmsgV3)
    (l : Ledger) : Option Routed :=
  match m.buf with
  | none => some ⟨[], l⟩
  | some buf =>
      match strstr (ascii "/") m.extMsg.val with
      | none => some ⟨[], l⟩
      | some strExtMsg =>
          let domainLen := m.extMsg.length - strExtMsg.length
          if 63 < domainLen then some ⟨[], l⟩
          else
            let basicInfo :=
              basicInfoOf m (.ofMem (m.extMsg.val.take domainLen)) (.ofMem strExtMsg.tail)
            (ezGetRegDomain basicInfo.domain.toCString s).bind (routeFound print s m basicInfo buf l)

/-! ## Where a message should go -/

/-- A message with a JSON body that names a domain and an identifier. -/
structure Addressed (m : SubmsgV3) (domain identifier : CField 64) (buf : Bytes) (root : Value) :
    Prop where
  received : m.buf = some buf
  body : cJSONParse buf = some root
  extMsg : m.extMsg.val = domain.val ++ ch '/' :: identifier.val
  separate : ch '/' ∉ domain.val

/-- What a request of that kind carries: nothing, or the data that it cannot be without. -/
def requestData (type : ModelType) (msgType : CField 64) (root : Value) : Option (Option Value) :=
  match type with
  | .ezEvent => none
  | .ezAttribute =>
      if msgType.toCString = .lit "set" then
        ((root.getObjectItem (ascii "data")).bind (Value.getObjectItem (ascii "Value"))).map some
      else some none
  | .ezService => (root.getObjectItem (ascii "data")).map some

/-- What a call hands on: the data, or nothing in the zeroed memory. -/
def Conveys : Option Value → ModelMsg → Prop
  | none, msg => msg = .zero
  | some v, msg => msg.Carries v

/-- A call of one of the routers of a domain. -/
def RouterCall.IsOf (d : EzDomainReg) : RouterCall → Prop
  | .request router _ _ _ _ => d.dasReqRouter = some router
  | .reply router _ _ _ _ _ => d.dasReplyRouter = some router
  | .default _ _ _ _ _ _ => False

section Spec

variable (printNumber : Rat → Bytes) (print : Value → Option Bytes) (m : SubmsgV3)
  (basicInfo : EzBasicInfo) (root : Value)

/-- The calls for a message to a registered domain. -/
structure RoutedTo (d : EzDomainReg) (calls : List RouterCall) : Prop where
  own : ∀ c ∈ calls, c.IsOf d
  reply : basicInfo.type ≠ .ezEvent → IsReply m.msgType → ∃ router,
    d.dasReplyRouter = some router ∧ calls = [.reply router basicInfo m.msgType
      (ezParseDasReply print root).1 (ezParseDasReply print root).2 m.msgSeq]
  request : basicInfo.type ≠ .ezEvent → ¬ IsReply m.msgType → ∀ data,
    requestData basicInfo.type m.msgType root = some data → ∃ router msg,
      d.dasReqRouter = some router ∧ Conveys data msg ∧
        calls = [.request router basicInfo m.msgType msg m.msgSeq]

/-- A message goes where it should. -/
def RoutesRight (s : ModelState) (buf : Bytes) : Prop :=
  ∀ l, ∃ r, ezModelDataRoute print s m l = some r ∧
    (findDomainInfo basicInfo.domain.toCString s.gModelDomains = none →
      r.calls = (s.gEzModelDataRouter.map fun router =>
        .default router basicInfo m.msgType buf m.bufLen m.msgSeq).toList) ∧
    ∀ d, findDomainInfo basicInfo.domain.toCString s.gModelDomains = some d →
      RoutedTo print m basicInfo root d r.calls

/-- The mutexes are there; a request for an attribute of a registered domain is `set`; and
its data is kept whole by the conversion. -/
structure Routable (s : ModelState) : Prop where
  domainLock : s.gModelDomainLockH ≠ .destroyed
  cbLock : findDomainInfo basicInfo.domain.toCString s.gModelDomains = none →
    s.gModelCbLockH ≠ .destroyed
  fetched : (findDomainInfo basicInfo.domain.toCString s.gModelDomains).isSome →
    basicInfo.type = .ezAttribute → ¬ IsReply m.msgType → m.msgType.toCString = .lit "set"
  kept : (findDomainInfo basicInfo.domain.toCString s.gModelDomains).isSome →
    basicInfo.type ≠ .ezEvent → ¬ IsReply m.msgType → ∀ v,
      requestData basicInfo.type m.msgType root = some (some v) → KeptWhole printNumber print v

end Spec

/-! ## The address -/

section Address

variable {m : SubmsgV3} {domain identifier : CField 64} {buf : Bytes} {root : Value}

/-- The address as the callbacks get it. -/
def addressInfo (m : SubmsgV3) (domain identifier : CField 64) : EzBasicInfo :=
  basicInfoOf m domain.toCString identifier.toCString

theorem strncpy_toCString (t : CField 64) : (.strncpy t.toCString : CField 64) = t :=
  CField.ext (CField.strncpy_of_fits (Nat.le_of_lt_succ t.fits))

theorem addressInfo_domain (m : SubmsgV3) (domain identifier : CField 64) :
    (addressInfo m domain identifier).domain = domain := strncpy_toCString domain

theorem ofMem_val (t : CString) : CString.ofMem t.val = t :=
  CString.ext (cstr_of_no_zero t.noNul)

/-- What is left of `ez_model_data_route` for such a message. -/
theorem ezModelDataRoute_addressed (print : Value → Option Bytes) (s : ModelState)
    (h : Addressed m domain identifier buf root) (l : Ledger) :
    ezModelDataRoute print s m l = (ezGetRegDomain domain.toCString s).bind
      (routeFound print s m (addressInfo m domain identifier) buf l) := by
  have hstr : strstr (ascii "/") m.extMsg.val = some (ch '/' :: identifier.val) := by
    rw [h.extMsg]
    exact strstr_byte h.separate identifier.val
  have hlen : m.extMsg.length - (ch '/' :: identifier.val).length = domain.length := by
    rw [CString.length, h.extMsg, List.length_append, Nat.add_sub_cancel]
    rfl
  have htake : m.extMsg.val.take domain.length = domain.val := by
    rw [h.extMsg]
    exact List.take_left
  have hfits : ¬ 63 < domain.length := by
    have hlt := domain.fits
    rw [CString.length]
    omega
  unfold ezModelDataRoute
  simp only [h.received, hstr, hlen, if_neg hfits, htake, List.tail_cons, ofMem_val]
  have hdomain : (basicInfoOf m domain.toCString identifier.toCString).domain = domain :=
    strncpy_toCString domain
  rw [hdomain]
  rfl

end Address

/-! ## Registered domains have their routers -/

def ModelState.step (env : Env) (s : ModelState) (i : ModelCall × Allocs) : Option ModelState :=
  (i.1.run env i.2 s).map Prod.snd

def ModelState.Valid (s : ModelState) : Prop := ∀ d ∈ s.gModelDomains, d.valid = true

section Valid

variable {env : Env} {a : Allocs} {s s' : ModelState} {rv : ModelErrcode}

theorem ezModelInit_valid (env : Env) (a : Allocs) (s : ModelState) : (ezModelInit env a s).2.Valid := by
  have hnil : (ezModelInit env a s).2.gModelDomains = [] := by
    unfold ezModelInit ezModelExternInit
    dsimp only
    repeat' split
    all_goals rfl
  intro d hd
  rw [hnil] at hd
  exact absurd hd List.not_mem_nil

theorem withInit_valid {k : ModelState → Option (ModelErrcode × ModelState)}
    (hk : ∀ s rv s', s.Valid → k s = some (rv, s') → s'.Valid) (hs : s.Valid)
    (h : withInit env a s k = some (rv, s')) : s'.Valid := by
  unfold withInit at h
  split at h
  · exact hk _ _ _ hs h
  · dsimp only at h
    split at h
    · cases h
      exact ezModelInit_valid env a s
    · exact hk _ _ _ (ezModelInit_valid env a s) h

theorem ezRegDomain_valid {d : EzDomainReg} (hs : s.Valid)
    (h : ezRegDomain a d s = some (rv, s')) : s'.Valid := by
  unfold ezRegDomain at h
  split at h
  next => cases h; exact hs
  next hvalid =>
    obtain ⟨_, -, heq⟩ := Option.map_eq_some_iff.mp h
    cases heq
    rcases ezModelAddDomainInfo_cases a d s.gModelDomains with ⟨-, hsame⟩ | ⟨hadd, -⟩
    · intro e he
      exact hs e (hsame ▸ he)
    · intro e he
      change e ∈ (ezModelAddDomainInfo a d s.gModelDomains).2 at he
      rw [hadd] at he
      rcases List.mem_append.mp he with hold | hnew
      · exact hs e hold
      · rw [List.mem_singleton.mp hnew]
        simpa using hvalid

theorem ezSetDataRouteCb_valid {router : Option (Option Nat)} (hs : s.Valid)
    (h : ezSetDataRouteCb router s = some (rv, s')) : s'.Valid := by
  cases router with
  | none => cases h; exact hs
  | some cb =>
      obtain ⟨_, -, heq⟩ := Option.map_eq_some_iff.mp h
      cases heq
      exact hs

theorem ezModelFini_valid (hs : s.Valid) (h : ezModelFini s = some s') : s'.Valid := by
  have hdeinit : ∀ t t' : ModelState, ezModelExternDeinit t = some t' →
      t'.gModelDomains = t.gModelDomains := by
    intro t t' ht
    unfold ezModelExternDeinit at ht
    split at ht <;> cases ht
    rfl
  unfold ezModelFini at h
  split at h
  · cases h
    exact hs
  · obtain ⟨_, -, h⟩ := Option.bind_eq_some_iff.mp h
    have hsame := hdeinit _ _ h
    intro d hd
    rw [hsame] at hd
    split at hd <;> exact hs d hd

theorem step_valid {i : ModelCall × Allocs} (hs : s.Valid) (h : s.step env i = some s') :
    s'.Valid := by
  obtain ⟨⟨rv, t⟩, hrun, rfl⟩ := Option.map_eq_some_iff.mp h
  obtain ⟨call, a⟩ := i
  cases call with
  | domainReg d =>
      cases d with
      | none => cases hrun; exact hs
      | some d => exact withInit_valid (fun _ _ _ hs h => ezRegDomain_valid hs h) hs hrun
  | regDefaultCb router =>
      exact withInit_valid (fun _ _ _ hs h => ezSetDataRouteCb_valid hs h) hs hrun
  | domainDereg domain =>
      simp only [ModelCall.run, ezIotModelDomainDereg] at hrun
      split at hrun
      · cases hrun; exact hs
      · cases domain with
        | none => cases hrun; exact hs
        | some name =>
            obtain ⟨u, hu, heq⟩ := Option.map_eq_some_iff.mp hrun
            cases heq
            obtain ⟨v, hv, hfini⟩ := Option.bind_eq_some_iff.mp hu
            obtain ⟨_, -, hdereg⟩ := Option.map_eq_some_iff.mp hv
            refine ezModelFini_valid (s := v) ?_ hfini
            cases hdereg
            intro d hd
            exact hs d (List.mem_of_mem_eraseP hd)
  | deregDefaultCb router =>
      simp only [ModelCall.run, ezIotModelDeregDefaultCb] at hrun
      obtain ⟨⟨rv', u⟩, hu, hrest⟩ := Option.bind_eq_some_iff.mp hrun
      obtain ⟨v, hfini, heq⟩ := Option.map_eq_some_iff.mp hrest
      cases heq
      exact ezModelFini_valid (ezSetDataRouteCb_valid hs hu) hfini

end Valid

/-! ## Calls of the routers -/

section Routed

variable {printNumber : Rat → Bytes} {print : Value → Option Bytes} {m : SubmsgV3}
  {basicInfo : EzBasicInfo} {buf : Bytes} {root : Value} {d : EzDomainReg} {l : Ledger}

theorem parseTree_some (hbody : cJSONParse buf = some root) (l : Ledger) :
    parseTree buf l = (some ⟨root, l.fresh (nodeCount root)⟩, l.alloc (nodeCount root)) := by
  rw [parseTree, hbody]
  rfl

theorem parseTree_none (hbody : cJSONParse buf = none) (l : Ledger) : parseTree buf l = (none, l) := by
  rw [parseTree, hbody]

/-- Every path of the two functions from the parsed body on ends in `leaveRoute`. -/
theorem leaveRoute_settled (root : Value) (l : Ledger) (calls : List RouterCall) :
    Settled l (leaveRoute ⟨root, l.fresh (nodeCount root)⟩ (l.alloc (nodeCount root)) calls).ledger :=
  (Owes.first l _).free_all

theorem ezAttributeDataRoute_settled (msgType : CField 64) (msgSeq : UInt32) :
    Settled l (ezAttributeDataRoute print basicInfo msgType buf msgSeq d l).ledger := by
  unfold ezAttributeDataRoute
  cases hbody : cJSONParse buf with
  | none =>
      rw [parseTree_none hbody]
      exact Owes.rfl
  | some root =>
      rw [parseTree_some hbody]
      dsimp only
      split
      · exact leaveRoute_settled root l _
      · split
        · split
          · exact leaveRoute_settled root l _
          · exact leaveRoute_settled root l _
        · exact leaveRoute_settled root l _

theorem ezServiceDataRoute_settled (msgType : CField 64) (msgSeq : UInt32) :
    Settled l (ezServiceDataRoute print basicInfo msgType buf msgSeq d l).ledger := by
  unfold ezServiceDataRoute
  cases hbody : cJSONParse buf with
  | none =>
      rw [parseTree_none hbody]
      exact Owes.rfl
  | some root =>
      rw [parseTree_some hbody]
      dsimp only
      split
      · exact leaveRoute_settled root l _
      · split
        · exact leaveRoute_settled root l _
        · exact leaveRoute_settled root l _

theorem EzDomainReg.routers (hd : d.valid = true) :
    ∃ request reply, d.dasReqRouter = some request ∧ d.dasReplyRouter = some reply := by
  unfold EzDomainReg.valid at hd
  rw [Bool.and_eq_true, Bool.and_eq_true] at hd
  obtain ⟨reply, hreply⟩ := Option.isSome_iff_exists.mp hd.1.1
  obtain ⟨request, hrequest⟩ := Option.isSome_iff_exists.mp hd.1.2
  exact ⟨request, reply, hrequest, hreply⟩

/-- Both near-copies treat a reply alike. -/
theorem routeToDomain_reply (hbody : cJSONParse buf = some root) (hd : d.valid = true)
    (htype : basicInfo.type ≠ .ezEvent) (hreply : IsReply m.msgType) :
    (routeToDomain print m basicInfo buf d l).calls =
      callReply print basicInfo m.msgType m.msgSeq d root := by
  obtain ⟨_, _, -, hrouter⟩ := d.routers hd
  have hboth : IsReply m.msgType ∧ d.dasReplyRouter.isSome := by
    rw [hrouter]
    exact ⟨hreply, rfl⟩
  unfold routeToDomain
  cases htypeOf : basicInfo.type with
  | ezEvent => exact absurd htypeOf htype
  | ezAttribute =>
      simp only [ezAttributeDataRoute, parseTree_some hbody, if_pos hboth]
      rfl
  | ezService =>
      simp only [ezServiceDataRoute, parseTree_some hbody, if_pos hreply]
      rfl

/-- A request is called with the value of its data; `json2tlv` refuses the null pointer that
stands for no data. -/
theorem routeToDomain_request (hbody : cJSONParse buf = some root)
    (hreply : ¬ IsReply m.msgType) :
    (routeToDomain print m basicInfo buf d l).calls = callRequest basicInfo m.msgType m.msgSeq d
      ((requestData basicInfo.type m.msgType root).bind (json2tlv print)) := by
  unfold routeToDomain requestData
  cases basicInfo.type with
  | ezEvent => rfl
  | ezAttribute =>
      simp only [ezAttributeDataRoute, parseTree_some hbody]
      rw [if_neg fun h => hreply h.1]
      by_cases hset : m.msgType.toCString = .lit "set"
      · simp only [if_pos hset]
        cases (root.getObjectItem (ascii "data")).bind (Value.getObjectItem (ascii "Value")) <;> rfl
      · simp only [if_neg hset]
        rfl
  | ezService =>
      simp only [ezServiceDataRoute, parseTree_some hbody]
      rw [if_neg hreply]
      cases root.getObjectItem (ascii "data") <;> rfl

theorem routeToDomain_own (hbody : cJSONParse buf = some root) (hd : d.valid = true) :
    ∀ c ∈ (routeToDomain print m basicInfo buf d l).calls, c.IsOf d := by
  obtain ⟨request, reply, hrequest, hrouter⟩ := d.routers hd
  intro c hc
  by_cases hreply : IsReply m.msgType
  · by_cases htype : basicInfo.type = .ezEvent
    · simp [routeToDomain, htype] at hc
    · rw [routeToDomain_reply hbody hd htype hreply, callReply, hrouter] at hc
      rw [List.mem_singleton.mp hc]
      exact hrouter
  · rw [routeToDomain_request hbody hreply] at hc
    cases hdata : (requestData basicInfo.type m.msgType root).bind (json2tlv print) with
    | none => simp [hdata, callRequest] at hc
    | some tlv =>
        rw [hdata, callRequest, hrequest] at hc
        rw [List.mem_singleton.mp hc]
        exact hrequest

theorem formed_requestData {type : ModelType} {msgType : CField 64} {v : Value}
    (hbody : cJSONParse buf = some root)
    (hdata : requestData type msgType root = some (some v)) : Formed 0 (.value v) := by
  have hroot := formed_of_cJSONParse hbody
  cases type with
  | ezEvent => cases hdata
  | ezAttribute =>
      unfold requestData at hdata
      dsimp only at hdata
      split at hdata
      · obtain ⟨_, hvalue, heq⟩ := Option.map_eq_some_iff.mp hdata
        cases heq
        obtain ⟨_, hmember, hvalue⟩ := Option.bind_eq_some_iff.mp hvalue
        exact (hroot.getObjectItem hmember).getObjectItem hvalue
      · cases hdata
  | ezService =>
      obtain ⟨_, hvalue, heq⟩ := Option.map_eq_some_iff.mp hdata
      cases heq
      exact hroot.getObjectItem hvalue

/-- The calls for a registered domain are right exactly if a request for an attribute is
`set` and its data is kept whole. -/
theorem routedTo_iff (htexts : NumberTexts printNumber) (hprint : PrintsBy printNumber print)
    (m : SubmsgV3) (basicInfo : EzBasicInfo) (hbody : cJSONParse buf = some root)
    (hd : d.valid = true) (l : Ledger) :
    RoutedTo print m basicInfo root d (routeToDomain print m basicInfo buf d l).calls ↔
      (basicInfo.type = .ezAttribute → ¬ IsReply m.msgType → m.msgType.toCString = .lit "set") ∧
        (basicInfo.type ≠ .ezEvent → ¬ IsReply m.msgType → ∀ v,
          requestData basicInfo.type m.msgType root = some (some v) →
            KeptWhole printNumber print v) := by
  obtain ⟨request, reply, hrequest, hrouter⟩ := d.routers hd
  constructor
  · intro h
    constructor
    · intro htype hreply
      by_contra hset
      have hdata : requestData basicInfo.type m.msgType root = some none := by
        rw [htype, requestData, if_neg hset]
      obtain ⟨_, _, -, -, hcalls⟩ := h.request (by simp [htype]) hreply none hdata
      rw [routeToDomain_request hbody hreply, hdata] at hcalls
      cases hcalls
    · intro htype hreply v hdata
      obtain ⟨_, msg, -, hcarries, hcalls⟩ := h.request htype hreply (some v) hdata
      rw [routeToDomain_request hbody hreply, hdata, Option.bind_some] at hcalls
      refine (json2tlv_carries_iff htexts hprint (formed_requestData hbody hdata)).mp ⟨msg, ?_, hcarries⟩
      -- the one call that was made has the value that was converted
      cases hmsg : json2tlv print (some v) with
      | none =>
          rw [hmsg] at hcalls
          cases hcalls
      | some made =>
          rw [hmsg, callRequest, hrequest] at hcalls
          cases hcalls
          rfl
  · rintro ⟨hset, hkept⟩
    refine ⟨routeToDomain_own hbody hd, ?_, ?_⟩
    · intro htype hreply
      refine ⟨reply, hrouter, ?_⟩
      rw [routeToDomain_reply hbody hd htype hreply, callReply, hrouter]
      rfl
    · intro htype hreply data hdata
      cases data with
      | none =>
          exfalso
          cases htypeOf : basicInfo.type with
          | ezEvent => exact htype htypeOf
          | ezAttribute =>
              rw [htypeOf, requestData, if_pos (hset htypeOf hreply)] at hdata
              rcases Option.map_eq_some_iff.mp hdata with ⟨_, -, hdata⟩
              cases hdata
          | ezService =>
              rw [htypeOf, requestData] at hdata
              rcases Option.map_eq_some_iff.mp hdata with ⟨_, -, hdata⟩
              cases hdata
      | some v =>
          obtain ⟨msg, hmsg, hcarries⟩ := (json2tlv_carries_iff htexts hprint
            (formed_requestData hbody hdata)).mpr (hkept htype hreply v hdata)
          refine ⟨request, msg, hrequest, hcarries, ?_⟩
          rw [routeToDomain_request hbody hreply, hdata, Option.bind_some, hmsg, callRequest, hrequest]
          rfl

end Routed

/-! ## All messages -/

theorem lock_eq_some_iff {l : Lock} : l.lock = some () ↔ l ≠ .destroyed := by
  unfold Lock.lock
  split
  next h => simp [h]
  next h => simp [h]

theorem lock_destroyed {l : Lock} (h : ¬ l ≠ .destroyed) : l.lock = none := by
  rw [not_ne_iff.mp h]
  rfl

section All

variable {printNumber : Rat → Bytes} {print : Value → Option Bytes}

theorem routesRight_iff (htexts : NumberTexts printNumber) (hprint : PrintsBy printNumber print)
    {s : ModelState} (hs : s.Valid) {m : SubmsgV3} {domain identifier : CField 64} {buf : Bytes}
    {root : Value} (h : Addressed m domain identifier buf root) :
    RoutesRight print m (addressInfo m domain identifier) root s buf ↔
      Routable printNumber print m (addressInfo m domain identifier) root s := by
  have hdomain := addressInfo_domain m domain identifier
  by_cases hlock : s.gModelDomainLockH ≠ .destroyed
  swap
  · refine iff_of_false (fun hright => ?_) fun hroutable => hlock hroutable.domainLock
    obtain ⟨r, hr, -⟩ := hright ⟨0, []⟩
    rw [ezModelDataRoute_addressed print s h, ezGetRegDomain, lock_destroyed hlock] at hr
    cases hr
  have hroute (l : Ledger) : ezModelDataRoute print s m l =
      routeFound print s m (addressInfo m domain identifier) buf l
        (findDomainInfo domain.toCString s.gModelDomains) := by
    rw [ezModelDataRoute_addressed print s h, ezGetRegDomain, lock_eq_some_iff.mpr hlock]
    rfl
  unfold RoutesRight
  rw [hdomain]
  cases hfind : findDomainInfo domain.toCString s.gModelDomains with
  | none =>
      have hunknown : ¬ (findDomainInfo (addressInfo m domain identifier).domain.toCString
          s.gModelDomains).isSome := by
        rw [hdomain, hfind]
        exact Bool.false_ne_true
      constructor
      · intro hright
        obtain ⟨r, hr, -⟩ := hright ⟨0, []⟩
        rw [hroute, hfind] at hr
        obtain ⟨_, hcb, -⟩ := Option.map_eq_some_iff.mp hr
        exact ⟨hlock, fun _ => lock_eq_some_iff.mp hcb, fun hsome => absurd hsome hunknown,
          fun hsome => absurd hsome hunknown⟩
      · intro hroutable l
        have hcb := hroutable.cbLock (by rw [hdomain]; exact hfind)
        refine ⟨⟨_, l⟩, ?_, fun _ => rfl, ?_⟩
        · rw [hroute, hfind, routeFound, lock_eq_some_iff.mpr hcb]
          rfl
        · intro d hd
          cases hd
  | some d =>
      have hvalid : d.valid = true := hs d (List.mem_of_find?_eq_some hfind)
      have hiff := routedTo_iff htexts hprint m (addressInfo m domain identifier) h.body hvalid
      constructor
      · intro hright
        obtain ⟨r, hr, -, hrouted⟩ := hright ⟨0, []⟩
        rw [hroute, hfind] at hr
        cases hr
        obtain ⟨hset, hkept⟩ := (hiff ⟨0, []⟩).mp (hrouted d rfl)
        refine ⟨hlock, ?_, fun _ => hset, fun _ => hkept⟩
        intro hnone
        rw [hdomain, hfind] at hnone
        cases hnone
      · intro hroutable l
        have hsome : (findDomainInfo (addressInfo m domain identifier).domain.toCString
            s.gModelDomains).isSome := by
          rw [hdomain, hfind]
          rfl
        refine ⟨_, (hroute l).trans (by rw [hfind]; rfl), ?_, ?_⟩
        · intro hnone
          cases hnone
        · intro e he
          cases he
          exact (hiff l).mpr ⟨hroutable.fetched hsome, hroutable.kept hsome⟩

/-- After any calls of the interface, a message goes where it should, with its data, exactly
if it is routable. -/
theorem model_route_iff (htexts : NumberTexts printNumber) (hprint : PrintsBy printNumber print)
    (env : Env) {s₀ s : ModelState} (hnone : s₀.gModelDomains = [])
    (hreach : Run.Reach (ModelState.step env) (fun _ _ => True) s₀ s) {m : SubmsgV3}
    {domain identifier : CField 64} {buf : Bytes} {root : Value}
    (h : Addressed m domain identifier buf root) :
    RoutesRight print m (addressInfo m domain identifier) root s buf ↔
      Routable printNumber print m (addressInfo m domain identifier) root s := by
  have hstart : s₀.Valid := by
    intro d hd
    rw [hnone] at hd
    exact absurd hd List.not_mem_nil
  have hvalid : s.Valid := hreach.invariant (I := ModelState.Valid) hstart
    fun _ _ _ hs _ hstep => step_valid hs hstep
  exact routesRight_iff htexts hprint hvalid h

end All

/-! A device with one domain. -/

def sampleModel : ModelState where
  gInited := true
  gModelDomains := [sampleDomain]
  gModelDomainLockH := .live
  gModelCbLockH := .live
  gEzModelDataRouter := none
  tables := (ezKernelExtendLoadV3 sampleEnv.myState (some (externInfo sampleEnv)) sampleTables).2

theorem sampleModel_reach : Run.Reach (ModelState.step sampleEnv) (fun _ _ => True)
    (Session.initial sampleTables).model sampleModel :=
  .next (i := (.domainReg (some sampleDomain), .fine)) .start trivial (by decide +kernel)

def attributeMessage (msgType : String) (body : String) : SubmsgV3 where
  buf := some (ascii body)
  bufLen := (ascii body).length.toUInt32
  msgSeq := 7
  resourceId := .strncpy (.lit "0")
  resourceType := .strncpy (.lit "Video")
  module := .strncpy (.lit "model")
  method := .strncpy (.lit "attribute")
  msgType := .strncpy (.lit msgType)
  subSerial := .strncpy (.lit "")
  extMsg := .strncpy (.lit "light/power")

theorem attributeMessage_addressed {msgType body : String} {root : Value}
    (hbody : cJSONParse (ascii body) = some root) :
    Addressed (attributeMessage msgType body) (.strncpy (.lit "light")) (.strncpy (.lit "power"))
      (ascii body) root := by
  have hext : (CField.strncpy (.lit "light/power") : CField 128).val =
      (CField.strncpy (.lit "light") : CField 64).val ++
        ch '/' :: (CField.strncpy (.lit "power") : CField 64).val := by decide +kernel
  exact ⟨rfl, hbody, hext, by decide +kernel⟩

def setBody : String := "\x7b\"data\":\x7b\"Value\":[1,-20]\x7d\x7d"

def setRoot : Value :=
  .object [(ascii "data", .object [(ascii "Value",
    .array [.number (.ofInt 1), .number (.ofInt (-20))])])]

/-- `cJSON_PrintUnformatted`, with memory for every text. -/
def samplePrint (v : Value) : Option Bytes := some (printValue integerTexts v)

theorem samplePrint_printsBy : PrintsBy integerTexts samplePrint := by
  rintro v text ⟨⟩
  rfl

/-- A `set` reaches the domain. -/
theorem model_route_iff_set : RoutesRight samplePrint (attributeMessage "set" setBody)
    (addressInfo (attributeMessage "set" setBody) (.strncpy (.lit "light")) (.strncpy (.lit "power")))
    setRoot sampleModel (ascii setBody) := by
  have hparse : cJSONParse (ascii setBody) = some setRoot := by decide +kernel
  refine (model_route_iff numberTexts_integerTexts samplePrint_printsBy sampleEnv rfl
    sampleModel_reach (attributeMessage_addressed hparse)).mpr
    ⟨by decide, by decide, fun _ _ _ => by decide +kernel, ?_⟩
  intro _ _ _ v hdata
  have hset : requestData .ezAttribute (attributeMessage "set" setBody).msgType setRoot =
      some (some (.array [.number (.ofInt 1), .number (.ofInt (-20))])) := by
    decide +kernel
  rw [← Option.some.inj (Option.some.inj (hset.symm.trans hdata))]
  exact ⟨rfl, printable_integers [1, -20] (by decide)⟩

/-- A `get` reaches nobody. -/
theorem get_not_routed : Run.Reach (ModelState.step sampleEnv) (fun _ _ => True)
      (Session.initial sampleTables).model sampleModel ∧
    Addressed (attributeMessage "get" "\x7b\x7d") (.strncpy (.lit "light")) (.strncpy (.lit "power"))
      (ascii "\x7b\x7d") (.object []) ∧
    (ezModelDataRoute samplePrint sampleModel (attributeMessage "get" "\x7b\x7d") ⟨0, []⟩).map
      Routed.calls = some [] ∧
    ¬ RoutesRight samplePrint (attributeMessage "get" "\x7b\x7d")
      (addressInfo (attributeMessage "get" "\x7b\x7d") (.strncpy (.lit "light"))
        (.strncpy (.lit "power")))
      (.object []) sampleModel (ascii "\x7b\x7d") := by
  have hparse : cJSONParse (ascii "\x7b\x7d") = some (.object []) := by decide +kernel
  have hcalls : (ezModelDataRoute samplePrint sampleModel (attributeMessage "get" "\x7b\x7d")
      ⟨0, []⟩).map Routed.calls = some [] := by decide +kernel
  refine ⟨sampleModel_reach, attributeMessage_addressed hparse, hcalls, ?_⟩
  intro hright
  obtain ⟨r, hr, -, hrouted⟩ := hright ⟨0, []⟩
  have hfind : findDomainInfo (addressInfo (attributeMessage "get" "\x7b\x7d")
      (.strncpy (.lit "light")) (.strncpy (.lit "power"))).domain.toCString
        sampleModel.gModelDomains = some sampleDomain := by decide +kernel
  obtain ⟨_, _, -, -, hcall⟩ := (hrouted sampleDomain hfind).request (by decide) (by decide +kernel)
    none (by decide +kernel)
  rw [hr, Option.map_some, Option.some_inj, hcall] at hcalls
  cases hcalls

end EzIot.Model
