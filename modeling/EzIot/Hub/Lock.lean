import EzIot.Hub.Next
import EzIot.Lib.Faulty
import EzIot.Lib.Guard

/-! # The mutex of the hub

The operations of the hub with every access to the store, every allocation and every message
that can fail, and with the mutex as a counter. All functions leave through a label behind
which they give the mutex back, but one.
-/

namespace EzIot.Hub

open CText CJson Kv Run Program Faulty Guard

/-! ## Places -/

inductive HubProc
  | add
  | del
  | verUpdate
  | statusUpdate
  | query
  | next
  | clean
  | listReport
  | staReport
  | authDo
  | authDone
  | authPassed
deriving DecidableEq

/-- What can fail in a function; elements of reports are numbered. -/
inductive HubSite
  | createArray
  | rawGetLength
  | malloc
  | rawGet
  | parse
  | createObject (index : Nat)
  | addField (index : Nat) (name : String)
  | createItem
  | print
  | rawSet
  | send
deriving DecidableEq

abbrev HubOutcomes := Outcomes (HubProc × HubSite)

/-- `kPu2CenPltHubReportRelationShipReq` and its siblings. -/
inductive HubCmd
  | reportRelationShip
  | reportOnlineStatus
  | authChildDevice
deriving DecidableEq

/-- What leaves the hub: messages to the platform and events to the application. -/
inductive HubOutput
  | message (cmd : HubCmd) (body : Bytes)
  | subdevAddSucc (sn : CString)
  | subdevAddFail (info : SubdevInfo)
deriving DecidableEq

structure HubData where
  kv : Store
  gUnauthCount : Int
  outputs : List HubOutput

/-- The state while a function runs: the data with the log of its evaluations, and the mutex. -/
abbrev HubStage := (HubData × List HubData) × Lock

/-- A function stops with its result on the way to its label; without one it reads a text from
a null pointer. -/
abbrev HubM (α : Type) := Program HubStage (Option HubRv) α

/-! ## Nodes -/

/-- `cJSON_AddItemToArray`. A node that is neither array nor object is printed without it,
and an object prints it without a name. -/
def addItem (v : Value) : Value → Value
  | .array items => .array (items ++ [v])
  | .object members => .object (members ++ [([], v)])
  | root => root

def deleteItem (index : Nat) : Value → Value
  | .array items => .array (items.eraseIdx index)
  | .object members => .object (members.eraseIdx index)
  | root => root

/-- The child at a position is edited. -/
def modifyItem (index : Nat) (f : Value → Value) : Value → Value
  | .array items => .array (items.modify index f)
  | .object members => .object (members.modify index fun m => (m.1, f m.2))
  | root => root

def subdevFields (d : SubdevInfo) : List (String × Value) :=
  [("sta", .number (.ofInt d.sta.toInt)), ("authm", .number (.ofInt d.authm.toInt)),
    ("type", .string d.type.val), ("sn", .string d.sn.val), ("vcode", .string d.vcode.val),
    ("ver", .string d.ver.val), ("uuid", .string d.uuid.val),
    ("access", .number (.ofInt d.access.toInt))]

/-- A text of `hub_subdev_info_report_t`. -/
def reportText {n : Nat} (s : CField n) : Value :=
  .string (CField.strncpy s.toCString : CField 64).val

/-- The element of `subdev_to_relation_lst`. -/
def relationFields (d : SubdevInfo) : List (String × Value) :=
  [("connected", .number (.ofInt d.sta.toInt)), ("childdevid", reportText d.sn),
    ("version", reportText d.ver), ("type", reportText d.type),
    ("FirmwareIdentificationCode", .string [])]

/-- The element of `subdev_to_status_lst`. -/
def statusFields (d : SubdevInfo) : List (String × Value) :=
  [("connected", .number (.ofInt d.sta.toInt)), ("childdevid", reportText d.sn)]

def authFields (md5 : Bytes → Bytes) (d : SubdevInfo) : List (String × Value) :=
  [("childserial", .string (childserial d).val),
    ("childverifycode", .string (authMac md5 d.vcode.toCString (childserial d))),
    ("devAccessMode", .number (.ofInt d.authm.toInt))]

section Functions

variable (md5 : Bytes → Bytes) (p : Printer) (out : HubOutcomes) (proc : HubProc)

/-- An object with the fields for which there was memory. -/
def objectOf (index : Nat) (fields : List (String × Value)) : Value :=
  .object ((fields.filter fun m => decide (out (proc, .addField index m.1) 0 = 0)).map
    fun m => (ascii m.1, m.2))

/-- The elements of a report for which there was memory. -/
def reportItems (fields : SubdevInfo → List (String × Value)) (l : List SubdevInfo) : List Value :=
  (l.zipIdx.filter fun x => decide (out (proc, .createObject x.2) 0 = 0)).map fun x =>
    objectOf out proc x.2 (fields x.1)

/-! ## Pieces -/

/-- `CHECK_COND_DONE` of an operation that may fail. -/
def check (site : HubSite) (f : HubData → Int × HubData) (rv : HubRv) : HubM Unit :=
  beside (checkCond out (proc, site) f (some rv))

def data {α : Type} (f : HubData → α) : HubM α := beside (read fun s => f s.1)

def update (f : HubData → HubData) : HubM Unit := beside (write fun s => (f s.1, s.2))

def goto {α : Type} (rv : HubRv) : HubM α := beside (stop (some rv))

def nullPointer {α : Type} : HubM α := beside (stop none)

/-- How every operation begins: the parsed list, nothing where the store has none. -/
def readListAt : HubM (Option Value) := do
  check out proc .rawGetLength look (.rv .storage)
  let length ← data fun s => s.kv.rawLength hublistKey hubListSize
  if length = 0 then pure none
  else do
    check out proc .malloc look (.rv .memory)
    check out proc .rawGet look (.rv .storage)
    let text ← data fun s => s.kv.rawGet hublistKey length
    match cJSONParse text with
    | none => goto (.rv .memory)
    | some root => do
        check out proc .parse look (.rv .memory)
        pure (some root)

/-- The list for an operation on one of its elements. -/
def foundList : HubM Value := do
  match ← readListAt out proc with
  | none => goto (.rv .subdevNotFound)
  | some root => pure root

def findAt (sn : CString) (root : Value) : HubM (Option Nat) :=
  match findDevBySn sn root.children with
  | none => nullPointer
  | some index => pure index

/-- The position of an element that has to be there. -/
def foundAt (sn : CString) (root : Value) : HubM Nat := do
  match ← findAt sn root with
  | none => goto (.rv .subdevNotFound)
  | some index => pure index

/-- `json_to_subdev` of an element. -/
def decodeAt (root : Value) (index : Nat) : HubM SubdevInfo :=
  match root.children[index]? with
  | none => goto (.rv .subdevNotFound)
  | some item =>
      match jsonToSubdev item with
      | none => nullPointer
      | some d => pure d

/-- `cJSON_ReplaceItemInObject` with a new node, if there was memory for that. -/
def replacedAt (index : Nat) (name : String) (x : Value) (root : Value) : Value :=
  if out (proc, .createItem) 0 = 0 then modifyItem index (·.replaceItemInObject name x) root
  else root

def writeListAt (root : Value) : HubM Unit := do
  check out proc .print look (.rv .memory)
  check out proc .rawSet
    (fun s => (0, { s with kv := s.kv.rawSet hublistKey (printValue p.printNumber root) }))
    (.rv .storage)

/-- `hub_send_msg_to_platform`. -/
def sendMsg (cmd : HubCmd) (body : Bytes) (s : HubData) : Int × HubData :=
  (0, { s with outputs := s.outputs ++ [.message cmd body] })

/-! ## Reports and requests -/

/-- The end of a report. -/
def sendReport (cmd : HubCmd) (items : List Value) : HubM Unit := do
  check out proc .print look (.rv .memory)
  check out proc .send (sendMsg cmd (printValue p.printNumber (.array items))) .internal

def hubSubdevListReport : HubM (Except HubRv Unit) := locked do
  check out .listReport .createArray look (.rv .memory)
  match ← readListAt out .listReport with
  | none =>
      check out .listReport .send (sendMsg .reportRelationShip (ascii "\x7b\x7d")) .internal
  | some root =>
      match root.children.mapM jsonToSubdev with
      | none => nullPointer
      | some l =>
          sendReport p out .listReport .reportRelationShip
            (reportItems out .listReport relationFields (l.filter fun d => decide (d.access ≠ 0)))

def hubSubdevStaReport : HubM (Except HubRv Unit) := locked do
  check out .staReport .createArray look (.rv .memory)
  let root ← foundList out .staReport
  match root.children.mapM jsonToSubdev with
  | none => nullPointer
  | some l =>
      sendReport p out .staReport .reportOnlineStatus (reportItems out .staReport statusFields l)

/-- `hub_subdev_auth_do`. It does not take the mutex, and may be called while it is taken. -/
def hubSubdevAuthDoAt (d : SubdevInfo) : HubM (Except HubRv Unit) := toLabel do
  check out .authDo (.createObject 0) look (.rv .memory)
  check out .authDo .print look (.rv .memory)
  let _ ← (beside (evaluate out (.authDo, .send) 0 (sendMsg .authChildDevice
    (printValue p.printNumber (objectOf out .authDo 0 (authFields md5 d))))) : HubM Int)
  pure ()

/-! ## Operations -/

/-- The list that a device is added to. -/
def addTarget (d : SubdevInfo) : HubM Value := do
  match ← readListAt out .add with
  | none => do
      check out .add .createArray look (.rv .memory)
      pure (.array [])
  | some root => do
      match ← findAt d.sn.toCString root with
      | some _ => goto (.rv .subdevExisted)
      | none => pure root

def hubAddDoAt (d : SubdevInfo) : HubM (Except HubRv Unit) := locked do
  let root ← addTarget out d
  if root.children.length ≥ componentHubSublistMax then goto (.rv .outOfRange)
  else do
    check out .add (.createObject 0) look (.rv .memory)
    writeListAt p out .add (addItem (objectOf out .add 0 (subdevFields d)) root)
    update fun s => { s with gUnauthCount := s.gUnauthCount + 1 }
    let _ ← hubSubdevAuthDoAt md5 p out d
    pure ()

/-- The end of an operation: where it worked, the list is reported. -/
def reported (report : HubM (Except HubRv Unit)) (r : Except HubRv Unit) :
    HubM (Except HubRv Unit) :=
  match r with
  | .error rv => pure (.error rv)
  | .ok _ => do
      let _ ← report
      pure (.ok ())

def hubDelDoAt (sn : CString) : HubM (Except HubRv Unit) := do
  let r ← locked do
    let root ← foundList out .del
    let index ← foundAt sn root
    let d ← decodeAt root index
    writeListAt p out .del (deleteItem index root)
    if d.access = 0 then update fun s => { s with gUnauthCount := s.gUnauthCount - 1 }
    else pure ()
  reported (hubSubdevListReport p out) r

def hubVerUpdateDoAt (sn ver : CString) : HubM (Except HubRv Unit) := do
  let r ← locked do
    let root ← foundList out .verUpdate
    let index ← foundAt sn root
    let _ ← decodeAt root index
    let root := replacedAt out .verUpdate index "ver" (.string ver.val) root
    writeListAt p out .verUpdate root
    let _ ← decodeAt root index
    pure ()
  reported (hubSubdevListReport p out) r

def hubStatusUpdateDoAt (sn : CString) (online : Bool) : HubM (Except HubRv Unit) := do
  let r ← locked do
    let root ← foundList out .statusUpdate
    let index ← foundAt sn root
    writeListAt p out .statusUpdate (replacedAt out .statusUpdate index "sta" (.bool online) root)
  reported (hubSubdevStaReport p out) r

def hubSubdevQueryAt (sn : CString) : HubM (Except HubRv SubdevInfo) := locked do
  let root ← foundList out .query
  let index ← foundAt sn root
  decodeAt root index

/-- The position that `hub_subdev_next` reads. -/
def nextIndex (record : SubdevInfo) (root : Value) : HubM Nat :=
  if record.sn.val = [] then
    match findFirstDev root.children with
    | none => goto .enumEnd
    | some index => pure index
  else do
    match ← findAt record.sn.toCString root with
    | none => goto .enumEnd
    | some index =>
        if root.children.length ≤ index + 1 then goto .enumEnd
        else pure (index + 1)

def hubSubdevNextAt (record : SubdevInfo) : HubM (Except HubRv SubdevInfo) := locked do
  match ← readListAt out .next with
  | none => goto .enumEnd
  | some root => do
      let index ← nextIndex record root
      decodeAt root index

/-- `ezos_kv_raw_set` of an empty list. -/
def clearList (s : HubData) : Int × HubData := (0, { s with kv := s.kv.rawSet hublistKey [] })

/-- `hub_clean_do`. Its label stands behind the place where the mutex is given back. -/
def hubCleanDoAt : HubM (Except HubRv Unit) := do
  lock
  match ← toLabel (check out .clean .rawSet clearList (.rv .storage)) with
  | .error rv => pure (.error rv)
  | .ok _ => do
      unlock
      let _ ← hubSubdevListReport p out
      pure (.ok ())

def hubSubdevAuthPassedAt (sn : CString) : HubM (Except HubRv Unit) := do
  let r ← locked do
    let root ← foundList out .authPassed
    let index ← foundAt sn root
    let d ← decodeAt root index
    writeListAt p out .authPassed
      (replacedAt out .authPassed index "access" (.number (.ofInt 1)) root)
    update fun s => { s with outputs := s.outputs ++ [.subdevAddSucc d.sn.toCString] }
  reported (hubSubdevListReport p out) r

/-- `hub_subdev_auth_failure`. A device that is not found is reported as a zeroed record. -/
def hubSubdevAuthFailureAt (sn : CString) : HubM (Except HubRv Unit) := do
  let info ← hubSubdevQueryAt out sn
  update fun s => { s with outputs := s.outputs ++ [.subdevAddFail (info.toOption.getD .zero)] }
  hubDelDoAt p out sn

def hubSubdevAuthDoneAt (buf : Option Bytes) (len : Nat) : HubM Unit :=
  if out (.authDone, .parse) 0 ≠ 0 then pure ()
  else
    match hubSubdevAuthDone .fine buf len with
    | none => nullPointer
    | some (some (.authPassed sn)) => do
        let _ ← hubSubdevAuthPassedAt p out sn
        pure ()
    | some (some (.authFailure _ sn)) => do
        let _ ← hubSubdevAuthFailureAt p out sn
        pure ()
    | some _ => pure ()

end Functions

/-! ## Runs -/

/-- The calls of the hub. A reply from whose serial nothing is read goes on with what is in
the buffer: this is the result for any serial. -/
inductive HubOperation
  | add (d : SubdevInfo)
  | del (sn : CString)
  | verUpdate (sn ver : CString)
  | statusUpdate (sn : CString) (online : Bool)
  | query (sn : CString)
  | next (record : SubdevInfo)
  | clean
  | listReport
  | staReport
  | authDone (buf : Option Bytes) (len : Nat)
  | authPassed (sn : CString)
  | authFailure (sn : CString)
deriving DecidableEq

section Runs

variable (md5 : Bytes → Bytes) (p : Printer)

def HubOperation.program (out : HubOutcomes) : HubOperation → HubM Unit
  | .add d => do
      let _ ← hubAddDoAt md5 p out d
      pure ()
  | .del sn => do
      let _ ← hubDelDoAt p out sn
      pure ()
  | .verUpdate sn ver => do
      let _ ← hubVerUpdateDoAt p out sn ver
      pure ()
  | .statusUpdate sn online => do
      let _ ← hubStatusUpdateDoAt p out sn online
      pure ()
  | .query sn => do
      let _ ← hubSubdevQueryAt out sn
      pure ()
  | .next record => do
      let _ ← hubSubdevNextAt out record
      pure ()
  | .clean => do
      let _ ← hubCleanDoAt p out
      pure ()
  | .listReport => do
      let _ ← hubSubdevListReport p out
      pure ()
  | .staReport => do
      let _ ← hubSubdevStaReport p out
      pure ()
  | .authDone buf len => hubSubdevAuthDoneAt p out buf len
  | .authPassed sn => do
      let _ ← hubSubdevAuthPassedAt p out sn
      pure ()
  | .authFailure sn => do
      let _ ← hubSubdevAuthFailureAt p out sn
      pure ()

/-- The data and the mutex between two calls. -/
structure LockedHub where
  data : HubData
  gHlock : Lock

def LockedHub.stage (h : LockedHub) : HubStage := ((h.data, []), h.gHlock)

def HubStage.hub (s : HubStage) : LockedHub := ⟨s.1.1, s.2⟩

/-- A call with what fails in it. There is no next state where it does not return. -/
def LockedHub.step (h : LockedHub) (i : HubOperation × HubOutcomes) : Option LockedHub :=
  match i.1.program md5 p i.2 h.stage with
  | (.ok _, s) => some s.hub
  | (.error _, _) => none

/-- A call takes the mutex only when it is free, and where it returns it is free again. -/
structure LockSound (h : LockedHub) (i : HubOperation × HubOutcomes) : Prop where
  taken : ∀ n ∈ (i.1.program md5 p i.2 h.stage).2.2.taken, n = 0
  free : ∀ h', h.step md5 p i = some h' → h'.gHlock.Free

/-- Not a list that cannot be cleaned at once. -/
def CleansAtOnce (_ : LockedHub) (i : HubOperation × HubOutcomes) : Prop :=
  i.1 = .clean → i.2 (.clean, .rawSet) 0 = 0

end Runs

/-! ## What leaves the mutex alone -/

section Untouched

variable (md5 : Bytes → Bytes) (p : Printer) (out : HubOutcomes) (proc : HubProc)

theorem untouched_check (site : HubSite) (f : HubData → Int × HubData) (rv : HubRv) :
    Untouched (check out proc site f rv) := Untouched.beside _

theorem untouched_goto {α : Type} (rv : HubRv) : Untouched (goto rv : HubM α) :=
  Untouched.beside _

theorem untouched_nullPointer {α : Type} : Untouched (nullPointer : HubM α) := Untouched.beside _

theorem untouched_update (f : HubData → HubData) : Untouched (update f) := Untouched.beside _

theorem untouched_readListAt : Untouched (readListAt out proc) := by
  refine (untouched_check out proc _ _ _).bind fun _ => ?_
  refine (Untouched.beside _).bind fun length => ?_
  refine Untouched.ite (Untouched.pure none) ?_
  refine (untouched_check out proc _ _ _).bind fun _ => ?_
  refine (untouched_check out proc _ _ _).bind fun _ => ?_
  refine (Untouched.beside _).bind fun text => ?_
  split
  · exact untouched_goto _
  · exact (untouched_check out proc _ _ _).bind fun _ => Untouched.pure _

theorem untouched_foundList : Untouched (foundList out proc) := by
  refine (untouched_readListAt out proc).bind fun list => ?_
  split
  · exact untouched_goto _
  · exact Untouched.pure _

theorem untouched_findAt (sn : CString) (root : Value) : Untouched (findAt sn root) := by
  unfold findAt
  split
  · exact untouched_nullPointer
  · exact Untouched.pure _

theorem untouched_foundAt (sn : CString) (root : Value) : Untouched (foundAt sn root) := by
  refine (untouched_findAt sn root).bind fun index => ?_
  split
  · exact untouched_goto _
  · exact Untouched.pure _

theorem untouched_decodeAt (root : Value) (index : Nat) : Untouched (decodeAt root index) := by
  unfold decodeAt
  split
  · exact untouched_goto _
  · split
    · exact untouched_nullPointer
    · exact Untouched.pure _

theorem untouched_writeListAt (root : Value) : Untouched (writeListAt p out proc root) :=
  (untouched_check out proc _ _ _).bind fun _ => untouched_check out proc _ _ _

theorem untouched_sendReport (cmd : HubCmd) (items : List Value) :
    Untouched (sendReport p out proc cmd items) :=
  (untouched_check out proc _ _ _).bind fun _ => untouched_check out proc _ _ _

theorem untouched_authDo (d : SubdevInfo) : Untouched (hubSubdevAuthDoAt md5 p out d) := by
  refine Untouched.toLabel ?_
  refine (untouched_check out _ _ _ _).bind fun _ => ?_
  refine (untouched_check out _ _ _ _).bind fun _ => ?_
  exact (Untouched.beside _).bind fun _ => Untouched.pure ()

theorem untouched_addTarget (d : SubdevInfo) : Untouched (addTarget out d) := by
  refine (untouched_readListAt out _).bind fun list => ?_
  split
  · exact (untouched_check out _ _ _ _).bind fun _ => Untouched.pure _
  · refine (untouched_findAt _ _).bind fun index => ?_
    split
    · exact untouched_goto _
    · exact Untouched.pure _

theorem untouched_nextIndex (record : SubdevInfo) (root : Value) :
    Untouched (nextIndex record root) := by
  unfold nextIndex
  split
  · split
    · exact untouched_goto _
    · exact Untouched.pure _
  · refine (untouched_findAt _ _).bind fun index => ?_
    split
    · exact untouched_goto _
    · exact Untouched.ite (untouched_goto _) (Untouched.pure _)

end Untouched

/-! ## The discipline of each function -/

section Disciplined

variable (md5 : Bytes → Bytes) (p : Printer) (out : HubOutcomes)

theorem disciplined_listReport : Disciplined (hubSubdevListReport p out) := by
  refine Disciplined.locked ?_
  refine (untouched_check out _ _ _ _).bind fun _ => ?_
  refine (untouched_readListAt out _).bind fun list => ?_
  split
  · exact untouched_check out _ _ _ _
  · split
    · exact untouched_nullPointer
    · exact untouched_sendReport p out _ _ _

theorem disciplined_staReport : Disciplined (hubSubdevStaReport p out) := by
  refine Disciplined.locked ?_
  refine (untouched_check out _ _ _ _).bind fun _ => ?_
  refine (untouched_foundList out _).bind fun root => ?_
  split
  · exact untouched_nullPointer
  · exact untouched_sendReport p out _ _ _

theorem disciplined_add (d : SubdevInfo) : Disciplined (hubAddDoAt md5 p out d) := by
  refine Disciplined.locked ?_
  refine (untouched_addTarget out d).bind fun root => ?_
  refine Untouched.ite (untouched_goto _) ?_
  refine (untouched_check out _ _ _ _).bind fun _ => ?_
  refine (untouched_writeListAt p out _ _).bind fun _ => ?_
  refine (untouched_update _).bind fun _ => ?_
  exact (untouched_authDo md5 p out d).bind fun _ => Untouched.pure ()

/-- Reports are made when the mutex was given back. -/
theorem disciplined_reported {report : HubM (Except HubRv Unit)} (h : Disciplined report)
    (r : Except HubRv Unit) : Disciplined (reported report r) := by
  cases r with
  | error rv => exact Disciplined.pure _
  | ok _ => exact h.bind fun _ => Disciplined.pure _

theorem disciplined_del (sn : CString) : Disciplined (hubDelDoAt p out sn) := by
  refine (Disciplined.locked ?_).bind (disciplined_reported (disciplined_listReport p out))
  refine (untouched_foundList out _).bind fun root => ?_
  refine (untouched_foundAt sn root).bind fun index => ?_
  refine (untouched_decodeAt root index).bind fun d => ?_
  refine (untouched_writeListAt p out _ _).bind fun _ => ?_
  exact Untouched.ite (untouched_update _) (Untouched.pure ())

theorem disciplined_verUpdate (sn ver : CString) :
    Disciplined (hubVerUpdateDoAt p out sn ver) := by
  refine (Disciplined.locked ?_).bind (disciplined_reported (disciplined_listReport p out))
  refine (untouched_foundList out _).bind fun root => ?_
  refine (untouched_foundAt sn root).bind fun index => ?_
  refine (untouched_decodeAt root index).bind fun _ => ?_
  refine (untouched_writeListAt p out _ _).bind fun _ => ?_
  exact (untouched_decodeAt _ index).bind fun _ => Untouched.pure ()

theorem disciplined_statusUpdate (sn : CString) (online : Bool) :
    Disciplined (hubStatusUpdateDoAt p out sn online) := by
  refine (Disciplined.locked ?_).bind (disciplined_reported (disciplined_staReport p out))
  refine (untouched_foundList out _).bind fun root => ?_
  refine (untouched_foundAt sn root).bind fun index => ?_
  exact untouched_writeListAt p out _ _

theorem disciplined_query (sn : CString) : Disciplined (hubSubdevQueryAt out sn) := by
  refine Disciplined.locked ?_
  refine (untouched_foundList out _).bind fun root => ?_
  exact (untouched_foundAt sn root).bind fun index => untouched_decodeAt root index

theorem disciplined_next (record : SubdevInfo) : Disciplined (hubSubdevNextAt out record) := by
  refine Disciplined.locked ?_
  refine (untouched_readListAt out _).bind fun list => ?_
  split
  · exact untouched_goto _
  · exact (untouched_nextIndex record _).bind fun index => untouched_decodeAt _ index

theorem disciplined_authPassed (sn : CString) : Disciplined (hubSubdevAuthPassedAt p out sn) := by
  refine (Disciplined.locked ?_).bind (disciplined_reported (disciplined_listReport p out))
  refine (untouched_foundList out _).bind fun root => ?_
  refine (untouched_foundAt sn root).bind fun index => ?_
  refine (untouched_decodeAt root index).bind fun d => ?_
  exact (untouched_writeListAt p out _ _).bind fun _ => untouched_update _

theorem disciplined_authFailure (sn : CString) :
    Disciplined (hubSubdevAuthFailureAt p out sn) := by
  refine (disciplined_query out sn).bind fun info => ?_
  exact (Disciplined.of_untouched (untouched_update _)).bind fun _ => disciplined_del p out sn

theorem disciplined_authDone (buf : Option Bytes) (len : Nat) :
    Disciplined (hubSubdevAuthDoneAt p out buf len) := by
  unfold hubSubdevAuthDoneAt
  refine Disciplined.ite (Disciplined.pure ()) ?_
  split
  · exact Disciplined.of_untouched untouched_nullPointer
  · exact (disciplined_authPassed p out _).bind fun _ => Disciplined.pure ()
  · exact (disciplined_authFailure p out _).bind fun _ => Disciplined.pure ()
  · exact Disciplined.pure ()

end Disciplined

/-! ## Cleaning -/

section Checks

variable {p : Printer} {out : HubOutcomes} {proc : HubProc} {site : HubSite}
  {f : HubData → Int × HubData} {rv : HubRv} {d : HubData} {l : List HubData} {k : Lock}

theorem check_of_ok (h : (attempt out (proc, site) 0 f d).1 = 0) : ∃ l',
    check out proc site f rv ((d, l), k) =
      (.ok (), (((attempt out (proc, site) 0 f d).2, l'), k)) := by
  refine ⟨l ++ [d], ?_⟩
  unfold check beside
  rw [checkCond_of_ok h]

theorem check_of_fail (h : (attempt out (proc, site) 0 f d).1 ≠ 0) : ∃ l',
    check out proc site f rv ((d, l), k) = (.error (some rv),
      (((attempt out (proc, site) 1 f (attempt out (proc, site) 0 f d).2).2, l'), k)) := by
  refine ⟨l ++ [d] ++ [(attempt out (proc, site) 0 f d).2], ?_⟩
  unfold check beside
  rw [checkCond_of_fail h]

/-- A list that is cleaned at once is cleaned as if the label stood where it should. -/
theorem hubCleanDoAt_of_ok (h : out (.clean, .rawSet) 0 = 0) : hubCleanDoAt p out =
    (locked (check out .clean .rawSet clearList (.rv .storage)) >>=
      reported (hubSubdevListReport p out)) := by
  funext s
  have hwork : attempt out (HubProc.clean, HubSite.rawSet) 0 clearList s.1.1 = clearList s.1.1 :=
    attempt_of_ok h
  obtain ⟨t, hcheck⟩ : ∃ t, check out .clean .rawSet clearList (.rv .storage) (s.1, s.2.take) =
      (.ok (), (t, s.2.take)) := by
    obtain ⟨l', hcheck⟩ := check_of_ok (congrArg Prod.fst hwork)
    exact ⟨_, hcheck⟩
  show (toLabel (check out .clean .rawSet clearList (.rv .storage)) >>= _) (s.1, s.2.take) = _
  rw [bind_run, toLabel_of_ok hcheck, bind_run, locked_of_ok hcheck]
  rfl

/-- A list that is not cleaned at once leaves the mutex taken. -/
theorem hubCleanDoAt_of_fail (h : out (.clean, .rawSet) 0 ≠ 0) (s : HubStage) :
    ∃ t, hubCleanDoAt p out s = (.ok (.error (.rv .storage)), (t, s.2.take)) := by
  have hwork : attempt out (HubProc.clean, HubSite.rawSet) 0 clearList s.1.1 =
      (out (.clean, .rawSet) 0, s.1.1) := attempt_of_fail h
  have hcode : (attempt out (HubProc.clean, HubSite.rawSet) 0 clearList s.1.1).1 ≠ 0 := by
    rw [hwork]
    exact h
  obtain ⟨t, hcheck⟩ : ∃ t, check out .clean .rawSet clearList (.rv .storage) (s.1, s.2.take) =
      (.error (some (.rv .storage)), (t, s.2.take)) := by
    obtain ⟨l', hcheck⟩ := check_of_fail hcode
    exact ⟨_, hcheck⟩
  refine ⟨t, ?_⟩
  show (toLabel (check out .clean .rawSet clearList (.rv .storage)) >>= _) (s.1, s.2.take) = _
  rw [bind_run, toLabel_of_jump hcheck]
  rfl

theorem disciplined_clean (h : out (.clean, .rawSet) 0 = 0) : Disciplined (hubCleanDoAt p out) := by
  rw [hubCleanDoAt_of_ok h]
  exact (Disciplined.locked (untouched_check out _ _ _ _)).bind
    (disciplined_reported (disciplined_listReport p out))

end Checks

/-! ## Runs -/

section Sound

variable {md5 : Bytes → Bytes} {p : Printer} {h : LockedHub} {i : HubOperation × HubOutcomes}

theorem disciplined_program {op : HubOperation} {out : HubOutcomes}
    (hop : op = .clean → out (.clean, .rawSet) 0 = 0) : Disciplined (op.program md5 p out) := by
  have hend {α : Type} {x : HubM α} (hx : Disciplined x) :
      Disciplined (x >>= fun _ => pure ()) := hx.bind fun _ => Disciplined.pure ()
  cases op with
  | add d => exact hend (disciplined_add md5 p out d)
  | del sn => exact hend (disciplined_del p out sn)
  | verUpdate sn ver => exact hend (disciplined_verUpdate p out sn ver)
  | statusUpdate sn online => exact hend (disciplined_statusUpdate p out sn online)
  | query sn => exact hend (disciplined_query out sn)
  | next record => exact hend (disciplined_next out record)
  | clean => exact hend (disciplined_clean (hop rfl))
  | listReport => exact hend (disciplined_listReport p out)
  | staReport => exact hend (disciplined_staReport p out)
  | authDone buf len => exact disciplined_authDone p out buf len
  | authPassed sn => exact hend (disciplined_authPassed p out sn)
  | authFailure sn => exact hend (disciplined_authFailure p out sn)

theorem step_eq_some {h' : LockedHub} (hstep : h.step md5 p i = some h') :
    ∃ s, i.1.program md5 p i.2 h.stage = (.ok (), s) ∧ h' = s.hub := by
  unfold LockedHub.step at hstep
  split at hstep
  · next s hrun =>
      cases hstep
      exact ⟨s, hrun, rfl⟩
  · cases hstep

/-- A call from a free mutex is sound exactly when it is no cleaning that fails at first. -/
theorem lockSound_iff (hfree : h.gHlock.Free) : LockSound md5 p h i ↔ CleansAtOnce h i := by
  constructor
  · intro hsound hclean
    by_contra hfail
    obtain ⟨t, hrun⟩ := hubCleanDoAt_of_fail (p := p) hfail h.stage
    have hstep : h.step md5 p i = some ⟨t.1, h.gHlock.take⟩ := by
      have hprogram : i.1.program md5 p i.2 h.stage = (.ok (), (t, h.gHlock.take)) := by
        rw [hclean]
        show (hubCleanDoAt p i.2 >>= fun _ => pure ()) h.stage = _
        rw [bind_run, hrun]
        rfl
      rw [LockedHub.step, hprogram]
      rfl
    have hcount : h.gHlock.count + 1 = 0 := (hsound.free _ hstep).count
    have hzero := hfree.count
    omega
  · intro hok
    have hdisciplined : Disciplined (i.1.program md5 p i.2) := disciplined_program hok
    refine ⟨hdisciplined.taken h.stage hfree, fun h' hstep => ?_⟩
    obtain ⟨s, hrun, rfl⟩ := step_eq_some hstep
    exact hdisciplined.free h.stage () s hfree hrun

end Sound

/-- A hub whose mutex is free, over a store with any content. -/
def LockedHub.start (d : HubData) : LockedHub := ⟨d, ⟨0, []⟩⟩

theorem free_start (d : HubData) : (LockedHub.start d).gHlock.Free :=
  ⟨rfl, fun _ hn => absurd hn List.not_mem_nil⟩

/-- As long as every list that is cleaned is cleaned at once, the mutex is free between the
calls and was only taken when it was free, whatever else fails; and the next call takes it
only when it is free and gives it back exactly when it is no cleaning that fails at first. -/
theorem lock_discipline (md5 : Bytes → Bytes) (p : Printer) (d : HubData) {h : LockedHub}
    (hreach : Reach (LockedHub.step md5 p) CleansAtOnce (.start d) h) :
    h.gHlock.Free ∧ ∀ i, LockSound md5 p h i ↔ CleansAtOnce h i := by
  have hfree : h.gHlock.Free := by
    refine hreach.invariant (I := fun h => h.gHlock.Free) (free_start d) ?_
    intro s i s' hs hok hstep
    exact ((lockSound_iff hs).mpr hok).free s' hstep
  exact ⟨hfree, fun i => lockSound_iff hfree⟩

def emptyHub : HubData := ⟨fun _ => none, 0, []⟩

/-- A device is added and looked for, and the list is cleaned. -/
def sampleOperations : List HubOperation := [.add sampleSubdev, .query (.lit "S1"), .clean]

/-- Nothing fails. -/
theorem lock_discipline_add : ∃ h,
    (sampleOperations.map fun op => (op, fun _ _ => 0)).foldlM (LockedHub.step id samplePrinter)
      (.start emptyHub) = some h ∧ h.gHlock.Free := by
  have hsome : ((sampleOperations.map fun op => (op, fun _ _ => 0)).foldlM
      (LockedHub.step id samplePrinter) (.start emptyHub)).isSome = true := by decide +kernel
  obtain ⟨h, hrun⟩ := Option.isSome_iff_exists.mp hsome
  have hclean : ∀ (s : LockedHub), ∀ i ∈ sampleOperations.map fun op => (op, fun _ _ => 0),
      CleansAtOnce s i := by
    intro s i hi
    obtain ⟨op, -, rfl⟩ := List.mem_map.mp hi
    exact fun _ => rfl
  exact ⟨h, hrun, (lock_discipline id samplePrinter emptyHub (Reach.of_forall hclean hrun)).1⟩

/-- The store refuses the empty list, and the next call finds the mutex taken. -/
theorem clean_leaves_lock : ¬ ∀ (md5 : Bytes → Bytes) (p : Printer) (d : HubData) (h : LockedHub),
    Reach (LockedHub.step md5 p) (fun _ _ => True) (.start d) h →
      h.gHlock.Free ∧ ∀ i, LockSound md5 p h i := by
  intro hall
  have hsound := (hall id samplePrinter emptyHub _ .start).2 (.clean, fun _ _ => -1)
  have hstep : ((LockedHub.start emptyHub).step id samplePrinter (.clean, fun _ _ => -1)).map
      (fun h => h.gHlock.count) = some 1 := by decide +kernel
  obtain ⟨h, hstep, hcount⟩ := Option.map_eq_some_iff.mp hstep
  have hzero := (hsound.free h hstep).count
  omega

end EzIot.Hub
