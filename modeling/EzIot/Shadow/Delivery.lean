import Mathlib.Data.List.Forall2
import EzIot.CJson.Exact
import EzIot.Shadow.Route

/-! # Desired values on their way to the device

A desired entry is detached, converted and deleted before the callback is called with the
converted value. Text that belongs to a node goes with the node.
-/

namespace EzIot.Shadow

open CText CJson Nested

/-! ## What the callback can read -/

/-- What the union of a value leads to when it is read. A text that has been freed cannot
be read. -/
inductive Content
  | bool (valueInt : Int)
  | int (valueInt : Int)
  | double (valueDouble : Dbl)
  | string (text : Option Bytes)
  | array (text : Bytes)
  | object (text : Bytes)
  | max
deriving DecidableEq

/-- The union of a value that `json2tlv` made of a node. The text of a string is the one of
the node; an array or an object has been printed to memory of its own. -/
def ShadowData.read (nodeAlive : Bool) : ShadowData → Content
  | .bool i => .bool i
  | .int i => .int i
  | .double d => .double d
  | .string s => .string (if nodeAlive then some s.val else none)
  | .array text => .array text
  | .object text => .object text
  | .max => .max

/-- What the callback of `do_set` reads: the node has been deleted by `cJSON_Delete`. -/
def Cloud2dev.content (c : Cloud2dev) : Content := c.value.data.read false

/-- The content is that value: an array or an object is what its text is read as. -/
def Content.Shows : Content → Value → Prop
  | .bool i, .bool b => decide (i ≠ 0) = b
  | .int i, .number d => d = .ofInt i
  | .double d', .number d => d = d'
  | .string text, .string s => text = some s
  | .array text, .array items => cJSONParse text = some (.array items)
  | .object text, .object members => cJSONParse text = some (.object members)
  | _, _ => False

/-! ## What is to be delivered -/

/-- A call that an entry asks for. -/
structure Wanted where
  callback : Callback
  value : Value
  param : BusinessParam

/-- A member that is a string. -/
def textMember (v : Value) (name : String) : Option CString :=
  (v.getObjectItem (ascii name)).bind valuestring

/-- The call for a value: the names are those of a registered key with a callback. -/
def wantedValue (app : App) (res : ShadowRes) (g : Modules) (domain identifier : CString)
    (value : Value) : Option Wanted :=
  if value = .null then none
  else
    match findKeyNode g res.devSerial.toCString res.resType.toCString res.localIndex domain
        identifier with
    | .error _ => none
    | .ok (_, pkey) => pkey.cloud2dev.map fun cb =>
        ⟨cb, value, genParam app.own res.devSerial res.resType res.localIndex domain identifier⟩

/-- The call for a desired entry, which has both names and a value. -/
def wantedCall (app : App) (res : ShadowRes) (g : Modules) (desired : Value) : Option Wanted :=
  (textMember desired "domain").bind fun domain =>
    (textMember desired "identifier").bind fun identifier =>
      (desired.getObjectItem (ascii "value")).bind (wantedValue app res g domain identifier)

/-- The call is the one that was wanted, and its value can be read. -/
def Delivers (c : Cloud2dev) (w : Wanted) : Prop :=
  c.callback = w.callback ∧ c.param = w.param ∧ c.content.Shows w.value

/-- The desired state of a message. -/
def desiredOf (root : Value) : Option Value :=
  (root.getObjectItem (ascii "state")).bind (·.getObjectItem (ascii "desired"))

/-- The desired entry of a `set`. -/
def setEntries (payload : Option Bytes) : List Value :=
  ((payload.bind cJSONParse).bind desiredOf).toList

/-- The desired entries of a `query_reply`. Only one with code 0 has them. -/
def replyEntries (payload : Option Bytes) : List Value :=
  match payload.bind cJSONParse with
  | none => []
  | some root =>
      match root.getObjectItem (ascii "code"), desiredOf root with
      | some (.number d), some (.array items) => if d.valueint = 0 then items else []
      | _, _ => []

/-! ## When an entry is handed over -/

/-- No absent string is read: `domain` is a string if it is there, and then `identifier`. -/
def NamesRead (desired : Value) : Prop :=
  ∀ x, desired.getObjectItem (ascii "domain") = some x → (valuestring x).isSome ∧
    ∀ y, desired.getObjectItem (ascii "identifier") = some y → (valuestring y).isSome

/-- The value does not lose by the way it is converted: it is no string, a number that is
taken for an integer is one, and the numbers in an array or an object are printed exactly. -/
def KeptWhole (printNumber : Rat → Bytes) : Value → Prop
  | .string _ => False
  | .number d => isDouble d = true ∨ d = .ofInt d.valueint
  | v => Each (Printable printNumber) v

/-- An entry is handed over as it is, or is skipped. -/
def HandedOver (printNumber : Rat → Bytes) (app : App) (res : ShadowRes) (g : Modules)
    (desired : Value) : Prop :=
  NamesRead desired ∧ ∀ w ∈ wantedCall app res g desired, KeptWhole printNumber w.value

section Entry

variable {app : App} {res : ShadowRes} {g : Modules} {desired value : Value}

/-- A name that is no string ends the process, and nothing else does. -/
theorem setDesired_isSome_iff : (setDesired app res g desired).isSome ↔ NamesRead desired := by
  unfold setDesired NamesRead
  cases desired.getObjectItem (ascii "domain") with
  | none => simp
  | some x =>
      cases hx : valuestring x with
      | none => simp [hx]
      | some domain =>
          cases desired.getObjectItem (ascii "identifier") with
          | none => simp [hx]
          | some y =>
              cases hy : valuestring y with
              | none => simp [hx, hy]
              | some identifier =>
                  cases desired.getObjectItem (ascii "value") <;> simp [hx, hy]

theorem json2tlv_null_iff {print : Value → Bytes} : json2tlv print value = none ↔ value = .null := by
  cases value <;> simp [json2tlv]

/-- The call that was made is the one that was wanted, with the value converted. -/
def Converts (print : Value → Bytes) (call : Option Cloud2dev) (wanted : Option Wanted) : Prop :=
  Option.Rel (fun c w => c.callback = w.callback ∧ c.param = w.param ∧
    json2tlv print w.value = some c.value) call wanted

theorem doSet_converts (domain identifier : CString) :
    Converts app.print (doSet app res domain identifier value g).2
      (wantedValue app res g domain identifier value) := by
  unfold doSet wantedValue
  by_cases hnull : value = .null
  · subst hnull
    rw [if_pos rfl]
    split
    · exact .none
    · split
      · exact .none
      · exact .none
  · rw [if_neg hnull]
    cases findKeyNode g res.devSerial.toCString res.resType.toCString res.localIndex domain
        identifier with
    | error e => exact .none
    | ok found =>
        obtain ⟨q, pkey⟩ := found
        cases hcb : pkey.cloud2dev with
        | none =>
            simp only [hcb]
            exact .none
        | some cb =>
            cases htlv : json2tlv app.print value with
            | none => exact absurd (json2tlv_null_iff.mp htlv) hnull
            | some tlv =>
                simp only [hcb, Option.map_some]
                exact .some ⟨rfl, rfl, htlv⟩

/-- Where the names are read, what is called is what is wanted. -/
theorem setDesired_converts {rv : Int} {call : Option Cloud2dev}
    (h : setDesired app res g desired = some (rv, call)) :
    Converts app.print call (wantedCall app res g desired) := by
  unfold setDesired at h
  unfold wantedCall textMember
  cases hdomain : desired.getObjectItem (ascii "domain") with
  | none =>
      rw [hdomain] at h
      cases h
      exact .none
  | some x =>
      rw [hdomain] at h
      cases hx : valuestring x with
      | none => simp [hx] at h
      | some domain =>
          cases hidentifier : desired.getObjectItem (ascii "identifier") with
          | none =>
              simp only [hx, hidentifier] at h
              cases h
              simp only [Option.bind_some, Option.bind_none, hx]
              exact .none
          | some y =>
              cases hy : valuestring y with
              | none => simp [hx, hidentifier, hy] at h
              | some identifier =>
                  cases hvalue : desired.getObjectItem (ascii "value") with
                  | none =>
                      simp only [hx, hidentifier, hy, hvalue] at h
                      cases h
                      simp only [Option.bind_some, Option.bind_none, hx, hy]
                      exact .none
                  | some value =>
                      simp only [hx, hidentifier, hy, hvalue, Option.some_inj] at h
                      simp only [Option.bind_some, hx, hy]
                      have hcall : Converts app.print (doSet app res domain identifier value g).2 _ :=
                        doSet_converts domain identifier
                      rw [h] at hcall
                      exact hcall

/-- What is wanted is the value of the entry. -/
theorem getObjectItem_of_wantedCall {w : Wanted} (h : wantedCall app res g desired = some w) :
    desired.getObjectItem (ascii "value") = some w.value := by
  obtain ⟨domain, -, hname⟩ := Option.bind_eq_some_iff.mp h
  obtain ⟨identifier, -, hcall⟩ := Option.bind_eq_some_iff.mp hname
  obtain ⟨value, hvalue, hwanted⟩ := Option.bind_eq_some_iff.mp hcall
  unfold wantedValue at hwanted
  split at hwanted
  · cases hwanted
  · split at hwanted
    · cases hwanted
    · obtain ⟨cb, -, rfl⟩ := Option.map_eq_some_iff.mp hwanted
      exact hvalue

section Printed

variable {printNumber : Rat → Bytes} (htexts : NumberTexts printNumber)

include htexts

theorem shows_iff {tlv : ShadowValue} (h : json2tlv (printValue printNumber) value = some tlv)
    (hformed : Formed 0 (.value value)) :
    (tlv.data.read false).Shows value ↔ KeptWhole printNumber value := by
  cases value with
  | null => cases h
  | bool b =>
      cases h
      refine iff_of_true ?_ (.node trivial nofun)
      cases b <;> rfl
  | number d =>
      cases hd : isDouble d with
      | false =>
          rw [json2tlv, hd] at h
          cases h
          simp [ShadowData.read, Content.Shows, KeptWhole, hd]
      | true =>
          rw [json2tlv, hd] at h
          cases h
          simp [ShadowData.read, Content.Shows, KeptWhole, hd]
  | string s =>
      cases h
      simp [ShadowData.read, Content.Shows, KeptWhole]
  | array items =>
      cases h
      exact cJSONParse_printValue_iff htexts rfl hformed.1 hformed.2
  | object members =>
      cases h
      exact cJSONParse_printValue_iff htexts rfl hformed.1 hformed.2

theorem delivers_iff {c : Cloud2dev} {w : Wanted} (h : c.callback = w.callback ∧
    c.param = w.param ∧ json2tlv (printValue printNumber) w.value = some c.value)
    (hformed : Formed 0 (.value w.value)) : Delivers c w ↔ KeptWhole printNumber w.value := by
  obtain ⟨hcallback, hparam, htlv⟩ := h
  rw [← shows_iff htexts htlv hformed]
  exact ⟨fun hdelivers => hdelivers.2.2, fun hshows => ⟨hcallback, hparam, hshows⟩⟩

end Printed

end Entry

/-! ## All entries -/

section Entries

variable {app : App} {res : ShadowRes} {g : Modules}

/-- The calls for a list of entries. -/
def entryCalls (app : App) (res : ShadowRes) (g : Modules) (items : List Value) :
    Option (List Cloud2dev) :=
  (items.mapM (setDesired app res g)).map fun rs => rs.filterMap (·.2)

theorem entryCalls_cons (desired : Value) (items : List Value) :
    entryCalls app res g (desired :: items) =
      (setDesired app res g desired).bind fun r =>
        (entryCalls app res g items).map fun calls => r.2.toList ++ calls := by
  unfold entryCalls
  rw [List.mapM_cons]
  cases setDesired app res g desired with
  | none => rfl
  | some r =>
      cases hrest : items.mapM (setDesired app res g) with
      | none => simp
      | some rs =>
          obtain ⟨rv, call⟩ := r
          cases call <;> simp

/-- Every wanted call is made, in the order of the entries, and no other. -/
def AllDelivered (app : App) (res : ShadowRes) (g : Modules) (items : List Value)
    (result : Option (List Cloud2dev)) : Prop :=
  ∃ calls, result = some calls ∧
    List.Forall₂ Delivers calls (items.filterMap (wantedCall app res g))

theorem allDelivered_iff {printNumber : Rat → Bytes} (htexts : NumberTexts printNumber)
    (hprint : app.print = printValue printNumber) {items : List Value}
    (hitems : ∀ desired ∈ items, Formed 0 (.value desired)) :
    AllDelivered app res g items (entryCalls app res g items) ↔
      ∀ desired ∈ items, HandedOver printNumber app res g desired := by
  unfold AllDelivered
  induction items with
  | nil => exact iff_of_true ⟨[], rfl, .nil⟩ fun _ h => nomatch h
  | cons desired items ih =>
      rw [List.forall_mem_cons] at hitems
      rw [entryCalls_cons, List.forall_mem_cons, ← ih hitems.2, List.filterMap_cons]
      have hread : (setDesired app res g desired).isSome ↔ NamesRead desired := setDesired_isSome_iff
      cases hcall : setDesired app res g desired with
      | none =>
          rw [hcall] at hread
          refine iff_of_false ?_ fun h => Bool.false_ne_true (hread.mpr h.1.1)
          intro hdelivers
          rcases hdelivers with ⟨calls, hnone, -⟩
          cases hnone
      | some r =>
          rw [hcall] at hread
          have hnames : NamesRead desired := hread.mp rfl
          obtain ⟨rv, call⟩ := r
          have hconverts := setDesired_converts hcall
          unfold HandedOver
          cases hwanted : wantedCall app res g desired with
          | none =>
              rw [hwanted] at hconverts
              cases hconverts
              simp [hnames]
          | some w =>
              rw [hwanted] at hconverts
              cases hconverts with
              | some hmade =>
                  rw [hprint] at hmade
                  have hdelivers := delivers_iff htexts hmade
                    (hitems.1.getObjectItem (getObjectItem_of_wantedCall hwanted))
                  simp only [hnames, Option.mem_some_iff, forall_eq', true_and, ← hdelivers]
                  constructor
                  · intro hdelivers
                    rcases hdelivers with ⟨calls, heq, hall⟩
                    obtain ⟨rest, hrest, rfl⟩ := Option.map_eq_some_iff.mp heq
                    obtain ⟨hhead, htail⟩ := List.forall₂_cons.mp hall
                    exact ⟨hhead, rest, hrest, htail⟩
                  · intro hparts
                    rcases hparts with ⟨hhead, rest, hrest, htail⟩
                    refine ⟨_, ?_, .cons hhead htail⟩
                    rw [Option.bind_some, hrest]
                    rfl

end Entries

/-! ## The two ways -/

/-- The calls for a `set`. -/
def set2devCalls (app : App) (res : ShadowRes) (payload : Option Bytes) (g : Modules) :
    Option (List Cloud2dev) :=
  (shadowSet2dev app res payload g).map fun r => r.2.toList

theorem set2devCalls_eq (app : App) (res : ShadowRes) (payload : Option Bytes) (g : Modules) :
    set2devCalls app res payload g = entryCalls app res g (setEntries payload) := by
  unfold set2devCalls shadowSet2dev setEntries
  cases payload.bind cJSONParse with
  | none => rfl
  | some root =>
      rw [Option.bind_some]
      change Option.map _ (match desiredOf root with
        | none => _
        | some desired => _) = _
      cases desiredOf root with
      | none => rfl
      | some desired =>
          rw [Option.toList_some, entryCalls_cons]
          cases hset : setDesired app res g desired with
          | none => simp [hset]
          | some r => simp [hset, entryCalls]

theorem queryReplyCalls_eq (app : App) (res : ShadowRes) (payload : Option Bytes) (g : Modules) :
    queryReplyCalls app res payload g = entryCalls app res g (replyEntries payload) := by
  unfold queryReplyCalls replyEntries
  cases payload.bind cJSONParse with
  | none => rfl
  | some root =>
      have hdesired : (root.getObjectItem (ascii "state")).bind (·.getObjectItem (ascii "desired")) =
          desiredOf root := rfl
      simp only [hdesired]
      cases root.getObjectItem (ascii "code") with
      | none => rfl
      | some code =>
          cases code with
          | number d =>
              by_cases hzero : d.valueint = 0
              · simp only [hzero, ne_eq, not_true_eq_false, if_false]
                cases desiredOf root with
                | none => rfl
                | some desired => cases desired <;> simp [hzero, entryCalls]
              · simp only [hzero, ne_eq, not_false_eq_true, if_true]
                cases desiredOf root with
                | none => rfl
                | some desired => cases desired <;> simp [hzero, entryCalls]
          | _ => rfl

theorem formed_desiredOf {payload : Option Bytes} {root desired : Value}
    (hroot : payload.bind cJSONParse = some root) (h : desiredOf root = some desired) :
    Formed 0 (.value desired) := by
  obtain ⟨mem, -, hparse⟩ := Option.bind_eq_some_iff.mp hroot
  obtain ⟨state, hstate, hdesired⟩ := Option.bind_eq_some_iff.mp h
  exact ((formed_of_cJSONParse hparse).getObjectItem hstate).getObjectItem hdesired

theorem formed_setEntries (payload : Option Bytes) :
    ∀ desired ∈ setEntries payload, Formed 0 (.value desired) := by
  intro desired hmem
  obtain ⟨root, hroot, h⟩ := Option.bind_eq_some_iff.mp (Option.mem_toList.mp hmem)
  exact formed_desiredOf hroot h

theorem formed_replyEntries (payload : Option Bytes) :
    ∀ desired ∈ replyEntries payload, Formed 0 (.value desired) := by
  intro desired hmem
  unfold replyEntries at hmem
  split at hmem
  · cases hmem
  · next root hroot =>
      split at hmem
      · next items _ hitems =>
          split at hmem
          · exact (formed_desiredOf hroot hitems).child (List.mem_append_left _ hmem)
          · cases hmem
      · cases hmem

/-- The callbacks are called once for each entry that names a registered key with a callback
and has a value, in order, with the value of the entry; and no absent string is read: exactly
if the names that are there are strings and each value to be delivered is kept whole. -/
theorem downlink_delivered_iff {printNumber : Rat → Bytes} (htexts : NumberTexts printNumber)
    {app : App} (hprint : app.print = printValue printNumber) (res : ShadowRes) (g : Modules)
    (payload : Option Bytes) :
    (AllDelivered app res g (setEntries payload) (set2devCalls app res payload g) ↔
        ∀ desired ∈ setEntries payload, HandedOver printNumber app res g desired) ∧
      (AllDelivered app res g (replyEntries payload) (queryReplyCalls app res payload g) ↔
        ∀ desired ∈ replyEntries payload, HandedOver printNumber app res g desired) := by
  rw [set2devCalls_eq, queryReplyCalls_eq]
  exact ⟨allDelivered_iff htexts hprint (formed_setEntries payload),
    allDelivered_iff htexts hprint (formed_replyEntries payload)⟩

/-! ### An array, an unknown key and a number -/

def settableApp : App := ⟨.lit "OWN", printValue integerTexts, fun _ _ _ => 0⟩

/-- A registered key with a callback for its desired state. -/
def settableKey : Modules :=
  (shadowCoreModuleAddv3 (.lit "OWN") ⟨.lit "SUB1", .lit "Video", 0, .lit "light",
    [⟨.strncpy (.lit "power"), some 1, none⟩]⟩ []).2

def settableRes : ShadowRes := ⟨.strncpy (.lit "SUB1"), .strncpy (.lit "Video"), 0⟩

def entryText (identifier value : String) : Bytes :=
  ascii "\x7b\"domain\":\"light\",\"identifier\":\"" ++ ascii identifier ++
    ascii "\",\"value\":" ++ ascii value ++ ascii "\x7d"

/-- The desired entries of a `query_reply`. -/
def replyPayload : Bytes :=
  ascii "\x7b\"code\":0,\"state\":\x7b\"desired\":[" ++ entryText "power" "[1,-20]" ++
    ascii "," ++ entryText "colour" "\"red\"" ++ ascii "," ++ entryText "power" "7" ++
    ascii "]\x7d\x7d"

def setPayload (value : String) : Bytes :=
  ascii "\x7b\"state\":\x7b\"desired\":" ++ entryText "power" value ++ ascii "\x7d\x7d"

def desiredEntry (identifier : String) (value : Value) : Value :=
  .object [(ascii "domain", .string (ascii "light")),
    (ascii "identifier", .string (ascii identifier)), (ascii "value", value)]

theorem handedOver_desiredEntry {identifier : String} {value : Value}
    (h : ∀ w ∈ wantedCall settableApp settableRes settableKey (desiredEntry identifier value),
      KeptWhole integerTexts value) :
    HandedOver integerTexts settableApp settableRes settableKey (desiredEntry identifier value) := by
  refine ⟨?_, fun w hw => ?_⟩
  · rintro x ⟨⟩
    refine ⟨rfl, ?_⟩
    rintro y ⟨⟩
    rfl
  · have hvalue : some value = some w.value := getObjectItem_of_wantedCall hw
    rw [← Option.some_inj.mp hvalue]
    exact h w hw

theorem downlink_delivered_iff_reply :
    (queryReplyCalls settableApp settableRes (some replyPayload) settableKey).map
        (·.map Cloud2dev.content) = some [.array (ascii "[1,-20]"), .int 7] ∧
      AllDelivered settableApp settableRes settableKey (replyEntries (some replyPayload))
        (queryReplyCalls settableApp settableRes (some replyPayload) settableKey) := by
  refine ⟨by decide +kernel, ?_⟩
  have hentries : replyEntries (some replyPayload) =
      [desiredEntry "power" (.array [.number (.ofInt 1), .number (.ofInt (-20))]),
        desiredEntry "colour" (.string (ascii "red")),
        desiredEntry "power" (.number (.ofInt 7))] := by
    decide +kernel
  have hunknown : wantedCall settableApp settableRes settableKey
      (desiredEntry "colour" (.string (ascii "red"))) = none := by
    decide +kernel
  refine (downlink_delivered_iff numberTexts_integerTexts rfl settableRes settableKey
    (some replyPayload)).2.mpr ?_
  rw [hentries]
  simp only [List.forall_mem_cons]
  refine ⟨handedOver_desiredEntry fun _ _ => ?_, handedOver_desiredEntry fun w hw => ?_,
    handedOver_desiredEntry fun _ _ => .inr (by decide +kernel), nofun⟩
  · exact printable_integers [1, -20] (by decide)
  · rw [hunknown] at hw
    cases hw

def stringPayload : Bytes := setPayload "\"on\""

/-- A string for a registered key: the callback gets memory that has been freed. -/
theorem string_value_freed :
    (set2devCalls settableApp settableRes (some stringPayload) settableKey).map
        (·.map Cloud2dev.content) = some [.string none] ∧
      ¬ AllDelivered settableApp settableRes settableKey (setEntries (some stringPayload))
        (set2devCalls settableApp settableRes (some stringPayload) settableKey) := by
  have hfreed : (set2devCalls settableApp settableRes (some stringPayload) settableKey).map
      (·.map Cloud2dev.content) = some [.string none] := by decide +kernel
  refine ⟨hfreed, ?_⟩
  intro hdelivers
  rcases hdelivers with ⟨calls, hcalls, hall⟩
  rw [hcalls, Option.map_some, Option.some_inj] at hfreed
  obtain ⟨c, rfl, hcontent⟩ := List.map_eq_singleton_iff.mp hfreed
  obtain ⟨w, rest, ⟨-, -, hshows⟩, -, -⟩ := (List.forall₂_cons_left_iff).mp hall
  rw [hcontent] at hshows
  cases hvalue : w.value with
  | string s =>
      rw [hvalue] at hshows
      exact absurd hshows (Option.some_ne_none s).symm
  | _ =>
      rw [hvalue] at hshows
      exact hshows

end EzIot.Shadow
