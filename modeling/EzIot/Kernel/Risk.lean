import EzIot.CJson.Parse
import EzIot.Kernel.Extend

/-! # Risk control

A risk message of the cloud blocks whole domains and single commands of domains.
Blocked commands stand in a table of the domain that ends at the first zero, and
`check_cmd_risk_control` is asked before a message is sent.
-/

namespace EzIot.Kernel

open CText CJson Slots

/-! ## The tables -/

/-- The test of `extend_get`; a domain number has 16 bits, the argument 32. -/
def DomainInfo.is (domainId : UInt32) (s : DomainInfo) : Bool :=
  s.kernelExtend.domainId.toUInt32 = domainId

def extendGet (domainId : UInt32) (t : ExtendTables) : Option DomainInfo :=
  t.kernelDomains.find? (DomainInfo.is domainId)

/-- A write through the pointer that `extend_get` returns. -/
def extendModify (domainId : UInt32) (f : DomainInfo → DomainInfo) (t : ExtendTables) :
    ExtendTables :=
  { t with kernelDomains := modifyFirst (DomainInfo.is domainId) f t.kernelDomains }

/-- A command table ends at the first zero. -/
def noCmd (cmdId : UInt32) : Bool := cmdId = 0

def addDomainRiskControl (domainId : UInt32) : ExtendTables → ExtendTables :=
  extendModify domainId fun s => { s with domainRisk := .riskControl }

def putCmd (a : List UInt32) (cmdId : UInt32) : List UInt32 :=
  (put noCmd (fun _ => false) (fun _ => cmdId) a).2

def addCmdRiskControl (domainId cmdId : UInt32) : ExtendTables → ExtendTables :=
  extendModify domainId fun s => { s with cmdRiskArray := putCmd s.cmdRiskArray cmdId }

/-- The loop of `check_cmd_risk_control` over a command table. -/
def checkCmd (cmdId : UInt32) : List UInt32 → Nat
  | [] => 0
  | x :: a => if x = 0 then 0 else if cmdId = x then 3 else checkCmd cmdId a

def dasCmdDomain : UInt32 := 1000

def dasCmdCommonFun : UInt32 := 1001

def checkCmdRiskControl (domainId cmdId : UInt32) (t : ExtendTables) : Nat :=
  if dasCmdCommonFun = domainId ∨ dasCmdDomain = domainId then 0
  else match extendGet domainId t with
  | none => 1
  | some s => if s.domainRisk = .riskControl then 2 else checkCmd cmdId s.cmdRiskArray

/-! ## Messages -/

/-- The members of a container with the names that they have there. -/
def children : Value → List (Option Bytes × Value)
  | .array items => items.map fun v => (none, v)
  | .object members => members.map fun m => (some m.1, m.2)
  | _ => []

/-- The member `valueint` of an item. -/
def valueint : Value → Int
  | .number d => d.valueint
  | .bool true => 1
  | _ => 0

/-- The inner loop. Its bound is the number of domains, not that of commands. -/
def riskCommands (domainSize : Nat) (domainId : UInt32) (cmds : List (Option Bytes × Value))
    (t : ExtendTables) : ExtendTables :=
  (List.range domainSize).foldl (fun t indexb =>
    match cmds[indexb]? with
    | none => t
    | some c => addCmdRiskControl domainId (UInt32.ofInt (valueint c.2)) t) t

/-- One round of the outer loop. Without a name the number of the round before is
used again. -/
def riskDomain (domainSize : Nat) (acc : UInt32 × ExtendTables) (d : Option Bytes × Value) :
    UInt32 × ExtendTables :=
  let domainId := match d.1 with
    | some name => UInt32.ofInt (atoi name)
    | none => acc.1
  let cmds := children d.2
  if cmds.length = 0 then (domainId, addDomainRiskControl domainId acc.2)
  else (domainId, riskCommands domainSize domainId cmds acc.2)

def busHandleDevRisk (ptrSubmsg : Submsg) (t : ExtendTables) : MkernelError × ExtendTables :=
  match ptrSubmsg.buf with
  | none => (.revInvalidPacket, t)
  | some buf =>
      match cJSONParse buf with
      | none => (.jsonParseError, t)
      | some root =>
          let domains := ((root.getObjectItem (ascii "risk")).map children).getD []
          (.succ, (domains.foldl (riskDomain domains.length) (0, t)).2)

/-! ## What a message asks for -/

/-- Domains with the commands to block; no command stands for the whole domain. -/
abbrev RiskConfig := List (UInt16 × List UInt32)

/-- The members of the object `risk` spell a configuration. -/
def Spells (members : List (Bytes × Value)) (msg : RiskConfig) : Prop :=
  members.map (fun m => (atoi m.1, children m.2)) =
    msg.map fun e => ((e.1.toNat : Int),
      e.2.map fun cmdId => (none, Value.number (.ofInt cmdId.toNat)))

def Listed (msg : RiskConfig) (d : UInt16) (c : UInt32) : Prop :=
  ∃ e ∈ msg, e.1 = d ∧ (e.2 = [] ∨ c ∈ e.2)

def Blocked (t : ExtendTables) (d : UInt16) (c : UInt32) : Prop :=
  checkCmdRiskControl d.toUInt32 c t ≠ 0

/-- The message was added to what was blocked before, on every loaded domain. -/
def Applied (t t' : ExtendTables) (msg : RiskConfig) : Prop :=
  ∀ (d : UInt16) (c : UInt32), d ≠ 0 → (extendGet d.toUInt32 t).isSome →
    (Blocked t' d c ↔ Blocked t d c ∨ Listed msg d c)

/-- A command number as `valueint` gives it: what exceeds `int` becomes its
maximum. -/
def readCmd (cmdId : UInt32) : UInt32 := if cmdId ≤ 2147483647 then cmdId else 2147483647

/-- The commands that reach the table of a domain: of every array those before the
number of domains, and of these as many as there are free slots. -/
def admitted (msg : RiskConfig) (d : UInt16) (s : DomainInfo) : List UInt32 :=
  ((msg.filter fun e => e.1 = d).flatMap fun e => (e.2.take msg.length).map readCmd).take
    (s.cmdRiskArray.length - (used noCmd s.cmdRiskArray).length)

/-- The commands of a message for a domain. -/
def listedCommands (msg : RiskConfig) (d : UInt16) : List UInt32 :=
  (msg.filter fun e => e.1 = d).flatMap Prod.snd

/-- Every domain of the message can be blocked, and unless it is blocked as a
whole its table takes the commands of the message and no other. -/
structure Takes (t : ExtendTables) (msg : RiskConfig) : Prop where
  ordinary : ∀ e ∈ msg, e.1 ≠ 0 → (extendGet e.1.toUInt32 t).isSome →
    e.1.toUInt32 ≠ dasCmdDomain ∧ e.1.toUInt32 ≠ dasCmdCommonFun
  taken : ∀ (d : UInt16) (s : DomainInfo), d ≠ 0 → extendGet d.toUInt32 t = some s →
    s.domainRisk = .noRiskControl → (d, []) ∉ msg →
    ∀ c, Listed msg d c → c ∈ used noCmd s.cmdRiskArray ∨ c ∈ admitted msg d s
  noOther : ∀ (d : UInt16) (s : DomainInfo), d ≠ 0 → extendGet d.toUInt32 t = some s →
    s.domainRisk = .noRiskControl → (d, []) ∉ msg →
    ∀ c ∈ admitted msg d s, c ∈ used noCmd s.cmdRiskArray ∨ Listed msg d c

/-! ## One domain at a time -/

section Domain

variable {t : ExtendTables} {d : UInt16} {c : UInt32} {s : DomainInfo}

theorem extendGet_extendModify {f : DomainInfo → DomainInfo}
    (hf : ∀ s, (f s).kernelExtend = s.kernelExtend) (d d' : UInt16) (t : ExtendTables) :
    extendGet d.toUInt32 (extendModify d'.toUInt32 f t) =
      if d' = d then (extendGet d.toUInt32 t).map f else extendGet d.toUInt32 t := by
  have hkeep : ∀ s, DomainInfo.is d.toUInt32 (f s) = DomainInfo.is d.toUInt32 s := by
    intro s
    simp [DomainInfo.is, hf]
  by_cases hd : d' = d
  · subst hd
    rw [if_pos rfl]
    exact find?_modifyFirst_self hkeep t.kernelDomains
  · rw [if_neg hd]
    refine find?_modifyFirst_of_disjoint hkeep (fun s hs => ?_) t.kernelDomains
    simp only [DomainInfo.is, decide_eq_true_eq, decide_eq_false_iff_not] at hs ⊢
    exact fun h => hd (UInt16.toUInt32_inj.mp (hs.symm.trans h))

theorem extendGet_addDomainRiskControl (d d' : UInt16) (t : ExtendTables) :
    extendGet d.toUInt32 (addDomainRiskControl d'.toUInt32 t) = if d' = d then
      (extendGet d.toUInt32 t).map fun s => { s with domainRisk := .riskControl }
      else extendGet d.toUInt32 t := by
  refine extendGet_extendModify ?_ d d' t
  intro s
  rfl

theorem extendGet_addCmdRiskControl (d d' : UInt16) (c : UInt32) (t : ExtendTables) :
    extendGet d.toUInt32 (addCmdRiskControl d'.toUInt32 c t) = if d' = d then
      (extendGet d.toUInt32 t).map fun s => { s with cmdRiskArray := putCmd s.cmdRiskArray c }
      else extendGet d.toUInt32 t := by
  refine extendGet_extendModify ?_ d d' t
  intro s
  rfl

theorem checkCmd_ne_zero (c : UInt32) (a : List UInt32) :
    checkCmd c a ≠ 0 ↔ c ∈ used noCmd a := by
  induction a with
  | nil => simp [checkCmd, used]
  | cons x a ih =>
      by_cases hx : x = 0
      · simp [checkCmd, used, noCmd, hx]
      · by_cases hc : c = x
        · simp [checkCmd, used, noCmd, hx, hc]
        · unfold used at ih ⊢
          rw [checkCmd, if_neg hx, if_neg hc, ih,
            List.takeWhile_cons_of_pos (by simpa [noCmd] using hx), List.mem_cons]
          simp [hc]

theorem blocked_iff (hd : d.toUInt32 ≠ dasCmdDomain ∧ d.toUInt32 ≠ dasCmdCommonFun)
    (h : extendGet d.toUInt32 t = some s) :
    Blocked t d c ↔ s.domainRisk = .riskControl ∨ c ∈ used noCmd s.cmdRiskArray := by
  have hordinary : ¬ (dasCmdCommonFun = d.toUInt32 ∨ dasCmdDomain = d.toUInt32) := by
    rintro (h | h)
    · exact hd.2 h.symm
    · exact hd.1 h.symm
  unfold Blocked checkCmdRiskControl
  rw [if_neg hordinary, h]
  by_cases hrisk : s.domainRisk = .riskControl
  · simp [hrisk]
  · simp [hrisk, checkCmd_ne_zero]

theorem not_blocked_of_system (hd : d.toUInt32 = dasCmdDomain ∨ d.toUInt32 = dasCmdCommonFun) :
    ¬ Blocked t d c := by
  have hsystem : dasCmdCommonFun = d.toUInt32 ∨ dasCmdDomain = d.toUInt32 := by
    rcases hd with h | h
    · exact .inr h.symm
    · exact .inl h.symm
  simp [Blocked, checkCmdRiskControl, if_pos hsystem]

end Domain

/-! ## One message -/

/-- What one member of a message does. -/
def riskEntry (domainSize : Nat) (t : ExtendTables) (e : UInt16 × List UInt32) : ExtendTables :=
  if e.2 = [] then addDomainRiskControl e.1.toUInt32 t
  else (e.2.take domainSize).foldl
    (fun t cmdId => addCmdRiskControl e.1.toUInt32 (readCmd cmdId) t) t

/-- What it does to the slot of a domain. -/
def entryEffect (domainSize : Nat) (d : UInt16) (s : DomainInfo) (e : UInt16 × List UInt32) :
    DomainInfo :=
  if e.1 = d then
    if e.2 = [] then { s with domainRisk := .riskControl }
    else { s with cmdRiskArray :=
      ((e.2.take domainSize).map readCmd).foldl putCmd s.cmdRiskArray }
  else s

section Message

variable {t : ExtendTables} {d : UInt16} {s : DomainInfo} {msg : RiskConfig}

theorem riskCommands_eq (n : Nat) (domainId : UInt32) (cmds : List (Option Bytes × Value))
    (t : ExtendTables) :
    riskCommands n domainId cmds t = (cmds.take n).foldl
      (fun t c => addCmdRiskControl domainId (UInt32.ofInt (valueint c.2)) t) t := by
  unfold riskCommands
  induction n with
  | zero => rfl
  | succ n ih =>
      rw [List.range_succ, List.foldl_append, ih, List.take_add_one, List.foldl_append,
        List.foldl_cons, List.foldl_nil]
      cases cmds[n]? with
      | none => rfl
      | some c => rfl

theorem ofInt_natCast (n : Nat) : UInt32.ofInt n = UInt32.ofNat n := by
  refine UInt32.toNat_inj.mp ?_
  simp only [UInt32.ofInt, UInt32.toNat_ofNat']
  omega

theorem ofInt_valueint (cmdId : UInt32) :
    UInt32.ofInt (valueint (.number (.ofInt cmdId.toNat))) = readCmd cmdId := by
  have hlt := cmdId.toNat_lt
  change UInt32.ofInt (Dbl.ofInt cmdId.toNat).valueint = _
  rw [Dbl.valueint_ofInt]
  unfold intMin intMax readCmd
  by_cases hle : cmdId ≤ 2147483647
  · have hnat : cmdId.toNat ≤ 2147483647 := UInt32.le_iff_toNat_le.mp hle
    have hvalue : max (-2147483648) (min 2147483647 (cmdId.toNat : Int)) = cmdId.toNat := by omega
    rw [if_pos hle, hvalue, ofInt_natCast]
    exact UInt32.ofNat_toNat
  · have hnat : ¬ cmdId.toNat ≤ 2147483647 := fun h => hle (UInt32.le_iff_toNat_le.mpr h)
    have hvalue : max (-2147483648) (min 2147483647 (cmdId.toNat : Int)) = 2147483647 := by omega
    rw [if_neg hle, hvalue]
    rfl

theorem riskDomain_eq {m : Bytes × Value} {e : UInt16 × List UInt32} (n : Nat)
    (acc : UInt32 × ExtendTables) (hname : atoi m.1 = (e.1.toNat : Int))
    (hcmds : children m.2 = e.2.map fun cmdId => (none, Value.number (.ofInt cmdId.toNat))) :
    (riskDomain n acc (some m.1, m.2)).2 = riskEntry n acc.2 e := by
  have hid : UInt32.ofInt (atoi m.1) = e.1.toUInt32 := by
    rw [hname, ofInt_natCast]
    exact UInt32.ofNat_uInt16ToNat e.1
  unfold riskDomain riskEntry
  simp only [hcmds, hid, List.length_map, List.length_eq_zero_iff, riskCommands_eq]
  by_cases hempty : e.2 = []
  · simp [hempty]
  · simp only [if_neg hempty, ← List.map_take, List.foldl_map, ofInt_valueint]

theorem foldl_riskDomain {members : List (Bytes × Value)} (h : Spells members msg) (n : Nat)
    (acc : UInt32 × ExtendTables) :
    ((members.map fun m => (some m.1, m.2)).foldl (riskDomain n) acc).2 =
      msg.foldl (riskEntry n) acc.2 := by
  unfold Spells at h
  induction members generalizing msg acc with
  | nil =>
      have hnil : msg = [] := by simpa using h.symm
      subst hnil
      rfl
  | cons m members ih =>
      cases msg with
      | nil => simp at h
      | cons e msg =>
          simp only [List.map_cons, List.cons.injEq, Prod.mk.injEq] at h
          rw [List.map_cons, List.foldl_cons, List.foldl_cons, ih h.2,
            riskDomain_eq n acc h.1.1 h.1.2]

theorem extendGet_riskEntry (n : Nat) (e : UInt16 × List UInt32) (t : ExtendTables) :
    extendGet d.toUInt32 (riskEntry n t e) =
      (extendGet d.toUInt32 t).map (entryEffect n d · e) := by
  unfold riskEntry entryEffect
  by_cases hempty : e.2 = []
  · simp only [if_pos hempty]
    rw [extendGet_addDomainRiskControl]
    by_cases hd : e.1 = d
    · simp [hd]
    · simp [hd]
  · simp only [if_neg hempty]
    generalize e.2.take n = cmds
    induction cmds generalizing t with
    | nil => simp
    | cons x cmds ih =>
        rw [List.foldl_cons, ih, extendGet_addCmdRiskControl]
        by_cases hd : e.1 = d
        · simp only [hd, if_true, Option.map_map]
          rfl
        · simp [hd]

theorem extendGet_foldl_riskEntry (n : Nat) (msg : RiskConfig) (t : ExtendTables) :
    extendGet d.toUInt32 (msg.foldl (riskEntry n) t) =
      (extendGet d.toUInt32 t).map fun s => msg.foldl (entryEffect n d) s := by
  induction msg generalizing t with
  | nil => simp
  | cons e msg ih =>
      rw [List.foldl_cons, ih, extendGet_riskEntry, Option.map_map]
      rfl

theorem domainRisk_foldl (n : Nat) (msg : RiskConfig) (s : DomainInfo) :
    (msg.foldl (entryEffect n d) s).domainRisk = .riskControl ↔
      s.domainRisk = .riskControl ∨ (d, []) ∈ msg := by
  induction msg generalizing s with
  | nil => simp
  | cons e msg ih =>
      rw [List.foldl_cons, ih, List.mem_cons, ← or_assoc]
      refine or_congr_left ?_
      unfold entryEffect
      by_cases hd : e.1 = d
      · by_cases hempty : e.2 = []
        · simp [hd, hempty, Prod.ext_iff]
        · simp [hd, hempty, Prod.ext_iff, eq_comm]
      · simp [hd, Prod.ext_iff, eq_comm]

theorem cmdRiskArray_foldl (n : Nat) (msg : RiskConfig) (s : DomainInfo) :
    (msg.foldl (entryEffect n d) s).cmdRiskArray =
      ((msg.filter fun e => e.1 = d).flatMap fun e => (e.2.take n).map readCmd).foldl putCmd
        s.cmdRiskArray := by
  induction msg generalizing s with
  | nil => rfl
  | cons e msg ih =>
      rw [List.foldl_cons, ih]
      unfold entryEffect
      by_cases hd : e.1 = d
      · by_cases hempty : e.2 = []
        · simp [hd, hempty]
        · simp [hd, hempty]
      · simp [hd]

theorem readCmd_ne_zero {cmdId : UInt32} (h : cmdId ≠ 0) : readCmd cmdId ≠ 0 := by
  unfold readCmd
  split
  · exact h
  · decide

/-- What is blocked after the message, on a domain that is not one of the two that
are never blocked. -/
theorem blocked_foldl_iff (hd : d.toUInt32 ≠ dasCmdDomain ∧ d.toUInt32 ≠ dasCmdCommonFun)
    (h : extendGet d.toUInt32 t = some s) (hc : Compact noCmd s.cmdRiskArray)
    (hmsg : ∀ e ∈ msg, (0 : UInt32) ∉ e.2) (c : UInt32) :
    Blocked (msg.foldl (riskEntry msg.length) t) d c ↔
      (s.domainRisk = .riskControl ∨ (d, []) ∈ msg) ∨
        c ∈ used noCmd s.cmdRiskArray ∨ c ∈ admitted msg d s := by
  have hget := extendGet_foldl_riskEntry (d := d) msg.length msg t
  rw [h, Option.map_some] at hget
  have hcmds : ∀ x ∈ (msg.filter fun e => e.1 = d).flatMap fun e =>
      (e.2.take msg.length).map readCmd, noCmd x = false := by
    intro x hx
    rcases List.mem_flatMap.mp hx with ⟨e, he, hxe⟩
    rcases List.mem_map.mp hxe with ⟨y, hy, rfl⟩
    have hy0 : y ≠ 0 := fun h0 =>
      hmsg e (List.mem_of_mem_filter he) (h0 ▸ List.mem_of_mem_take hy)
    simpa [noCmd] using readCmd_ne_zero hy0
  rw [blocked_iff hd hget, domainRisk_foldl, cmdRiskArray_foldl]
  exact or_congr_right (by rw [← List.mem_append, admitted, ← used_foldl_put _ hcmds hc]; rfl)

theorem exists_listed_of_mem {e : UInt16 × List UInt32} (he : e ∈ msg) : ∃ c, Listed msg e.1 c := by
  cases hcmds : e.2 with
  | nil => exact ⟨0, e, he, rfl, .inl hcmds⟩
  | cons c cs => exact ⟨c, e, he, rfl, .inr (by simp [hcmds])⟩

theorem exists_mem_of_admitted {c : UInt32} (h : c ∈ admitted msg d s) : ∃ e ∈ msg, e.1 = d := by
  rcases List.mem_flatMap.mp (List.mem_of_mem_take h) with ⟨e, he, -⟩
  exact ⟨e, List.mem_of_mem_filter he, by simpa using (List.mem_filter.mp he).2⟩

theorem Applied.takes (h : Applied t (msg.foldl (riskEntry msg.length) t) msg)
    (hmsg : ∀ e ∈ msg, (0 : UInt32) ∉ e.2)
    (hc : ∀ s ∈ t.kernelDomains, Compact noCmd s.cmdRiskArray) : Takes t msg := by
  have hcompact : ∀ {d : UInt16} {s}, extendGet d.toUInt32 t = some s →
      Compact noCmd s.cmdRiskArray := fun h => hc _ (List.mem_of_find?_eq_some h)
  have hordinary : ∀ e ∈ msg, e.1 ≠ 0 → (extendGet e.1.toUInt32 t).isSome →
      e.1.toUInt32 ≠ dasCmdDomain ∧ e.1.toUInt32 ≠ dasCmdCommonFun := by
    intro e he h0 hloaded
    rcases exists_listed_of_mem he with ⟨c, hlisted⟩
    have hblocked := (h e.1 c h0 hloaded).mpr (.inr hlisted)
    exact ⟨fun hs => not_blocked_of_system (.inl hs) hblocked,
      fun hs => not_blocked_of_system (.inr hs) hblocked⟩
  refine ⟨hordinary, ?_, ?_⟩
  · intro d s h0 hget hrisk hwhole c hlisted
    have hd : d.toUInt32 ≠ dasCmdDomain ∧ d.toUInt32 ≠ dasCmdCommonFun := by
      rcases hlisted with ⟨e, he, rfl, -⟩
      exact hordinary e he h0 (by rw [hget]; rfl)
    have hblocked := (h d c h0 (by rw [hget]; rfl)).mpr (.inr hlisted)
    rw [blocked_foldl_iff hd hget (hcompact hget) hmsg] at hblocked
    rcases hblocked with (hr | hw) | hcmd
    · rw [hrisk] at hr
      cases hr
    · exact absurd hw hwhole
    · exact hcmd
  · intro d s h0 hget hrisk hwhole c hadmitted
    have hd : d.toUInt32 ≠ dasCmdDomain ∧ d.toUInt32 ≠ dasCmdCommonFun := by
      rcases exists_mem_of_admitted hadmitted with ⟨e, he, rfl⟩
      exact hordinary e he h0 (by rw [hget]; rfl)
    have hblocked := (blocked_foldl_iff hd hget (hcompact hget) hmsg c).mpr
      (.inr (.inr hadmitted))
    rcases (h d c h0 (by rw [hget]; rfl)).mp hblocked with hbefore | hlisted
    · rw [blocked_iff hd hget, hrisk] at hbefore
      exact .inl (hbefore.resolve_left (by decide))
    · exact .inr hlisted

theorem Takes.applied (h : Takes t msg) (hmsg : ∀ e ∈ msg, (0 : UInt32) ∉ e.2)
    (hc : ∀ s ∈ t.kernelDomains, Compact noCmd s.cmdRiskArray) :
    Applied t (msg.foldl (riskEntry msg.length) t) msg := by
  intro d c h0 hloaded
  rcases Option.isSome_iff_exists.mp hloaded with ⟨s, hget⟩
  have hcompact : Compact noCmd s.cmdRiskArray := hc _ (List.mem_of_find?_eq_some hget)
  by_cases hd : d.toUInt32 ≠ dasCmdDomain ∧ d.toUInt32 ≠ dasCmdCommonFun
  · rw [blocked_foldl_iff hd hget hcompact hmsg, blocked_iff hd hget]
    by_cases hrisk : s.domainRisk = .riskControl
    · simp [hrisk]
    · have hno : s.domainRisk = .noRiskControl := by
        cases hs : s.domainRisk with
        | noRiskControl => rfl
        | riskControl => exact absurd hs hrisk
      by_cases hwhole : (d, []) ∈ msg
      · have hlisted : Listed msg d c := ⟨(d, []), hwhole, rfl, .inl rfl⟩
        simp [hwhole, hlisted]
      · have htaken := h.taken d s h0 hget hno hwhole c
        have hother := h.noOther d s h0 hget hno hwhole c
        simp only [hrisk, hwhole, or_self, false_or]
        constructor
        · rintro (hold | hnew)
          · exact .inl hold
          · exact hother hnew
        · rintro (hold | hlisted)
          · exact .inl hold
          · exact htaken hlisted
  · have hsystem : d.toUInt32 = dasCmdDomain ∨ d.toUInt32 = dasCmdCommonFun := by
      by_contra hnot
      exact hd ⟨fun hs => hnot (.inl hs), fun hs => hnot (.inr hs)⟩
    have hnone : ¬ Listed msg d c := by
      rintro ⟨e, he, rfl, -⟩
      exact hd (h.ordinary e he h0 hloaded)
    simp [not_blocked_of_system hsystem, hnone]

theorem applied_iff_takes (hmsg : ∀ e ∈ msg, (0 : UInt32) ∉ e.2)
    (hc : ∀ s ∈ t.kernelDomains, Compact noCmd s.cmdRiskArray) :
    Applied t (msg.foldl (riskEntry msg.length) t) msg ↔ Takes t msg :=
  ⟨fun h => Applied.takes h hmsg hc, fun h => h.applied hmsg hc⟩

theorem mem_listedCommands {c : UInt32} (hwhole : (d, []) ∉ msg) :
    c ∈ listedCommands msg d ↔ Listed msg d c := by
  unfold listedCommands Listed
  simp only [List.mem_flatMap, List.mem_filter, decide_eq_true_eq, and_assoc]
  refine exists_congr fun e => and_congr_right fun he => and_congr_right fun hd => ?_
  have hne : e.2 ≠ [] := fun hempty => hwhole (by rw [← hd, ← hempty]; exact he)
  simp [hne]

/-- Enough for a message to be taken: arrays that are no longer than the message,
command numbers within `int`, and a free slot for every command. -/
theorem takes_of_short
    (hordinary : ∀ e ∈ msg, e.1.toUInt32 ≠ dasCmdDomain ∧ e.1.toUInt32 ≠ dasCmdCommonFun)
    (hshort : ∀ e ∈ msg, e.2.length ≤ msg.length) (hint : ∀ e ∈ msg, ∀ c ∈ e.2, c ≤ 2147483647)
    (hroom : ∀ e ∈ msg, ∀ s, extendGet e.1.toUInt32 t = some s →
      (listedCommands msg e.1).length + (used noCmd s.cmdRiskArray).length ≤
        s.cmdRiskArray.length) : Takes t msg := by
  have hread : ∀ e ∈ msg, (e.2.take msg.length).map readCmd = e.2 := by
    intro e he
    rw [List.take_of_length_le (hshort e he)]
    refine (List.map_congr_left fun c hc => ?_).trans (List.map_id e.2)
    exact if_pos (hint e he c hc)
  have hadmitted : ∀ e ∈ msg, ∀ s, extendGet e.1.toUInt32 t = some s →
      admitted msg e.1 s = listedCommands msg e.1 := by
    intro e he s hget
    have hroom := hroom e he s hget
    have hflat : ((msg.filter fun e' => e'.1 = e.1).flatMap fun e =>
        (e.2.take msg.length).map readCmd) = listedCommands msg e.1 := by
      refine List.flatMap_congr fun e' he' => hread e' (List.mem_of_mem_filter he')
    rw [admitted, hflat]
    exact List.take_of_length_le (by omega)
  refine ⟨fun e he _ _ => hordinary e he, ?_, ?_⟩
  · intro d s _ hget _ hwhole c hlisted
    right
    rcases hlisted with ⟨e, he, rfl, hc⟩
    rw [hadmitted e he s hget, mem_listedCommands hwhole]
    exact ⟨e, he, rfl, hc⟩
  · intro d s _ hget _ hwhole c hc
    right
    rcases exists_mem_of_admitted hc with ⟨e, he, rfl⟩
    rw [hadmitted e he s hget, mem_listedCommands hwhole] at hc
    exact hc

end Message

/-! ## Runs of loads and risk messages -/

inductive TableOp
  | load (call : LoadCall)
  | risk (ptrSubmsg : Submsg)

def TableOp.apply (t : ExtendTables) : TableOp → ExtendTables
  | .load call => (call.apply ⟨t, [], []⟩).tables
  | .risk ptrSubmsg => (busHandleDevRisk ptrSubmsg t).2

def tablesAfter (c : ExtendConfig) (ops : List TableOp) : ExtendTables :=
  ops.foldl TableOp.apply (extendInit c)

/-- Every command table ends at its first zero. -/
def Tidy (t : ExtendTables) : Prop := ∀ s ∈ t.kernelDomains, Compact noCmd s.cmdRiskArray

theorem tidy_init (c : ExtendConfig) : Tidy (extendInit c) := by
  intro s hs
  rw [List.eq_of_mem_replicate hs]
  refine compact_of_all_free fun x hx => ?_
  rw [List.eq_of_mem_replicate hx]
  rfl

theorem Tidy.extendLoad {t : ExtendTables} (h : Tidy t) (e : KernelExtend) :
    Tidy (extendLoad e t).2 :=
  forall_mem_put h fun _ hs => hs

theorem Tidy.load {t : ExtendTables} (h : Tidy t) (call : LoadCall) :
    Tidy (call.apply ⟨t, [], []⟩).tables := by
  cases call with
  | load myState e =>
      change Tidy (ezKernelExtendLoad myState e t).2
      rcases ezKernelExtendLoad_cases myState e t with ⟨d, -, hcall, -⟩ | ⟨-, hsame⟩
      · rw [hcall]
        exact h.extendLoad d
      · rw [hsame]
        exact h
  | loadV3 myState e =>
      change Tidy (ezKernelExtendLoadV3 myState e t).2
      rcases ezKernelExtendLoadV3_cases myState e t with ⟨m, -, hcall, -⟩ | ⟨-, hsame⟩
      · rw [hcall]
        exact h
      · rw [hsame]
        exact h

theorem Tidy.addCmdRiskControl {t : ExtendTables} (h : Tidy t) (domainId cmdId : UInt32) :
    Tidy (addCmdRiskControl domainId cmdId t) :=
  forall_mem_modifyFirst h fun _ hs => hs.put

theorem Tidy.addDomainRiskControl {t : ExtendTables} (h : Tidy t) (domainId : UInt32) :
    Tidy (addDomainRiskControl domainId t) :=
  forall_mem_modifyFirst h fun _ hs => hs

theorem Tidy.riskDomain {acc : UInt32 × ExtendTables} (h : Tidy acc.2) (n : Nat)
    (d : Option Bytes × Value) : Tidy (riskDomain n acc d).2 := by
  unfold Kernel.riskDomain
  dsimp only
  split
  · exact h.addDomainRiskControl _
  · rw [riskCommands_eq]
    exact List.foldlRecOn _ _ h fun _ ht c _ => ht.addCmdRiskControl _ _

theorem Tidy.busHandleDevRisk {t : ExtendTables} (h : Tidy t) (ptrSubmsg : Submsg) :
    Tidy (busHandleDevRisk ptrSubmsg t).2 := by
  unfold Kernel.busHandleDevRisk
  split
  · exact h
  · split
    · exact h
    · exact List.foldlRecOn (motive := fun acc : UInt32 × ExtendTables => Tidy acc.2) _ _ h
        fun _ hacc d _ => hacc.riskDomain _ d

theorem tidy_tablesAfter (c : ExtendConfig) (ops : List TableOp) : Tidy (tablesAfter c ops) := by
  refine List.foldlRecOn ops TableOp.apply (tidy_init c) ?_
  intro t h op _
  cases op with
  | load call => exact h.load call
  | risk ptrSubmsg => exact h.busHandleDevRisk ptrSubmsg

/-- The handler of a message that spells a configuration. -/
theorem busHandleDevRisk_eq {ptrSubmsg : Submsg} {buf : Bytes} {root : Value}
    {members : List (Bytes × Value)} {msg : RiskConfig} (hbuf : ptrSubmsg.buf = some buf)
    (hparse : cJSONParse buf = some root)
    (hrisk : root.getObjectItem (ascii "risk") = some (.object members))
    (hspells : Spells members msg) (t : ExtendTables) :
    (busHandleDevRisk ptrSubmsg t).2 = msg.foldl (riskEntry msg.length) t := by
  have hlen : members.length = msg.length := by simpa using congrArg List.length hspells
  simp only [busHandleDevRisk, hbuf, hparse, hrisk, Option.map_some, Option.getD_some, children,
    List.length_map, hlen]
  exact foldl_riskDomain hspells msg.length (0, t)

/-- On the tables that any loads and risk messages leave behind, a message is
added to what was blocked before exactly when the tables take it. -/
theorem risk_config_applied_iff (c : ExtendConfig) (ops : List TableOp) (ptrSubmsg : Submsg)
    (buf : Bytes) (root : Value) (members : List (Bytes × Value)) (msg : RiskConfig)
    (hbuf : ptrSubmsg.buf = some buf) (hparse : cJSONParse buf = some root)
    (hrisk : root.getObjectItem (ascii "risk") = some (.object members))
    (hspells : Spells members msg) (hcmd : ∀ e ∈ msg, (0 : UInt32) ∉ e.2) :
    Applied (tablesAfter c ops) (busHandleDevRisk ptrSubmsg (tablesAfter c ops)).2 msg ↔
      Takes (tablesAfter c ops) msg := by
  rw [busHandleDevRisk_eq hbuf hparse hrisk hspells]
  exact applied_iff_takes hcmd (tidy_tablesAfter c ops)

def riskMessage (text : String) : Submsg := ⟨1, some (ascii text), 0, 1000, 2, .strncpy (.lit "")⟩

/-- Domains 1100 and 1200 are loaded. -/
def sampleOps : List TableOp := [.load (sampleLoad 1100 none), .load (sampleLoad 1200 (some 4))]

/-- Two domains, and no more commands than that in an array. -/
theorem risk_config_applied_sample : Applied (tablesAfter sampleConfig sampleOps)
    (busHandleDevRisk (riskMessage "\x7b\"risk\":\x7b\"1100\":[3,4],\"1200\":[]\x7d\x7d")
      (tablesAfter sampleConfig sampleOps)).2 [(1100, [3, 4]), (1200, [])] := by
  refine (risk_config_applied_iff sampleConfig sampleOps _ _
    (.object [(ascii "risk", .object
      [(ascii "1100", .array [.number (.ofInt 3), .number (.ofInt 4)]), (ascii "1200", .array [])])])
    _ _ rfl ?_ rfl ?_ ?_).mpr (takes_of_short ?_ ?_ ?_ ?_)
  · decide +kernel
  · unfold Spells
    decide +kernel
  · decide
  · decide
  · decide
  · simp
  · intro e he s hget
    have hall : ∀ e ∈ [((1100 : UInt16), [(3 : UInt32), 4]), (1200, [])],
        ∀ s ∈ (extendGet e.1.toUInt32 (tablesAfter sampleConfig sampleOps)).toList,
        (listedCommands [(1100, [3, 4]), (1200, [])] e.1).length +
          (used noCmd s.cmdRiskArray).length ≤ s.cmdRiskArray.length := by decide
    exact hall e he s (by simp [hget])

/-- One domain with two commands: the second one is not blocked. -/
theorem risk_config_second_command_dropped :
    ¬ Applied (tablesAfter sampleConfig sampleOps)
      (busHandleDevRisk (riskMessage "\x7b\"risk\":\x7b\"1100\":[3,4]\x7d\x7d")
        (tablesAfter sampleConfig sampleOps)).2 [(1100, [3, 4])] := by
  intro h
  have hpair := h 1100 4 (by decide) (by decide)
  have hlisted : Listed [(1100, [3, 4])] 1100 4 := ⟨_, List.mem_cons_self, rfl, .inr (by decide)⟩
  have hblocked := hpair.mpr (.inr hlisted)
  revert hblocked
  unfold Blocked
  decide +kernel

end EzIot.Kernel
