import EzIot.CJson.Edit
import EzIot.Kernel.Message
import EzIot.Lib.Ledger
import Mathlib.Data.Rat.Floor

/-! # Requests for an upgrade

The cloud describes the files of an upgrade. The description is converted for the device,
which is asked to start, and what it says is reported back.
-/

namespace EzIot.Ota

open CText CJson Kernel Ledger

/-! ## The description -/

structure EzOtaFileDiff where
  url : CField 270
  fwVerDst : CField 64
  degist : CField 33
  size : Int
deriving DecidableEq

/-- A diff record and the number of its allocation. -/
structure DiffPtr where
  id : Nat
  diff : EzOtaFileDiff
deriving DecidableEq

structure EzOtaFileInfo where
  modName : CField 56
  url : CField 270
  fwVer : CField 32
  degist : CField 33
  size : Int
  pdiffs : Option DiffPtr
deriving DecidableEq

/-- After `ezos_memset`. -/
def EzOtaFileInfo.zero : EzOtaFileInfo :=
  ⟨.strncpy (.lit ""), .strncpy (.lit ""), .strncpy (.lit ""), .strncpy (.lit ""), 0, none⟩

structure EzOtaUpgradeInfo where
  retryMax : Int
  fileNum : Nat
  interval : Int
  potaFiles : List EzOtaFileInfo
deriving DecidableEq

structure EzOtaRes where
  devSerial : CField 72
deriving DecidableEq

/-- What the callback of the device and the allocations return. -/
structure UpgradeEnv where
  otaRecvMsg : EzOtaRes → EzOtaUpgradeInfo → Int32
  potaFiles : Bool
  pdiffs : Nat → Bool
  -- the reply, its two members, and its text
  pjsonRsp : Bool
  code : Bool
  errorMsg : Bool
  response : Bool

/-- An item that is read if it is a number. -/
def numberMember (proot : Value) (name : String) : Int :=
  match proot.getObjectItem (ascii name) with
  | some (.number d) => d.valueint
  | _ => 0

/-- The members of a file entry but `diffs`. A text is formatted whatever type its item has;
there is no result for the null pointer of an item that is no string. -/
def readFile (tmp : Value) : Option EzOtaFileInfo := do
  let modName ← tmp.stringElement "module"
  let url ← tmp.stringElement "url"
  let degist ← tmp.stringElement "degist"
  let fwVer ← tmp.stringElement "fw_ver"
  some ⟨.strncpy modName, .strncpy url, .strncpy fwVer, .strncpy degist, tmp.intElement "size", none⟩

def readDiff (pJSdiffs : Value) : Option EzOtaFileDiff := do
  let url ← pJSdiffs.stringElement "url"
  let degist ← pJSdiffs.stringElement "degist"
  let fwVerDst ← pJSdiffs.stringElement "fw_ver_dst"
  some ⟨.strncpy url, .strncpy fwVerDst, .strncpy degist, pJSdiffs.intElement "size"⟩

/-- `diffs`, if it is an object. -/
def diffsOf (tmp : Value) : Option Value :=
  match tmp.getObjectItem (ascii "diffs") with
  | some (.object members) => some (.object members)
  | _ => none

/-- The loop over the entries from the `i`-th on. Without memory for a diff record it ends,
and the files that follow stay zero. -/
def readFiles (env : UpgradeEnv) (i : Nat) : List Value → Ledger →
    Option (List EzOtaFileInfo × Ledger)
  | [], l => some ([], l)
  | tmp :: rest, l =>
      (readFile tmp).bind fun file =>
        match diffsOf tmp with
        | none => (readFiles env (i + 1) rest l).map fun r => (file :: r.1, r.2)
        | some pJSdiffs =>
            if env.pdiffs i then
              (readDiff pJSdiffs).bind fun diff =>
                (readFiles env (i + 1) rest (l.alloc 1)).map fun r =>
                  ({ file with pdiffs := some ⟨l.next, diff⟩ } :: r.1, r.2)
            else some (file :: List.replicate rest.length .zero, l)

/-! ## The upgrade -/

/-- `START_UPGRADE`: the result, the calls of the callback, and the files. -/
structure Started where
  ret : Int32
  calls : List EzOtaUpgradeInfo
  files : List EzOtaFileInfo
  ledger : Ledger

def Started.refused (l : Ledger) : Started := ⟨-1, [], [], l⟩

/-- The device is asked, also when the loop has ended early. -/
def startUpgrade (env : UpgradeEnv) (pres : EzOtaRes) (proot : Value) (items : List Value)
    (l : Ledger) : Option Started :=
  (readFiles env 0 items l).map fun r =>
    let info : EzOtaUpgradeInfo :=
      ⟨numberMember proot "maxtry", items.length, numberMember proot "interval", r.1⟩
    ⟨env.otaRecvMsg pres info, [info], r.1, r.2⟩

/-- The body of `do … while (0)`. -/
def upgradeBody (env : UpgradeEnv) (pres : EzOtaRes) (buf : Option Bytes) (l : Ledger) :
    Option Started :=
  match buf.bind cJSONParse with
  | none => some (.refused l)
  | some proot =>
      match proot.getObjectItem (ascii "file_info") with
      | some (.array items) =>
          if env.potaFiles then startUpgrade env pres proot items l else some (.refused l)
      | _ => some (.refused l)

/-! ## The reply -/

/-- `%#08x`. -/
def sharp08x (n : Nat) : Bytes :=
  if n = 0 then ascii "00000000"
  else
    let digits := (Nat.toDigits 16 n).map ch
    ascii "0x" ++ (List.replicate (6 - digits.length) (ch '0') ++ digits)

def errcodeText (ret : Int32) : CField 16 :=
  .strncpy (.ofMem (ascii "0x" ++ sharp08x ret.toUInt32.toNat))

/-- `pjson_rsp`, with the members there is memory for. -/
def replyTree (env : UpgradeEnv) (ret : Int32) : Value :=
  .object ((if env.code then [(ascii "code", .string (errcodeText ret).val)] else []) ++
    if env.errorMsg then
      [(ascii "errorMsg", .string (ascii (if ret = 0 then "Succeeded" else "device receive failed!")))]
    else [])

/-- The message of `ez_ota_send_msg_to_platform` for a reply. -/
def replyMsg (pres : EzOtaRes) (seq : UInt32) (response : Bytes) : PubmsgV3 where
  msgResponse := true
  msgQos := .t0
  msgSeq := seq
  msgBody := response
  resourceId := .strncpy (.lit "0")
  resourceType := .strncpy (.lit "global")
  module := .strncpy (.lit "ota")
  method := .strncpy (.lit "upgrade")
  msgType := .strncpy (.lit "operate_reply")
  subSerial := pres.devSerial
  extMsg := .strncpy (.lit "")

/-- What `ez_ota_upgrade_to_device` returns, does and leaves. -/
structure Upgrade where
  ret : Int32
  calls : List EzOtaUpgradeInfo
  replies : List PubmsgV3
  ledger : Ledger

section Upgrade

variable (printNumber : Rat → Bytes) (env : UpgradeEnv) (pres : EzOtaRes) (seq : UInt32)

def sendReply (ret : Int32) : List PubmsgV3 :=
  if env.pjsonRsp && env.response then [replyMsg pres seq (printValue printNumber (replyTree env ret))]
  else []

/-- The diff records of the files are freed in their order. -/
def freeDiffs (files : List EzOtaFileInfo) (l : Ledger) : Ledger :=
  l.free (files.filterMap fun f => f.pdiffs.map DiffPtr.id)

def ezOtaUpgradeToDevice (buf : Option Bytes) (l : Ledger) : Option Upgrade :=
  (upgradeBody env pres buf l).map fun s =>
    ⟨s.ret, s.calls, sendReply printNumber env pres seq s.ret, freeDiffs s.files s.ledger⟩

def ezOtaDataRouteCb (m : SubmsgV3) (l : Ledger) : Option (List Upgrade) :=
  match m.buf with
  | none => some []
  | some buf =>
      if m.method.toCString = .lit "upgrade" then
        (ezOtaUpgradeToDevice printNumber env ⟨m.subSerial⟩ m.msgSeq (some buf) l).map List.singleton
      else some []

end Upgrade

/-! ## What the description says -/

/-- A text that is formatted is one. -/
def IsText (v : Value) (name : String) : Prop :=
  ∀ x, v.getObjectItem (ascii name) = some x → ∃ s, x = .string s

/-- The text of a member, cut to its field; empty if there is none. -/
def HoldsText {n : Nat} (v : Value) (name : String) (t : CField (n + 1)) : Prop :=
  (v.getObjectItem (ascii name) = none ∧ t = .strncpy (.lit "")) ∨
    ∃ s, v.getObjectItem (ascii name) = some (.string s) ∧ t = .strncpy (.ofMem s)

/-- A number without its fraction, or the end of the range of `int` that it lies behind. -/
structure Truncates (q : Rat) (i : Int) : Prop where
  above : (CJson.intMax : Rat) ≤ q → i = CJson.intMax
  below : q ≤ (CJson.intMin : Rat) → i = CJson.intMin
  positive : 0 ≤ q → q < CJson.intMax → (i : Rat) ≤ q ∧ q < i + 1
  negative : q ≤ 0 → (CJson.intMin : Rat) < q → q ≤ i ∧ (i : Rat) < q + 1

/-- The number of a member; 0 if there is none, and what the parser leaves there if it is no
number. -/
def HoldsInt (v : Value) (name : String) (i : Int) : Prop :=
  (v.getObjectItem (ascii name) = none ∧ i = 0) ∨
    (∃ q, v.getObjectItem (ascii name) = some (.number (.fin q)) ∧ Truncates q i) ∨
      ∃ x, v.getObjectItem (ascii name) = some x ∧ (∀ q, x ≠ .number (.fin q)) ∧ i = x.valueint

structure DiffTexts (d : Value) : Prop where
  url : IsText d "url"
  degist : IsText d "degist"
  fwVerDst : IsText d "fw_ver_dst"

structure FileTexts (tmp : Value) : Prop where
  modName : IsText tmp "module"
  url : IsText tmp "url"
  degist : IsText tmp "degist"
  fwVer : IsText tmp "fw_ver"

structure DescribesDiff (d : Value) (diff : EzOtaFileDiff) : Prop where
  url : HoldsText d "url" diff.url
  degist : HoldsText d "degist" diff.degist
  fwVerDst : HoldsText d "fw_ver_dst" diff.fwVerDst
  size : HoldsInt d "size" diff.size

/-- An entry and the file it was converted to. -/
structure Describes (tmp : Value) (file : EzOtaFileInfo) : Prop where
  modName : HoldsText tmp "module" file.modName
  url : HoldsText tmp "url" file.url
  degist : HoldsText tmp "degist" file.degist
  fwVer : HoldsText tmp "fw_ver" file.fwVer
  size : HoldsInt tmp "size" file.size
  noDiff : diffsOf tmp = none → file.pdiffs = none
  diff : ∀ d, diffsOf tmp = some d → ∃ p, file.pdiffs = some p ∧ DescribesDiff d p.diff

/-- Every entry from the `i`-th on has texts where texts are formatted, and there is memory
for its diff record. -/
def Convertible (env : UpgradeEnv) : Nat → List Value → Prop
  | _, [] => True
  | i, tmp :: rest =>
      (FileTexts tmp ∧ ∀ d, diffsOf tmp = some d → env.pdiffs i = true ∧ DiffTexts d) ∧
        Convertible env (i + 1) rest

section Files

variable {env : UpgradeEnv} {tmp d : Value} {name : String}

theorem stringElement_isSome : (tmp.stringElement name).isSome ↔ IsText tmp name := by
  unfold Value.stringElement IsText
  cases tmp.getObjectItem (ascii name) with
  | none => simp
  | some x => cases x <;> simp [Value.valuestring]

theorem stringElement_holds {n : Nat} {s : CString} (h : tmp.stringElement name = some s) :
    HoldsText tmp name (.strncpy s : CField (n + 1)) := by
  unfold Value.stringElement at h
  unfold HoldsText
  cases hx : tmp.getObjectItem (ascii name) with
  | none =>
      rw [hx] at h
      cases h
      exact .inl ⟨rfl, rfl⟩
  | some x =>
      rw [hx] at h
      cases x with
      | string t =>
          cases h
          exact .inr ⟨t, rfl, rfl⟩
      | _ => cases h

theorem truncates_saturate (q : Rat) : Truncates q (saturate q) := by
  have hmin : (CJson.intMin : Rat) < 0 := by exact_mod_cast (by decide : CJson.intMin < 0)
  have hmax : (0 : Rat) < CJson.intMax := by exact_mod_cast (by decide : 0 < CJson.intMax)
  constructor
  · intro h
    exact if_pos h
  · intro h
    have hlow : ¬ (CJson.intMax : Rat) ≤ q := by linarith
    rw [saturate, if_neg hlow, if_pos h]
  · intro hpos hless
    have hhigh : ¬ q ≤ (CJson.intMin : Rat) := by linarith
    have hfloor : q.num.tdiv q.den = ⌊q⌋ := by
      rw [Int.tdiv_eq_ediv_of_nonneg (Rat.num_nonneg.mpr hpos), Rat.floor_def']
    rw [saturate, if_neg (not_le.mpr hless), if_neg hhigh, hfloor]
    exact ⟨Int.floor_le q, Int.lt_floor_add_one q⟩
  · intro hneg hless
    have hlow : ¬ (CJson.intMax : Rat) ≤ q := by linarith
    have hceil : q.num.tdiv q.den = ⌈q⌉ := by
      have hfloor : (-q).num.tdiv (-q).den = ⌊-q⌋ := by
        rw [Int.tdiv_eq_ediv_of_nonneg (Rat.num_nonneg.mpr (by linarith)), Rat.floor_def']
      rw [Rat.num_neg_eq_neg_num, Rat.den_neg_eq_den, Int.neg_tdiv, Int.floor_neg] at hfloor
      exact neg_inj.mp hfloor
    rw [saturate, if_neg hlow, if_neg (not_le.mpr hless), hceil]
    exact ⟨Int.le_ceil q, Int.ceil_lt_add_one q⟩

theorem intElement_holds (v : Value) (name : String) : HoldsInt v name (v.intElement name) := by
  unfold HoldsInt Value.intElement
  cases v.getObjectItem (ascii name) with
  | none => exact .inl ⟨rfl, rfl⟩
  | some x =>
      by_cases hnumber : ∃ q, x = .number (.fin q)
      · obtain ⟨q, rfl⟩ := hnumber
        exact .inr (.inl ⟨q, rfl, truncates_saturate q⟩)
      · exact .inr (.inr ⟨x, rfl, fun q heq => hnumber ⟨q, heq⟩, rfl⟩)

theorem readDiff_isSome : (readDiff d).isSome ↔ DiffTexts d := by
  constructor
  · intro h
    obtain ⟨diff, hdiff⟩ := Option.isSome_iff_exists.mp h
    obtain ⟨url, hurl, hdiff⟩ := Option.bind_eq_some_iff.mp hdiff
    obtain ⟨degist, hdegist, hdiff⟩ := Option.bind_eq_some_iff.mp hdiff
    obtain ⟨fwVerDst, hfwVerDst, -⟩ := Option.bind_eq_some_iff.mp hdiff
    exact ⟨stringElement_isSome.mp (Option.isSome_of_eq_some hurl),
      stringElement_isSome.mp (Option.isSome_of_eq_some hdegist),
      stringElement_isSome.mp (Option.isSome_of_eq_some hfwVerDst)⟩
  · intro h
    obtain ⟨url, hurl⟩ := Option.isSome_iff_exists.mp (stringElement_isSome.mpr h.url)
    obtain ⟨degist, hdegist⟩ := Option.isSome_iff_exists.mp (stringElement_isSome.mpr h.degist)
    obtain ⟨fwVerDst, hfwVerDst⟩ := Option.isSome_iff_exists.mp (stringElement_isSome.mpr h.fwVerDst)
    simp [readDiff, hurl, hdegist, hfwVerDst]

theorem readDiff_describes {diff : EzOtaFileDiff} (h : readDiff d = some diff) :
    DescribesDiff d diff := by
  obtain ⟨url, hurl, h⟩ := Option.bind_eq_some_iff.mp h
  obtain ⟨degist, hdegist, h⟩ := Option.bind_eq_some_iff.mp h
  obtain ⟨fwVerDst, hfwVerDst, h⟩ := Option.bind_eq_some_iff.mp h
  cases h
  exact ⟨stringElement_holds hurl, stringElement_holds hdegist, stringElement_holds hfwVerDst,
    intElement_holds d "size"⟩

theorem readFile_isSome : (readFile tmp).isSome ↔ FileTexts tmp := by
  constructor
  · intro h
    obtain ⟨file, hfile⟩ := Option.isSome_iff_exists.mp h
    obtain ⟨modName, hmodName, hfile⟩ := Option.bind_eq_some_iff.mp hfile
    obtain ⟨url, hurl, hfile⟩ := Option.bind_eq_some_iff.mp hfile
    obtain ⟨degist, hdegist, hfile⟩ := Option.bind_eq_some_iff.mp hfile
    obtain ⟨fwVer, hfwVer, -⟩ := Option.bind_eq_some_iff.mp hfile
    exact ⟨stringElement_isSome.mp (Option.isSome_of_eq_some hmodName),
      stringElement_isSome.mp (Option.isSome_of_eq_some hurl),
      stringElement_isSome.mp (Option.isSome_of_eq_some hdegist),
      stringElement_isSome.mp (Option.isSome_of_eq_some hfwVer)⟩
  · intro h
    obtain ⟨modName, hmodName⟩ := Option.isSome_iff_exists.mp (stringElement_isSome.mpr h.modName)
    obtain ⟨url, hurl⟩ := Option.isSome_iff_exists.mp (stringElement_isSome.mpr h.url)
    obtain ⟨degist, hdegist⟩ := Option.isSome_iff_exists.mp (stringElement_isSome.mpr h.degist)
    obtain ⟨fwVer, hfwVer⟩ := Option.isSome_iff_exists.mp (stringElement_isSome.mpr h.fwVer)
    simp [readFile, hmodName, hurl, hdegist, hfwVer]

/-- Whatever becomes of the diff record, the other members are converted. -/
theorem readFile_describes {file : EzOtaFileInfo} (h : readFile tmp = some file)
    (pdiffs : Option DiffPtr) (hnone : diffsOf tmp = none → pdiffs = none)
    (hsome : ∀ d, diffsOf tmp = some d → ∃ p, pdiffs = some p ∧ DescribesDiff d p.diff) :
    Describes tmp { file with pdiffs := pdiffs } := by
  obtain ⟨modName, hmodName, h⟩ := Option.bind_eq_some_iff.mp h
  obtain ⟨url, hurl, h⟩ := Option.bind_eq_some_iff.mp h
  obtain ⟨degist, hdegist, h⟩ := Option.bind_eq_some_iff.mp h
  obtain ⟨fwVer, hfwVer, h⟩ := Option.bind_eq_some_iff.mp h
  cases h
  exact ⟨stringElement_holds hmodName, stringElement_holds hurl, stringElement_holds hdegist,
    stringElement_holds hfwVer, intElement_holds tmp "size", hnone, hsome⟩

theorem readFile_pdiffs {file : EzOtaFileInfo} (h : readFile tmp = some file) :
    file.pdiffs = none := by
  obtain ⟨_, -, h⟩ := Option.bind_eq_some_iff.mp h
  obtain ⟨_, -, h⟩ := Option.bind_eq_some_iff.mp h
  obtain ⟨_, -, h⟩ := Option.bind_eq_some_iff.mp h
  obtain ⟨_, -, h⟩ := Option.bind_eq_some_iff.mp h
  cases h
  rfl

def diffIds (files : List EzOtaFileInfo) : List Nat :=
  files.filterMap fun f => f.pdiffs.map DiffPtr.id

theorem diffIds_zero (n : Nat) : diffIds (List.replicate n .zero) = [] := by
  induction n with
  | zero => rfl
  | succ n ih =>
      rw [List.replicate_succ, diffIds, List.filterMap_cons]
      exact ih

/-- The diff records in use are those of the files, also when the loop has ended early. -/
theorem readFiles_owes {l₀ l l' : Ledger} {held : List Nat} {i : Nat} {items : List Value}
    {files : List EzOtaFileInfo} (hl : Owes l₀ l held)
    (h : readFiles env i items l = some (files, l')) : Owes l₀ l' (held ++ diffIds files) := by
  induction items generalizing i l held files with
  | nil =>
      cases h
      rw [diffIds, List.filterMap_nil, List.append_nil]
      exact hl
  | cons tmp rest ih =>
      obtain ⟨file, hfile, h⟩ := Option.bind_eq_some_iff.mp h
      have hnone := readFile_pdiffs hfile
      cases hd : diffsOf tmp with
      | none =>
          rw [hd] at h
          obtain ⟨⟨files', l''⟩, hrest, heq⟩ := Option.map_eq_some_iff.mp h
          cases heq
          have hids : diffIds (file :: files') = diffIds files' := by
            rw [diffIds, List.filterMap_cons, hnone]
            rfl
          rw [hids]
          exact ih hl hrest
      | some d =>
          rw [hd] at h
          dsimp only at h
          split at h
          · obtain ⟨diff, -, h⟩ := Option.bind_eq_some_iff.mp h
            obtain ⟨⟨files', l''⟩, hrest, heq⟩ := Option.map_eq_some_iff.mp h
            cases heq
            have hids : held ++ diffIds ({ file with pdiffs := some ⟨l.next, diff⟩ } :: files') =
                (held ++ l.fresh 1) ++ diffIds files' := by
              rw [List.append_assoc]
              rfl
            rw [hids]
            exact ih (hl.alloc 1) hrest
          · cases h
            have hids : diffIds (file :: List.replicate rest.length .zero) = [] := by
              rw [diffIds, List.filterMap_cons, hnone]
              exact diffIds_zero rest.length
            rw [hids, List.append_nil]
            exact hl

/-- The files are what the entries describe exactly if the entries can be converted. -/
theorem readFiles_describes_iff {i : Nat} {items : List Value} {l : Ledger} :
    (∃ files l', readFiles env i items l = some (files, l') ∧
      List.Forall₂ Describes items files) ↔ Convertible env i items := by
  induction items generalizing i l with
  | nil => exact iff_of_true ⟨[], l, rfl, .nil⟩ trivial
  | cons tmp rest ih =>
      constructor
      · rintro ⟨files, l', h, hdescribes⟩
        obtain ⟨file, hfile, h⟩ := Option.bind_eq_some_iff.mp h
        have htexts := readFile_isSome.mp (Option.isSome_of_eq_some hfile)
        cases hd : diffsOf tmp with
        | none =>
            rw [hd] at h
            obtain ⟨⟨files', l''⟩, hrest, heq⟩ := Option.map_eq_some_iff.mp h
            cases heq
            cases hdescribes with
            | cons _ htail =>
                refine ⟨⟨htexts, ?_⟩, ih.mp ⟨files', l'', hrest, htail⟩⟩
                intro d hsome
                cases hd.symm.trans hsome
        | some d =>
            rw [hd] at h
            dsimp only at h
            split at h
            next hmalloc =>
              obtain ⟨diff, hdiff, h⟩ := Option.bind_eq_some_iff.mp h
              obtain ⟨⟨files', l''⟩, hrest, heq⟩ := Option.map_eq_some_iff.mp h
              cases heq
              cases hdescribes with
              | cons _ htail =>
                  refine ⟨⟨htexts, ?_⟩, ih.mp ⟨files', l'', hrest, htail⟩⟩
                  intro d' hsome
                  cases hd.symm.trans hsome
                  exact ⟨hmalloc, readDiff_isSome.mp (Option.isSome_of_eq_some hdiff)⟩
            next =>
              cases h
              cases hdescribes with
              | cons hhead _ =>
                  obtain ⟨p, hp, -⟩ := hhead.diff d hd
                  cases (readFile_pdiffs hfile).symm.trans hp
      · rintro ⟨⟨htexts, hdiffs⟩, hrest⟩
        obtain ⟨file, hfile⟩ := Option.isSome_iff_exists.mp (readFile_isSome.mpr htexts)
        cases hd : diffsOf tmp with
        | none =>
            obtain ⟨files, l', hfiles, hdescribes⟩ := (ih (l := l)).mpr hrest
            refine ⟨file :: files, l', ?_, .cons ?_ hdescribes⟩
            · simp only [readFiles, hfile, hd, hfiles, Option.bind_some, Option.map_some]
            · have hfile' : file = { file with pdiffs := none } := by
                rw [← readFile_pdiffs hfile]
              rw [hfile']
              refine readFile_describes hfile none (fun _ => rfl) ?_
              intro d hsome
              cases hd.symm.trans hsome
        | some d =>
            obtain ⟨hmalloc, hdiffTexts⟩ := hdiffs d hd
            obtain ⟨diff, hdiff⟩ := Option.isSome_iff_exists.mp (readDiff_isSome.mpr hdiffTexts)
            obtain ⟨files, l', hfiles, hdescribes⟩ := (ih (l := l.alloc 1)).mpr hrest
            refine ⟨{ file with pdiffs := some ⟨l.next, diff⟩ } :: files, l', ?_, .cons ?_ hdescribes⟩
            · simp only [readFiles, hfile, hd, hmalloc, hdiff, hfiles, Option.bind_some,
                Option.map_some, if_true]
            · refine readFile_describes hfile _ (fun hnone => ?_) ?_
              · cases hd.symm.trans hnone
              · intro d' hsome
                cases hd.symm.trans hsome
                exact ⟨_, rfl, readDiff_describes hdiff⟩

end Files

/-! ## Replies -/

section Reply

variable {printNumber : Rat → Bytes} {env : UpgradeEnv} {pres : EzOtaRes} {seq : UInt32} {ret : Int32}

theorem errcodeText_zero_iff : (errcodeText ret).val = ascii "0x00000000" ↔ ret = 0 := by
  constructor
  · intro h
    by_contra hne
    have hnat : ret.toUInt32.toNat ≠ 0 := by
      intro hzero
      have hzero' : ret.toUInt32 = 0 := UInt32.toNat_inj.mp hzero
      exact hne (congrArg UInt32.toInt32 hzero')
    have hprefix : (0 : UInt8) ∉ ascii "0x0x" := by decide
    have htext : (errcodeText ret).val = ascii "0x0x" ++
        (cstr (List.replicate (6 - ((Nat.toDigits 16 ret.toUInt32.toNat).map ch).length) (ch '0') ++
          (Nat.toDigits 16 ret.toUInt32.toNat).map ch)).take 11 := by
      have hsharp : ascii "0x" ++ sharp08x ret.toUInt32.toNat = ascii "0x0x" ++
          (List.replicate (6 - ((Nat.toDigits 16 ret.toUInt32.toNat).map ch).length) (ch '0') ++
            (Nat.toDigits 16 ret.toUInt32.toNat).map ch) := by
        rw [sharp08x, if_neg hnat]
        rfl
      change (cstr (ascii "0x" ++ sharp08x ret.toUInt32.toNat)).take 15 = _
      rw [hsharp, cstr_append_of_no_zero hprefix]
      rfl
    rw [htext] at h
    have hfourth := congrArg (fun t => t[3]?) h
    exact absurd hfourth (by simp [ascii])
  · intro h
    rw [h]
    decide +kernel

theorem stringNode_printable {s : Bytes} (hs : (0 : UInt8) ∉ s) :
    Each (Printable printNumber) (.string s) :=
  .node hs fun _ hx => absurd hx List.not_mem_nil

theorem stringNode_fits (s : Bytes) (d : Nat) : Fits d (.string s) :=
  .node (fun h => nomatch h) fun _ hx => absurd hx List.not_mem_nil

theorem replyTree_parses :
    cJSONParse (printValue printNumber (replyTree env ret)) = some (replyTree env ret) := by
  have hcode : (0 : UInt8) ∉ ascii "code" := by decide
  have herrorMsg : (0 : UInt8) ∉ ascii "errorMsg" := by decide
  have hmembers : ∀ m ∈ (replyTree env ret).members, (0 : UInt8) ∉ m.1 ∧
      ∃ s, m.2 = .string s ∧ (0 : UInt8) ∉ s := by
    intro m hm
    rcases List.mem_append.mp hm with hfirst | hmsg
    · split at hfirst
      · rw [List.mem_singleton.mp hfirst]
        exact ⟨hcode, _, rfl, (errcodeText ret).noNul⟩
      · exact absurd hfirst List.not_mem_nil
    · split at hmsg
      · rw [List.mem_singleton.mp hmsg]
        refine ⟨herrorMsg, _, rfl, ?_⟩
        split <;> decide
      · exact absurd hmsg List.not_mem_nil
  refine cJSONParse_printValue rfl (.node (fun _ => by decide) fun x hx => ?_)
    (.node (fun m hm => (hmembers m hm).1) fun x hx => ?_)
  · rcases List.mem_map.mp hx with ⟨m, hm, rfl⟩
    rcases hmembers m hm with ⟨_, s, hs, _⟩
    rw [hs]
    exact stringNode_fits s 1
  · rcases List.mem_map.mp hx with ⟨m, hm, rfl⟩
    rcases hmembers m hm with ⟨_, s, hs, hzero⟩
    rw [hs]
    exact stringNode_printable hzero

theorem replyTree_code (hcode : env.code = true) :
    (replyTree env ret).getObjectItem (ascii "code") = some (.string (errcodeText ret).val) := by
  unfold replyTree
  rw [if_pos hcode]
  rfl

theorem replyTree_no_code (hcode : env.code = false) :
    (replyTree env ret).getObjectItem (ascii "code") = none := by
  unfold replyTree
  simp only [hcode, Bool.false_eq_true, if_false, List.nil_append]
  cases env.errorMsg <;> rfl

end Reply

/-! ## Upgrades -/

/-- What should come of a request. -/
structure UpgradedRight (env : UpgradeEnv) (pres : EzOtaRes) (seq : UInt32) (buf : Option Bytes)
    (l : Ledger) (r : Upgrade) : Prop where
  called : r.calls = [] ∨ ∃ proot items info, buf.bind cJSONParse = some proot ∧
    proot.getObjectItem (ascii "file_info") = some (.array items) ∧ r.calls = [info] ∧
      info.fileNum = items.length ∧ List.Forall₂ Describes items info.potaFiles
  replied : ∃ msg root code, r.replies = [msg] ∧ msg.msgSeq = seq ∧
    msg.msgType.toCString = .lit "operate_reply" ∧ cJSONParse msg.msgBody = some root ∧
      root.getObjectItem (ascii "code") = some (.string code) ∧
        (code = ascii "0x00000000" ↔ ∃ info, r.calls = [info] ∧ env.otaRecvMsg pres info = 0)
  released : Settled l r.ledger

/-- The entries that come to be converted can be, and there is memory for the reply. -/
structure Upgradable (env : UpgradeEnv) (buf : Option Bytes) : Prop where
  convertible : ∀ proot items, buf.bind cJSONParse = some proot →
    proot.getObjectItem (ascii "file_info") = some (.array items) → env.potaFiles = true →
      Convertible env 0 items
  pjsonRsp : env.pjsonRsp = true
  code : env.code = true
  response : env.response = true

section Upgraded

variable {printNumber : Rat → Bytes} {env : UpgradeEnv} {pres : EzOtaRes} {seq : UInt32}
  {buf : Option Bytes} {l : Ledger} {s : Started}

theorem upgradeBody_cases (h : upgradeBody env pres buf l = some s) :
    (s = .refused l ∧ ∀ proot items, buf.bind cJSONParse = some proot →
        proot.getObjectItem (ascii "file_info") = some (.array items) → env.potaFiles = false) ∨
      ∃ proot items, buf.bind cJSONParse = some proot ∧
        proot.getObjectItem (ascii "file_info") = some (.array items) ∧ env.potaFiles = true ∧
          startUpgrade env pres proot items l = some s := by
  unfold upgradeBody at h
  cases hparse : buf.bind cJSONParse with
  | none =>
      rw [hparse] at h
      cases h
      refine .inl ⟨rfl, fun proot items hroot => ?_⟩
      cases hroot
  | some proot =>
      rw [hparse] at h
      dsimp only at h
      split at h
      next items hitems =>
        split at h
        next hfiles => exact .inr ⟨proot, items, rfl, hitems, hfiles, h⟩
        next hfiles =>
          cases h
          exact .inl ⟨rfl, fun _ _ _ _ => Bool.eq_false_iff.mpr hfiles⟩
      next hother =>
        cases h
        refine .inl ⟨rfl, fun proot' items hroot hitems => ?_⟩
        cases hroot
        exact absurd hitems (hother items)

/-- The code of the reply is 0 exactly if the device was asked and agreed. -/
theorem started_ret_zero_iff (h : upgradeBody env pres buf l = some s) :
    s.ret = 0 ↔ ∃ info, s.calls = [info] ∧ env.otaRecvMsg pres info = 0 := by
  rcases upgradeBody_cases h with ⟨rfl, -⟩ | ⟨proot, items, -, -, -, hstart⟩
  · have hret : (-1 : Int32) ≠ 0 := by decide
    refine iff_of_false hret ?_
    rintro ⟨info, hcalls, -⟩
    cases hcalls
  · obtain ⟨r, -, rfl⟩ := Option.map_eq_some_iff.mp hstart
    constructor
    · intro hret
      exact ⟨_, rfl, hret⟩
    · rintro ⟨info, hcalls, hret⟩
      cases hcalls
      exact hret

theorem started_settled (h : upgradeBody env pres buf l = some s) :
    Settled l (freeDiffs s.files s.ledger) := by
  rcases upgradeBody_cases h with ⟨rfl, -⟩ | ⟨proot, items, -, -, -, hstart⟩
  · exact Owes.rfl.free_all
  · obtain ⟨r, hfiles, rfl⟩ := Option.map_eq_some_iff.mp hstart
    exact (readFiles_owes Owes.rfl hfiles).free_all

theorem replied_iff (h : upgradeBody env pres buf l = some s) :
    (∃ msg root code, sendReply printNumber env pres seq s.ret = [msg] ∧ msg.msgSeq = seq ∧
      msg.msgType.toCString = .lit "operate_reply" ∧ cJSONParse msg.msgBody = some root ∧
        root.getObjectItem (ascii "code") = some (.string code) ∧
          (code = ascii "0x00000000" ↔
            ∃ info, s.calls = [info] ∧ env.otaRecvMsg pres info = 0)) ↔
      env.pjsonRsp = true ∧ env.code = true ∧ env.response = true := by
  unfold sendReply
  constructor
  · rintro ⟨msg, root, code, hreply, -, -, hparse, hcode, -⟩
    split at hreply
    next hboth =>
      rw [Bool.and_eq_true] at hboth
      cases hreply
      cases replyTree_parses.symm.trans hparse
      refine ⟨hboth.1, ?_, hboth.2⟩
      by_contra hno
      cases (replyTree_no_code (Bool.eq_false_iff.mpr hno)).symm.trans hcode
    next => cases hreply
  · rintro ⟨hrsp, hcode, hresponse⟩
    have hboth : (env.pjsonRsp && env.response) = true := by rw [hrsp, hresponse]; rfl
    rw [if_pos hboth]
    refine ⟨_, _, _, rfl, rfl, ?_, replyTree_parses, replyTree_code hcode, ?_⟩
    · exact CField.strncpy_of_fits (by decide)
    · rw [errcodeText_zero_iff]
      exact started_ret_zero_iff h

/-- A request comes out right exactly if the entries that are to be converted have texts
where texts are formatted and memory for their diff records, and the reply has memory. -/
theorem upgrade_right_iff (printNumber : Rat → Bytes) (env : UpgradeEnv) (pres : EzOtaRes)
    (seq : UInt32) (buf : Option Bytes) (l : Ledger) :
    (∃ r, ezOtaUpgradeToDevice printNumber env pres seq buf l = some r ∧
      UpgradedRight env pres seq buf l r) ↔ Upgradable env buf := by
  unfold ezOtaUpgradeToDevice
  constructor
  · rintro ⟨r, hrun, hright⟩
    obtain ⟨s, hbody, rfl⟩ := Option.map_eq_some_iff.mp hrun
    obtain ⟨hrsp, hcode, hresponse⟩ := (replied_iff hbody).mp hright.replied
    refine ⟨?_, hrsp, hcode, hresponse⟩
    intro proot items hroot hitems hmalloc
    rcases upgradeBody_cases hbody with ⟨-, hfailed⟩ | ⟨proot', items', hroot', hitems', -, hstart⟩
    · cases hmalloc.symm.trans (hfailed proot items hroot hitems)
    · cases hroot.symm.trans hroot'
      cases hitems.symm.trans hitems'
      obtain ⟨⟨files, l'⟩, hfiles, rfl⟩ := Option.map_eq_some_iff.mp hstart
      rcases hright.called with hnone | ⟨proot'', items'', info, hroot'', hitems'', hcalls, -, hall⟩
      · cases hnone
      · cases hroot.symm.trans hroot''
        cases hitems.symm.trans hitems''
        cases hcalls
        exact readFiles_describes_iff.mp ⟨files, l', hfiles, hall⟩
  · intro h
    obtain ⟨s, hbody, hcalled⟩ : ∃ s, upgradeBody env pres buf l = some s ∧
        (s.calls = [] ∨ ∃ proot items info, buf.bind cJSONParse = some proot ∧
          proot.getObjectItem (ascii "file_info") = some (.array items) ∧ s.calls = [info] ∧
            info.fileNum = items.length ∧ List.Forall₂ Describes items info.potaFiles) := by
      unfold upgradeBody
      cases hparse : buf.bind cJSONParse with
      | none => exact ⟨_, rfl, .inl rfl⟩
      | some proot =>
          dsimp only
          split
          next items hitems =>
            split
            next hmalloc =>
              obtain ⟨files, l', hfiles, hall⟩ := readFiles_describes_iff (l := l) |>.mpr
                (h.convertible proot items hparse hitems hmalloc)
              unfold startUpgrade
              rw [hfiles]
              exact ⟨_, rfl, .inr ⟨proot, items, _, rfl, hitems, rfl, rfl, hall⟩⟩
            next => exact ⟨_, rfl, .inl rfl⟩
          next => exact ⟨_, rfl, .inl rfl⟩
    refine ⟨_, Option.map_eq_some_iff.mpr ⟨s, hbody, rfl⟩, hcalled, ?_, started_settled hbody⟩
    exact (replied_iff hbody).mpr ⟨h.pjsonRsp, h.code, h.response⟩

theorem ezOtaDataRouteCb_upgrade {m : SubmsgV3} {body : Bytes} (hbuf : m.buf = some body)
    (hmethod : m.method.toCString = .lit "upgrade") (l : Ledger) :
    (∃ r, ezOtaDataRouteCb printNumber env m l = some [r] ∧
      UpgradedRight env ⟨m.subSerial⟩ m.msgSeq (some body) l r) ↔
      ∃ r, ezOtaUpgradeToDevice printNumber env ⟨m.subSerial⟩ m.msgSeq (some body) l = some r ∧
        UpgradedRight env ⟨m.subSerial⟩ m.msgSeq (some body) l r := by
  unfold ezOtaDataRouteCb
  rw [hbuf]
  dsimp only
  rw [if_pos hmethod]
  constructor
  · rintro ⟨r, hrun, hright⟩
    obtain ⟨r', hrun', heq⟩ := Option.map_eq_some_iff.mp hrun
    cases heq
    exact ⟨r, hrun', hright⟩
  · rintro ⟨r, hrun, hright⟩
    exact ⟨r, Option.map_eq_some_iff.mpr ⟨r, hrun, rfl⟩, hright⟩

end Upgraded

/-! A device that agrees, with memory for all but the diff records. -/

def sampleUpgradeEnv : UpgradeEnv := ⟨fun _ _ => 0, true, fun _ => false, true, true, true, true⟩

/-- Two files, the first with a diff record. -/
def twoFiles : Bytes :=
  ascii ("\x7b\"file_info\":[\x7b\"module\":\"A\",\"diffs\":\x7b\"url\":\"u\"\x7d\x7d," ++
    "\x7b\"module\":\"B\"\x7d]\x7d")

/-- The files as the device gets them. -/
def halfFilled : EzOtaUpgradeInfo :=
  ⟨0, 2, 0, [{ EzOtaFileInfo.zero with modName := .strncpy (.lit "A") }, .zero]⟩

/-- Without memory for the first diff record the second file stays empty, and the device is
asked to start all the same. -/
theorem half_filled_started :
    (ezOtaUpgradeToDevice (fun _ => []) sampleUpgradeEnv ⟨.strncpy (.lit "")⟩ 7 (some twoFiles)
      ⟨0, []⟩).map Upgrade.calls = some [halfFilled] ∧
    ¬ ∃ r, ezOtaUpgradeToDevice (fun _ => []) sampleUpgradeEnv ⟨.strncpy (.lit "")⟩ 7
      (some twoFiles) ⟨0, []⟩ = some r ∧
        UpgradedRight sampleUpgradeEnv ⟨.strncpy (.lit "")⟩ 7 (some twoFiles) ⟨0, []⟩ r := by
  have hrun : (ezOtaUpgradeToDevice (fun _ => []) sampleUpgradeEnv ⟨.strncpy (.lit "")⟩ 7
      (some twoFiles) ⟨0, []⟩).map Upgrade.calls = some [halfFilled] := by decide +kernel
  refine ⟨hrun, ?_⟩
  rintro ⟨r, hr, hright⟩
  rw [hr, Option.map_some, Option.some_inj] at hrun
  rcases hright.called with hnone | ⟨proot, items, info, hroot, hitems, hcall, -, hall⟩
  · cases hnone.symm.trans hrun
  · cases hcall.symm.trans hrun
    have hparse : (some twoFiles).bind cJSONParse = some (.object [(ascii "file_info", .array
        [.object [(ascii "module", .string (ascii "A")), (ascii "diffs",
            .object [(ascii "url", .string (ascii "u"))])],
          .object [(ascii "module", .string (ascii "B"))]])]) := by decide +kernel
    cases hparse.symm.trans hroot
    cases hitems
    cases hall with
    | cons hfirst _ =>
        obtain ⟨p, hp, -⟩ := hfirst.diff _ rfl
        cases hp

end EzIot.Ota
