import EzIot.Lib.Faulty
import EzIot.Tsl.Storage

/-! # The storage of profiles over a store that fails

The functions of the storage with every evaluation of an operation on the store, each of
which may fail. Where none does, they are the functions of the storage over a map.
-/

namespace EzIot.Tsl

open CText CJson Kv Program Faulty

/-! ## The operations with failures -/

/-- The places at which the storage uses the store. -/
inductive StorageSite
  | length
  | read
  | clear
  | delOld
  | tslmap
  | profile
deriving DecidableEq

abbrev ProfileText := {b : Bytes // b ≠ []}

/-- A function of the storage. It leaves with a code; there is none where the index was
written by somebody else. -/
abbrev StorageProgram := Logged Store Store (Option Int) Unit

def rawSetAt (key : CString) (value : Bytes) (kv : Store) : Int × Store := (0, kv.rawSet key value)

def delAt (key : CString) (kv : Store) : Int × Store :=
  match kv.del key with
  | some kv' => (0, kv')
  | none => (Err.kvName, kv)

def delByPrefixAt (keyPrefix : Bytes) (kv : Store) : Int × Store := (0, kv.delByPrefix keyPrefix)

section Storage

variable {known : Set DevModel} (c : StorageConfig known) (out : Outcomes StorageSite)

/-- The end of `tsl_storage_save`. The code for a profile that cannot be stored is
`ez_false`. -/
def saveProfileAt (handleCurr : CField 32) (buf : Option ProfileText) (items : List Value) :
    StorageProgram :=
  match buf with
  | none => pure ()
  | some b =>
      match getTslHandleCount handleCurr.toCString items with
      | none => stop none
      | some count =>
          if count = 1 then
            checkCond out .profile (rawSetAt handleCurr.toCString b.1) (some 0)
          else pure ()

def saveIndexedAt (devSn : CString) (handleCurr : CField 32) (buf : Option ProfileText)
    (items : List Value) (index : Option Nat) : StorageProgram :=
  match index with
  | none =>
      let items := items ++ [tslmapMetadataToJson ⟨.strncpy devSn, handleCurr⟩]
      if (printTslmap c items).length > c.mapSize then stop (some Err.kvSavedFull)
      else do
        checkCond out .tslmap (rawSetAt tslmapKey (printTslmap c items)) (some (-1))
        saveProfileAt out handleCurr buf items
  | some index =>
      match items[index]? with
      | none => stop none
      | some item =>
          match jsonToTslmapMetadata item with
          | none => stop none
          | some tslMetadata =>
              if tslMetadata.handle = handleCurr then saveProfileAt out handleCurr buf items
              else
                match getTslHandleCount tslMetadata.handle.toCString items with
                | none => stop none
                | some count => do
                    -- whether the old profile is gone is not looked at
                    if count = 1 then do
                      let _ ← evaluate out .delOld 0 (delAt tslMetadata.handle.toCString)
                    let items := items.set index
                      (item.replaceItemInObject "handle" (.string handleCurr.val))
                    checkRv out .tslmap (rawSetAt tslmapKey (printTslmap c items)) some
                    saveProfileAt out handleCurr buf items

/-- What `ezos_kv_raw_get` leaves in the length where it fails. -/
def failedLength (length : Nat) : Nat := if length = 0 then Store.kvBufSizeDefault else length

def tslStorageSaveAt (devSn : CString) (model : DevModel) (buf : Option ProfileText) :
    StorageProgram :=
  if (buf.elim 0 fun b => b.1.length) > c.profileSize then stop (some Err.kvSavedFull)
  else do
    let handleCurr := c.handles.index model
    let code ← evaluate out .length 0 look
    let tslmapLen ← read fun s =>
      if code = 0 then s.1.rawLength tslmapKey c.mapSize else failedLength c.mapSize
    if tslmapLen = 0 then do
      let _ ← evaluate out .clear 0 (delByPrefixAt (ascii "tslpf"))
      saveIndexedAt c out devSn handleCurr buf [] none
    else do
      checkCond out .read look (some (-1))
      let text ← read fun s => s.1.rawGet tslmapKey tslmapLen
      match cJSONParse text with
      | none => stop (some (-1))
      | some (.array items) =>
          match findDevBySn devSn items with
          | none => stop none
          | some index => saveIndexedAt c out devSn handleCurr buf items index
      | some _ => stop none

/-- `tsl_storage_del` of the element at a position. The code for a profile that cannot be
deleted is `ez_false`. -/
def delIndexedAt (items : List Value) (index : Nat) : StorageProgram :=
  match items[index]?.bind jsonToTslmapMetadata with
  | none => stop none
  | some tslMetadata =>
      match getTslHandleCount tslMetadata.handle.toCString items with
      | none => stop none
      | some count => do
          if count = 1 then checkCond out .delOld (delAt tslMetadata.handle.toCString) (some 0)
          checkRv out .tslmap (rawSetAt tslmapKey (printTslmap c (items.eraseIdx index))) some

def tslStorageDelAt (devSn : CString) : StorageProgram := do
  checkRv out .length look some
  let tslmapLen ← read fun s => s.1.rawLength tslmapKey 0
  if tslmapLen = 0 then stop (some 0)
  else do
    checkRv out .read look some
    let text ← read fun s => s.1.rawGet tslmapKey tslmapLen
    match cJSONParse text with
    | none => stop (some (-1))
    | some (.array items) =>
        match findDevBySn devSn items with
        | none => stop none
        | some none => stop (some (-1))
        | some (some index) => delIndexedAt c out items index
    | some _ => stop none

/-! ## How calls end -/

/-- How a call ends: the code, the store, and the stores in which the power can be lost. -/
structure Ended where
  code : Option Int
  kv : Store
  cuts : List Store

def Ended.of (r : Except (Option Int) Unit × Store × List Store) : Ended :=
  match r with
  | (.ok (), s) => ⟨some 0, s.1, s.2⟩
  | (.error code, s) => ⟨code, s.1, s.2⟩

def StorageProgram.run (x : StorageProgram) (kv : Store) : Ended := .of (x (kv, []))

/-- What a call returns, beside the store. -/
def Ended.result (ended : Ended) : Option (Int × Store) := ended.code.map fun rv => (rv, ended.kv)

/-! ## Without failures -/

variable {c}

theorem delAt_getD (key : CString) (kv : Store) : (delAt key kv).2 = (kv.del key).getD kv := by
  unfold delAt
  cases kv.del key with
  | none => rfl
  | some kv' => rfl

theorem saveProfileAt_undisturbed (handleCurr : CField 32) (p : ProfileText) (items : List Value)
    (s : Store) (l : List Store) :
    (Ended.of (saveProfileAt (fun _ _ => 0) handleCurr (some p) items (s, l))).result =
      saveProfile handleCurr p.1 items s := by
  unfold saveProfileAt saveProfile
  cases getTslHandleCount handleCurr.toCString items with
  | none => rfl
  | some count =>
      by_cases hone : count = 1
      · simp only [if_pos hone, Option.map_some]
        rfl
      · simp only [if_neg hone, Option.map_some]
        rfl

theorem saveIndexedAt_undisturbed (devSn : CString) (handleCurr : CField 32) (p : ProfileText)
    (items : List Value) (index : Option Nat) (s : Store) (l : List Store) :
    (Ended.of (saveIndexedAt c (fun _ _ => 0) devSn handleCurr (some p) items index
      (s, l))).result = saveIndexed c devSn handleCurr p.1 items index s := by
  have hwrite (t : Bytes) (s : Store) : (attempt (fun (_ : StorageSite) _ => (0 : Int)) .tslmap 0
      (rawSetAt tslmapKey t) s).1 = 0 := rfl
  cases index with
  | none =>
      unfold saveIndexedAt saveIndexed
      dsimp only
      split
      next => rfl
      next =>
        rw [bind_of_ok (checkCond_of_ok (hwrite _ s))]
        exact saveProfileAt_undisturbed _ _ _ _ _
  | some index =>
      unfold saveIndexedAt saveIndexed
      cases hitem : items[index]? with
      | none =>
          simp only [hitem]
          rfl
      | some item =>
          cases hmeta : jsonToTslmapMetadata item with
          | none =>
              simp only [hitem, hmeta]
              rfl
          | some tslMetadata =>
              simp only [hitem, hmeta]
              by_cases hsame : tslMetadata.handle = handleCurr
              · rw [if_pos hsame, if_pos hsame]
                exact saveProfileAt_undisturbed _ _ _ _ _
              · rw [if_neg hsame, if_neg hsame]
                cases hcount : getTslHandleCount tslMetadata.handle.toCString items with
                | none => rfl
                | some count =>
                    by_cases hone : count = 1
                    · simp only [if_pos hone]
                      rw [← delAt_getD, evaluate_bind, bind_of_ok (checkRv_of_ok (hwrite _ _))]
                      exact saveProfileAt_undisturbed _ _ _ _ _
                    · simp only [if_neg hone]
                      rw [bind_of_ok (checkRv_of_ok (hwrite _ _))]
                      exact saveProfileAt_undisturbed _ _ _ _ _

theorem save_undisturbed (c : StorageConfig known) (devSn : CString) (model : DevModel)
    (p : ProfileText) (kv : Store) :
    ((tslStorageSaveAt c (fun _ _ => 0) devSn model (some p)).run kv).result =
      tslStorageSave c devSn model p.1 kv := by
  unfold StorageProgram.run tslStorageSaveAt tslStorageSave
  by_cases hlong : p.1.length > c.profileSize
  · have hlong' : ((some p).elim 0 fun b => b.1.length) > c.profileSize := hlong
    rw [if_pos hlong, if_pos hlong']
    rfl
  · have hshort : ¬ ((some p).elim 0 fun b => b.1.length) > c.profileSize := hlong
    rw [if_neg hlong, if_neg hshort, evaluate_bind, attempt_look, read_bind]
    dsimp only
    rw [if_pos rfl]
    by_cases hempty : kv.rawLength tslmapKey c.mapSize = 0
    · rw [if_pos hempty, if_pos hempty, evaluate_bind]
      exact saveIndexedAt_undisturbed _ _ _ _ _ _ _
    · rw [if_neg hempty, if_neg hempty, bind_of_ok (checkCond_of_ok rfl), attempt_look, read_bind]
      dsimp only
      cases hroot : cJSONParse (kv.rawGet tslmapKey (kv.rawLength tslmapKey c.mapSize)) with
      | none => rfl
      | some root =>
          cases root with
          | array items =>
              cases hfind : findDevBySn devSn items with
              | none =>
                  simp only [hfind]
                  rfl
              | some index =>
                  simp only [hfind]
                  exact saveIndexedAt_undisturbed _ _ _ _ _ _ _
          | _ => rfl

theorem delIndexedAt_undisturbed (items : List Value) (index : Nat) (s : Store) (l : List Store) :
    (Ended.of (delIndexedAt c (fun _ _ => 0) items index (s, l))).result =
      delIndexed c items index s := by
  have hwrite (t : Bytes) (s : Store) : (attempt (fun (_ : StorageSite) _ => (0 : Int)) .tslmap 0
      (rawSetAt tslmapKey t) s).1 = 0 := rfl
  unfold delIndexedAt delIndexed
  cases items[index]?.bind jsonToTslmapMetadata with
  | none => rfl
  | some tslMetadata =>
      simp only
      cases hcount : getTslHandleCount tslMetadata.handle.toCString items with
      | none => rfl
      | some count =>
          by_cases hone : count = 1
          · simp only [if_pos hone]
            cases hdel : s.del tslMetadata.handle.toCString with
            | none =>
                have hat : delAt tslMetadata.handle.toCString s = (Err.kvName, s) := by
                  simp [delAt, hdel]
                have hcode : (attempt (fun (_ : StorageSite) _ => (0 : Int)) .delOld 0
                    (delAt tslMetadata.handle.toCString) s).1 ≠ 0 := by
                  rw [attempt_of_ok rfl, hat]
                  exact fun heq => absurd heq (by decide : Err.kvName ≠ 0)
                rw [bind_of_error (checkCond_of_fail hcode), attempt_of_ok rfl, attempt_of_ok rfl,
                  hat, hat]
                rfl
            | some s' =>
                have hat : delAt tslMetadata.handle.toCString s = (0, s') := by
                  simp [delAt, hdel]
                have hcode : (attempt (fun (_ : StorageSite) _ => (0 : Int)) .delOld 0
                    (delAt tslMetadata.handle.toCString) s).1 = 0 := by
                  rw [attempt_of_ok rfl, hat]
                rw [bind_of_ok (checkCond_of_ok hcode), attempt_of_ok rfl, hat,
                  checkRv_of_ok (hwrite _ _)]
                rfl
          · simp only [if_neg hone]
            rw [checkRv_of_ok (hwrite _ _)]
            rfl

theorem del_undisturbed (c : StorageConfig known) (devSn : CString) (kv : Store) :
    ((tslStorageDelAt c (fun _ _ => 0) devSn).run kv).result = tslStorageDel c devSn kv := by
  unfold StorageProgram.run tslStorageDelAt tslStorageDel
  rw [bind_of_ok (checkRv_of_ok rfl), attempt_look, read_bind]
  dsimp only
  by_cases hempty : kv.rawLength tslmapKey 0 = 0
  · rw [if_pos hempty, if_pos hempty]
    rfl
  · rw [if_neg hempty, if_neg hempty, bind_of_ok (checkRv_of_ok rfl), attempt_look, read_bind]
    dsimp only
    cases hroot : cJSONParse (kv.rawGet tslmapKey (kv.rawLength tslmapKey 0)) with
    | none => rfl
    | some root =>
        cases root with
        | array items =>
            cases hfind : findDevBySn devSn items with
            | none =>
                simp only [hfind]
                rfl
            | some found =>
                simp only [hfind]
                cases found with
                | none => rfl
                | some index => exact delIndexedAt_undisturbed _ _ _ _
        | _ => rfl

end Storage

end EzIot.Tsl
