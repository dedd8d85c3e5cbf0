import EzIot.Lib.CText
import EzIot.Lib.Tiling

/-! # The download of an upgrade file

`ota_file_download_thread` repeats `file_download` from the offset that the attempts
before it have reached, until an attempt returns 0 or there were too many. What the
HTTP client, the callback of the user and the shutdown flag answer is given for every
attempt and every block of it.
-/

namespace EzIot.Ota

open CText Tiling

/-! ## What is asked for and what is answered -/

/-- The part of `ez_ota_info_t` that the thread reads; `ez_iot_ota_download` rejects
sizes that are not positive. -/
structure OtaInfo where
  totalSize : Nat
  recvSize : Nat
  retryMax : Int
  total_pos : 0 < totalSize
  total_lt : totalSize < 2 ^ 31
  recv_pos : 0 < recvSize
  recv_lt : recvSize < 2 ^ 31
  retry_lt : retryMax < 2147483648

/-- The answers in one round of the block loop: the bytes that `webclient_read`
stores, `none` for an error, then `ez_get_exit_status` and `file_cb`. -/
structure Block where
  read : Option Bytes
  exitStatus : Int
  fileCb : Int

/-- The answers in one attempt; `exitStatus` is asked for after it has failed. -/
structure Attempt where
  buffer : Bool
  session : Bool
  status : Int
  contentLength : UInt32
  blocks : Nat → Block
  exitStatus : Int

inductive CbResult
  | suc
  | failed
deriving DecidableEq

inductive Event
  -- a call of `file_cb` and what it returns
  | fileCb (offset : Nat) (data : Bytes) (ret : Int)
  -- the block loop finds the device shut down
  | shutdown
  -- the counter of the attempts leaves `int`; nothing is defined behind it
  | overflow
  | notify (result : CbResult)
deriving DecidableEq

/-! ## One attempt -/

/-- The block loop from its `i`-th round on: what happens, the value of `ret` and the
offset. Every round takes at least one byte, so that the first argument can be the
number of the bytes that are left. -/
def readBlocks (total : Nat) (blocks : Nat → Block) :
    Nat → Nat → Nat → Nat → List Event × Int × Nat
  | 0, _, _, offset => ([], 0, offset)
  | left + 1, i, readlen, offset =>
      let needReadlen := total - offset
      let readlen := if needReadlen ≤ readlen then needReadlen else readlen
      match (blocks i).read with
      | none => ([], -1, offset)
      | some data =>
          if data.length ≠ readlen then ([], -1, offset)
          else if (blocks i).exitStatus = 1 then ([.shutdown], 0, offset)
          else if (blocks i).fileCb ≠ 0 then
            ([.fileCb offset data (blocks i).fileCb], 0, offset)
          else if needReadlen - readlen = 0 then
            ([.fileCb offset data (blocks i).fileCb], 0, offset + readlen)
          else
            let r := readBlocks total blocks left (i + 1) readlen (offset + readlen)
            (.fileCb offset data (blocks i).fileCb :: r.1, r.2)

/-- `file_download`: what happens, the value that is returned and the new offset. -/
def fileDownload (a : Attempt) (totalLen readlen offset : Nat) (retryFlg : Bool) :
    List Event × Int × Nat :=
  if a.buffer = false then ([], -1, offset)
  else if a.session = false then ([], -1, offset)
  else if retryFlg ∧ a.status ≠ 200 ∧ a.status ≠ 206 then ([], -1, offset)
  else if ¬ retryFlg ∧ a.status ≠ 200 then ([], -1, offset)
  else if a.contentLength.toNat ≠ totalLen - offset then ([], -1, offset)
  else readBlocks totalLen a.blocks (totalLen - offset) 0 readlen offset

/-! ## The thread -/

def intMax : Int := 2147483647

/-- The loop over the attempts, of which `left` may still be made; attempt `n` is the
next one. -/
def downloadLoop (info : OtaInfo) (env : Nat → Attempt) :
    Nat → Nat → Nat → Bool → List Event
  | 0, _, _, _ => []
  | left + 1, n, offset, retryFlag =>
      let r := fileDownload (env n) info.totalSize info.recvSize offset retryFlag
      r.1 ++
        if r.2.1 = 0 then [.notify .suc]
        -- `retry_times` is `n`
        else if (n : Int) = intMax then [.overflow]
        else if (n + 1 : Int) > info.retryMax then [.notify .failed]
        else if (env n).exitStatus = 1 then [.notify .failed]
        else downloadLoop info env left (n + 1) r.2.2 true

/-- `ota_file_download_thread` up to the reset of the download status. After
`retry_max` repetitions the loop ends, so that there are not more attempts than one
more. -/
def otaFileDownloadThread (info : OtaInfo) (env : Nat → Attempt) : List Event :=
  downloadLoop info env (info.retryMax.toNat + 1) 0 0 false

/-! ## What is meant -/

/-- The block that a call of the callback has accepted. -/
def Event.accepted : Event → Option (Nat × Nat)
  | .fileCb offset data ret => if ret = 0 then some (offset, data.length) else none
  | _ => none

def Event.isNotify : Event → Bool
  | .notify _ => true
  | _ => false

/-- From `offset` on: the user is notified once, and of a success exactly when the
accepted blocks tile the rest of the file. -/
structure Truthful (total offset : Nat) (events : List Event) : Prop where
  once : (events.filter Event.isNotify).length = 1
  success : .notify .suc ∈ events ↔ Tiles offset (events.filterMap Event.accepted) total

/-- The callback accepts what it is given, no shutdown is seen in the block loop, and
the counter stays in its range. -/
def Event.Fine : Event → Prop
  | .fileCb _ _ ret => ret = 0
  | .shutdown => False
  | .overflow => False
  | .notify _ => True

/-! ## One attempt keeps the tiling -/

/-- What an attempt that starts at `offset` leaves: the blocks it accepted tile the
way to the new offset, and it returns 0 exactly at the end of the file unless an
answer was bad; then it returns 0 before the end. -/
structure Advances (total offset : Nat) (r : List Event × Int × Nat) : Prop where
  tiles : Tiles offset (r.1.filterMap Event.accepted) r.2.2
  le : r.2.2 ≤ total
  fine : (∀ e ∈ r.1, e.Fine) → (r.2.1 = 0 ↔ r.2.2 = total)
  foul : ¬ (∀ e ∈ r.1, e.Fine) → r.2.1 = 0 ∧ r.2.2 ≠ total
  silent : r.1.filter Event.isNotify = []

section Attempt

variable {total offset : Nat}

theorem advances_failed (h : offset < total) : Advances total offset ([], -1, offset) where
  tiles := rfl
  le := Nat.le_of_lt h
  fine := fun _ => ⟨fun hret => absurd hret (by simp), fun hend => absurd hend (Nat.ne_of_lt h)⟩
  foul := fun hfoul => absurd (by simp) hfoul
  silent := rfl

theorem advances_stopped {e : Event} (h : offset < total) (hfoul : ¬ e.Fine)
    (hskip : e.accepted = none) (hsilent : e.isNotify = false) :
    Advances total offset ([e], 0, offset) where
  tiles := by simp [hskip]
  le := Nat.le_of_lt h
  fine := fun hfine => absurd (hfine e List.mem_cons_self) hfoul
  foul := fun _ => ⟨rfl, Nat.ne_of_lt h⟩
  silent := by simp [hsilent]

/-- An accepted block before an attempt from its end on. -/
theorem Advances.cons {data : Bytes} {r : List Event × Int × Nat} (hpos : 0 < data.length)
    (h : Advances total (offset + data.length) r) :
    Advances total offset (.fileCb offset data 0 :: r.1, r.2) where
  tiles := by
    have haccepted : Event.accepted (.fileCb offset data 0) = some (offset, data.length) := rfl
    simp only [List.filterMap_cons, haccepted]
    exact ⟨rfl, hpos, h.tiles⟩
  le := h.le
  fine := by
    rw [List.forall_mem_cons]
    exact fun hfine => h.fine hfine.2
  foul := by
    rw [List.forall_mem_cons]
    exact fun hfoul => h.foul fun hfine => hfoul ⟨rfl, hfine⟩
  silent := h.silent

theorem advances_readBlocks (blocks : Nat → Block) {left : Nat} (i : Nat) {readlen : Nat}
    (hread : 0 < readlen) (hlt : offset < total) (hleft : total - offset ≤ left) :
    Advances total offset (readBlocks total blocks left i readlen offset) := by
  induction left generalizing i readlen offset with
  | zero => omega
  | succ left ih =>
      unfold readBlocks
      dsimp only
      generalize hlen : (if total - offset ≤ readlen then total - offset else readlen) = len
      have hlenPos : 0 < len := by split at hlen <;> omega
      have hlenLe : len ≤ total - offset := by split at hlen <;> omega
      cases (blocks i).read with
      | none => exact advances_failed hlt
      | some data =>
          dsimp only
          split
          · exact advances_failed hlt
          · next hdata =>
              have hdata : data.length = len := Decidable.not_not.mp hdata
              split
              · exact advances_stopped hlt id rfl rfl
              · split
                · next hcb => exact advances_stopped hlt hcb (if_neg hcb) rfl
                · next hcb =>
                    rw [Decidable.not_not.mp hcb, ← hdata]
                    rw [← hdata] at hlenPos hlenLe
                    split
                    · next hend =>
                        have heq : offset + data.length = total := by omega
                        exact .cons (r := ([], 0, offset + data.length)) hlenPos
                          ⟨rfl, Nat.le_of_eq heq, fun _ => ⟨fun _ => heq, fun _ => rfl⟩,
                            fun hfoul => absurd (by simp) hfoul, rfl⟩
                    · next hmore =>
                        exact .cons hlenPos (ih (i + 1) hlenPos (by omega) (by omega))

theorem advances_fileDownload (a : Attempt) {readlen : Nat} (retryFlg : Bool)
    (hread : 0 < readlen) (hlt : offset < total) :
    Advances total offset (fileDownload a total readlen offset retryFlg) := by
  unfold fileDownload
  split
  · exact advances_failed hlt
  · split
    · exact advances_failed hlt
    · split
      · exact advances_failed hlt
      · split
        · exact advances_failed hlt
        · split
          · exact advances_failed hlt
          · exact advances_readBlocks a.blocks 0 hread hlt (Nat.le_refl _)

end Attempt

/-! ## The loop over the attempts -/

section Loop

variable {total offset : Nat} {r : List Event × Int × Nat} {rest : List Event}

/-- An attempt passes its offset on to what follows. -/
theorem Advances.truthful_append (h : Advances total offset r) :
    Truthful total offset (r.1 ++ rest) ↔ Truthful total r.2.2 rest := by
  have hsilent : Event.notify .suc ∉ r.1 := by
    intro hmem
    have hnotify : Event.notify .suc ∈ r.1.filter Event.isNotify :=
      List.mem_filter.mpr ⟨hmem, rfl⟩
    rw [h.silent] at hnotify
    exact List.not_mem_nil hnotify
  have honce : (r.1 ++ rest).filter Event.isNotify = rest.filter Event.isNotify := by
    rw [List.filter_append, h.silent, List.nil_append]
  have hmem : Event.notify .suc ∈ r.1 ++ rest ↔ Event.notify .suc ∈ rest := by
    rw [List.mem_append, or_iff_right hsilent]
  have htiles : Tiles offset ((r.1 ++ rest).filterMap Event.accepted) total ↔
      Tiles r.2.2 (rest.filterMap Event.accepted) total := by
    rw [List.filterMap_append]
    exact h.tiles.append_iff
  constructor
  · intro ht
    exact ⟨honce ▸ ht.once, hmem.symm.trans (ht.success.trans htiles)⟩
  · intro ht
    exact ⟨honce ▸ ht.once, hmem.trans (ht.success.trans htiles.symm)⟩

theorem truthful_suc : Truthful total offset [.notify .suc] ↔ offset = total :=
  ⟨fun h => h.success.mp List.mem_cons_self, fun h => ⟨rfl, fun _ => h, fun _ => List.mem_cons_self⟩⟩

theorem truthful_failed : Truthful total offset [.notify .failed] ↔ offset ≠ total := by
  constructor
  · intro h hend
    exact absurd (h.success.mpr hend) (by simp)
  · intro h
    exact ⟨rfl, fun hmem => absurd hmem (by simp), fun hend => absurd hend h⟩

theorem not_truthful_overflow : ¬ Truthful total offset [.overflow] :=
  fun h => absurd h.once (by simp [Event.isNotify])

/-- The loop tells the truth exactly if all answers on its way are fine. -/
theorem downloadLoop_truthful_iff (info : OtaInfo) (env : Nat → Attempt) {left n : Nat}
    (retryFlag : Bool) (hn : n ≤ info.retryMax.toNat) (hleft : n + left = info.retryMax.toNat + 1)
    (hlt : offset < info.totalSize) :
    Truthful info.totalSize offset (downloadLoop info env left n offset retryFlag) ↔
      ∀ e ∈ downloadLoop info env left n offset retryFlag, e.Fine := by
  induction left generalizing n offset retryFlag with
  | zero => omega
  | succ left ih =>
      have hadv := advances_fileDownload (env n) retryFlag info.recv_pos hlt
      unfold downloadLoop
      generalize fileDownload (env n) info.totalSize info.recvSize offset retryFlag = r at hadv ⊢
      dsimp only
      rw [hadv.truthful_append, List.forall_mem_append]
      split
      · next hret =>
          rw [truthful_suc]
          constructor
          · intro hend
            have hfine : ∀ e ∈ r.1, e.Fine := by
              by_contra hfoul
              exact (hadv.foul hfoul).2 hend
            exact ⟨hfine, by simp [Event.Fine]⟩
          · exact fun hfine => (hadv.fine hfine.1).mp hret
      · next hret =>
          have hfine : ∀ e ∈ r.1, e.Fine := by
            by_contra hfoul
            exact hret (hadv.foul hfoul).1
          have hmore : r.2.2 ≠ info.totalSize := fun hend => hret ((hadv.fine hfine).mpr hend)
          have hlt' : r.2.2 < info.totalSize := Nat.lt_of_le_of_ne hadv.le hmore
          rw [and_iff_right hfine]
          split
          · exact ⟨fun h => absurd h not_truthful_overflow,
              fun h => absurd (h .overflow List.mem_cons_self) id⟩
          · split
            · exact ⟨fun _ => by simp [Event.Fine], fun _ => truthful_failed.mpr hmore⟩
            · next hagain =>
                split
                · exact ⟨fun _ => by simp [Event.Fine], fun _ => truthful_failed.mpr hmore⟩
                · exact ih true (by omega) (by omega) hlt'

end Loop

/-- The user is notified once, and of a success exactly when the accepted blocks tile
the file, if and only if all answers are fine that the thread has asked for. -/
theorem otaFileDownloadThread_truthful_iff (info : OtaInfo) (env : Nat → Attempt) :
    Truthful info.totalSize 0 (otaFileDownloadThread info env) ↔
      ∀ e ∈ otaFileDownloadThread info env, e.Fine :=
  downloadLoop_truthful_iff info env false (Nat.zero_le _) (Nat.zero_add _) info.total_pos

/-- A file of five bytes in blocks of two. -/
def sampleInfo : OtaInfo where
  totalSize := 5
  recvSize := 2
  retryMax := 1
  total_pos := by decide
  total_lt := by decide
  recv_pos := by decide
  recv_lt := by decide
  retry_lt := by decide

/-- The server delivers; the callback rejects the second block. -/
def rejecting (_ : Nat) : Attempt where
  buffer := true
  session := true
  status := 200
  contentLength := 5
  blocks i := ⟨some [1, 2], 0, if i = 1 then -1 else 0⟩
  exitStatus := 0

/-- The rejected file is reported as a success. -/
theorem rejecting_not_truthful :
    ¬ Truthful sampleInfo.totalSize 0 (otaFileDownloadThread sampleInfo rejecting) := by
  intro h
  have htiles := h.success.mp (by decide)
  have haccepted : (otaFileDownloadThread sampleInfo rejecting).filterMap Event.accepted =
      [(0, 2)] := by decide
  rw [haccepted] at htiles
  exact absurd htiles.2.2 (show ¬ 2 = 5 by decide)

end EzIot.Ota
