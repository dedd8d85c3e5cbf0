import EzIot.Lib.Run
import EzIot.Timer.Routine

/-! # The timer service

The service is started with its first timer and stopped when the last one is deleted. Its
mutex is made at every start and destroyed with every stop. The thread of `timer_routine`
takes turns with the calls: it tests the flag of its loop without the mutex, waits for the
mutex, and gives it back after its pass.
-/

namespace EzIot.Timer

open Run Slots

/-! ## The service -/

inductive Mutex
  | null
  | live
  | destroyed
deriving DecidableEq

/-- Where the thread of `timer_routine` stands: before the test of its loop, or behind it
and waiting for the mutex. -/
inductive Thread
  | absent
  | test
  | entered
  | ended
deriving DecidableEq

inductive ThreadMove
  | test
  | pass
deriving DecidableEq

/-- `g_list` with the timers, `g_instance_count` and `g_status_mutex`. -/
structure Service where
  list : TimerList
  invalid : Bool
  thread : Thread
  gInstanceCount : Int
  gStatusMutex : Mutex

inductive TimerOp
  /-- `early`: where the service is started, its thread makes its first test before the flag
  is set -/
  | create (timeOut : Int) (reload : Bool) (func : Option Nat) (early alloc : Bool)
  /-- `between`: what the thread does from the unlock to the lock of `eztimer_fini` -/
  | delete (timerId : Int) (between : List ThreadMove)
  | reset (timerId : Int)
  | thread (m : ThreadMove)

def intMax : Nat := 2147483647

namespace TimerList

/-- Without any timer; the numbers go on. -/
def clear (t : TimerList) : TimerList :=
  ⟨[], t.id, fun _ h => absurd h List.not_mem_nil, List.nodup_nil⟩

/-- One pass of `timer_routine`. -/
def tick (t : TimerList) : TimerList where
  nodes := (timerRoutine t.nodes).1
  id := t.id
  fresh := by
    intro x hx
    have hid := (ids_sublist t.nodes).subset (List.mem_map_of_mem hx)
    obtain ⟨y, hy, heq⟩ := List.mem_map.mp hid
    exact heq ▸ t.fresh y hy
  distinct := t.distinct.sublist (ids_sublist t.nodes)

/-- No timer has a number below zero. -/
def onId (t : TimerList) (timerId : Int) (f : TimerList → Nat → TimerList) : TimerList :=
  if 0 ≤ timerId then f t timerId.toNat else t

end TimerList

namespace Service

def init : Service := ⟨.empty, false, .absent, 0, .null⟩

/-- Locking, unlocking and destroying the mutex; there is no result for one that is not
there any more. -/
def useMutex (s : Service) : Option Service := if s.gStatusMutex = .live then some s else none

/-- The loop of `timer_routine`: its test, and a pass between lock and unlock. -/
def move (s : Service) : ThreadMove → Option Service
  | .test =>
      some (if s.thread = .test then
        { s with thread := if s.invalid then .entered else .ended } else s)
  | .pass =>
      if s.thread = .entered then
        s.useMutex.map fun s => { s with list := s.list.tick, thread := .test }
      else some s

/-- `eztimer_init`; mutex and thread can be created. The thread is there before the flag of
its loop is set. -/
def eztimerInit (early : Bool) (s : Service) : Option Service :=
  let s := { s with gStatusMutex := .live }
  s.useMutex.map fun s =>
    let started := { s with gInstanceCount := s.gInstanceCount + 1 }
    if s.gInstanceCount > 0 then started
    else
      { started with
        list := s.list.clear
        thread := if early then .ended else .test
        invalid := true }

/-- `eztimer_fini`. Where `ezos_thread_destroy` waits for the end of the thread (`joins`),
there is no result for a thread that waits for the mutex. -/
def eztimerFini (joins : Bool) (s : Service) : Option Service :=
  s.useMutex.bind fun s =>
    let s := { s with gInstanceCount := s.gInstanceCount - 1 }
    if s.gInstanceCount > 0 then some s
    else if s.invalid ∧ s.list.nodes.length = 0 then
      if joins ∧ s.thread = .entered then none
      else
        some { s with
          invalid := false
          thread := .absent
          list := s.list.clear
          gStatusMutex := .destroyed }
    else some { s with gStatusMutex := .destroyed }

/-- `eztimer_create`. There is no result where the numbers are used up. -/
def eztimerCreate (timeOut : Int) (reload : Bool) (func : Option Nat) (early alloc : Bool)
    (s : Service) : Option (Int × Service) :=
  (if s.invalid then some s else s.eztimerInit early).bind fun s =>
    if alloc = false then some (-1, s)
    else if s.list.id = intMax then none
    else s.useMutex.map fun s =>
      let list := s.list.eztimerCreate timeOut reload func
      (list.id, { s with list := list })

/-- `eztimer_delete`. The mutex is free between the deletion and `eztimer_fini`. -/
def eztimerDelete (joins : Bool) (timerId : Int) (between : List ThreadMove) (s : Service) :
    Option (Int × Service) :=
  if s.invalid = false then some (-1, s)
  else
    s.useMutex.bind fun s =>
      let listSize := s.list.nodes.length
      let s := { s with list := s.list.onId timerId TimerList.eztimerDelete }
      if listSize = 1 then
        (between.foldlM move s).bind fun s => (s.eztimerFini joins).map fun s => (0, s)
      else some (0, s)

def eztimerReset (timerId : Int) (s : Service) : Option (Int × Service) :=
  if s.invalid = false then some (-1, s)
  else s.useMutex.map fun s => (0, { s with list := s.list.onId timerId TimerList.eztimerReset })

def run (joins : Bool) (s : Service) : TimerOp → Option (Int × Service)
  | .create timeOut reload func early alloc => s.eztimerCreate timeOut reload func early alloc
  | .delete timerId between => s.eztimerDelete joins timerId between
  | .reset timerId => s.eztimerReset timerId
  | .thread m => (s.move m).map fun s => (0, s)

/-- The thread by itself gets through a pass over the list and back before its test. -/
def Ticks (s : Service) : Prop :=
  (s.move .test).bind (move · .pass) = some { s with list := s.list.tick, thread := .test }

def live (s : Service) (timerId : Int) : Bool :=
  s.list.nodes.any fun x => decide ((x.id : Int) = timerId)

end Service

/-! ## Sequences of calls -/

/-- The service beside the numbers that it has returned. -/
structure Served where
  service : Service
  given : List Int

def Served.step (joins : Bool) (v : Served) (op : TimerOp) : Option Served :=
  (v.service.run joins op).map fun r => ⟨r.2, if 0 < r.1 then r.1 :: v.given else v.given⟩

/-- Where a thread gets to while the service runs. -/
def Thread.after (between : List ThreadMove) (t : Thread) : Thread :=
  between.foldl (fun t m =>
    match t, m with
    | .test, .test => .entered
    | .entered, .pass => .test
    | t, _ => t) t

/-- A thread that is started makes its first test when the flag is set, and there is a number
left for a timer that is created. Where there is exactly one timer, only that one is deleted,
and a thread that is waited for does not wait for the mutex. -/
def Allowed (joins : Bool) (v : Served) : TimerOp → Prop
  | .create _ _ _ early alloc =>
      (v.service.invalid = false → early = false) ∧ (alloc = true → v.service.list.id < intMax)
  | .delete timerId between =>
      v.service.list.nodes.length = 1 → v.service.live timerId = true ∧
        (joins = true → v.service.thread.after between ≠ .entered)
  | .reset _ => True
  | .thread _ => True

instance (joins : Bool) (v : Served) : (op : TimerOp) → Decidable (Allowed joins v op)
  | .create _ _ _ _ _ => inferInstanceAs (Decidable (_ ∧ _))
  | .delete _ _ => inferInstanceAs (Decidable (_ → _))
  | .reset _ => inferInstanceAs (Decidable True)
  | .thread _ => inferInstanceAs (Decidable True)

/-- What an operation may change about a timer. -/
def TimerOp.concerns (x : EztimerStruct) : TimerOp → Prop
  | .create _ _ _ _ _ => False
  | .delete timerId _ => (x.id : Int) = timerId
  | .reset timerId => (x.id : Int) = timerId
  | .thread m => m = .pass

/-- A call returns and does what it is meant for, and a service that runs is ticked. -/
structure CallSound (s : Service) (op : TimerOp) (rv : Int) (s' : Service) : Prop where
  others : ∀ x ∈ s.list.nodes, ¬ op.concerns x → x ∈ s'.list.nodes
  unknown : ∀ i between, op = .delete i between → s.live i = false → s' = s
  created : ∀ timeOut reload func early, op = .create timeOut reload func early true →
    0 < rv ∧ s'.live rv = true ∧ s'.Ticks
  ticked : s'.invalid = true → s'.Ticks

/-- The numbers are different, and no call uses a mutex that is not there or waits for ever. -/
structure ServiceSound (joins : Bool) (v : Served) : Prop where
  distinct : v.given.Nodup
  calls : ∀ op, (∃ rv s', v.service.run joins op = some (rv, s') ∧
    CallSound v.service op rv s') ↔ Allowed joins v op

/-! ## The list under the operations -/

section Lists

variable {t : TimerList} {i : Int} {x : EztimerStruct}

theorem eztimerDelete_unknown {j : Nat} (h : ∀ x ∈ t.nodes, x.id ≠ j) : t.eztimerDelete j = t := by
  have hnodes : t.nodes.eraseP (fun x => decide (x.id = j)) = t.nodes :=
    List.eraseP_of_forall_not fun x hx => by simpa using h x hx
  unfold TimerList.eztimerDelete
  cases t
  simp only [hnodes]

theorem onId_delete_unknown (h : ∀ x ∈ t.nodes, (x.id : Int) ≠ i) :
    t.onId i TimerList.eztimerDelete = t := by
  unfold TimerList.onId
  split
  · apply eztimerDelete_unknown
    intro x hx heq
    exact h x hx (by omega)
  · rfl

theorem mem_onId_delete (hx : x ∈ t.nodes) (hne : (x.id : Int) ≠ i) :
    x ∈ (t.onId i TimerList.eztimerDelete).nodes := by
  unfold TimerList.onId
  split
  · have hnot : x.id ≠ i.toNat := by omega
    have hother : ¬ decide (x.id = i.toNat) = true := by simpa using hnot
    exact (List.mem_eraseP_of_neg (p := fun x => decide (x.id = i.toNat)) hother).mpr hx
  · exact hx

theorem mem_onId_reset (hx : x ∈ t.nodes) (hne : (x.id : Int) ≠ i) :
    x ∈ (t.onId i TimerList.eztimerReset).nodes := by
  unfold TimerList.onId
  split
  · have hnot : x.id ≠ i.toNat := by omega
    exact mem_modifyFirst_of_neg hx (by simpa using hnot)
  · exact hx

theorem onId_id {f : TimerList → Nat → TimerList} (hf : ∀ t j, (f t j).id = t.id) :
    (t.onId i f).id = t.id := by
  unfold TimerList.onId
  split
  · exact hf t _
  · rfl

theorem length_onId_delete (hx : x ∈ t.nodes) (hid : (x.id : Int) = i) :
    (t.onId i TimerList.eztimerDelete).nodes.length = t.nodes.length - 1 := by
  unfold TimerList.onId
  rw [if_pos (by omega)]
  have hself : x.id = i.toNat := by omega
  exact List.length_eraseP_of_mem hx (by simpa using hself)

end Lists

theorem tick_of_nil {t : TimerList} (h : t.nodes = []) : t.tick = t := by
  cases t
  simp only at h
  subst h
  rfl

/-! ## The states of the service -/

namespace Service

/-- The first instance runs, and so does its thread. -/
structure Running (s : Service) : Prop where
  invalid : s.invalid = true
  thread : s.thread = .test ∨ s.thread = .entered
  count : s.gInstanceCount = 1
  mutex : s.gStatusMutex = .live

/-- There is no instance, no thread and no timer. -/
structure Stopped (s : Service) : Prop where
  invalid : s.invalid = false
  thread : s.thread = .absent
  count : s.gInstanceCount = 0
  nodes : s.list.nodes = []

structure Inv (s : Service) : Prop where
  state : s.Running ∨ s.Stopped
  numbers : s.list.id ≤ intMax

section Calls

variable {s s' : Service} {i rv : Int} {joins : Bool} {between : List ThreadMove}

theorem Running.withList (h : s.Running) (l : TimerList) : { s with list := l }.Running :=
  ⟨h.invalid, h.thread, h.count, h.mutex⟩

theorem Running.withThread (h : s.Running) {t : Thread} (ht : t = .test ∨ t = .entered) :
    { s with thread := t }.Running := ⟨h.invalid, ht, h.count, h.mutex⟩

@[simp] theorem useMutex_live (h : s.gStatusMutex = .live) : s.useMutex = some s := if_pos h

/-! ### The thread -/

theorem Running.ticks (h : s.Running) : s.Ticks := by
  obtain ⟨list, invalid, thread, count, mutex⟩ := s
  obtain ⟨hinvalid, hthread, -, hmutex⟩ := h
  simp only at hinvalid hthread hmutex
  subst hinvalid hmutex
  rcases hthread with rfl | rfl <;> rfl

/-- Behind a test that came too early no move of the thread does anything. -/
theorem move_ended (h : s.thread = .ended) (m : ThreadMove) : s.move m = some s := by
  cases m <;> simp [move, h]

theorem not_ticks_of_ended (h : s.thread = .ended) : ¬ s.Ticks := by
  intro hticks
  unfold Ticks at hticks
  rw [move_ended h, Option.bind_some, move_ended h] at hticks
  have hthread := congrArg Service.thread (Option.some.inj hticks)
  rw [h] at hthread
  cases hthread

theorem Running.move (h : s.Running) (m : ThreadMove) : ∃ l t, s.move m =
    some { s with list := l, thread := t } ∧ (t = .test ∨ t = .entered) ∧
      t = s.thread.after [m] ∧ (l = s.list ∨ m = .pass ∧ l = s.list.tick) := by
  obtain ⟨list, invalid, thread, count, mutex⟩ := s
  obtain ⟨hinvalid, hthread, -, hmutex⟩ := h
  simp only at hinvalid hthread hmutex
  subst hinvalid hmutex
  cases m with
  | test =>
      rcases hthread with rfl | rfl
      · exact ⟨list, .entered, rfl, .inr rfl, rfl, .inl rfl⟩
      · exact ⟨list, .entered, rfl, .inr rfl, rfl, .inl rfl⟩
  | pass =>
      rcases hthread with rfl | rfl
      · exact ⟨list, .test, rfl, .inl rfl, rfl, .inl rfl⟩
      · exact ⟨list.tick, .test, rfl, .inl rfl, rfl, .inr ⟨rfl, rfl⟩⟩

theorem Running.moves (h : s.Running) (between : List ThreadMove) :
    ∃ l t, between.foldlM Service.move s = some { s with list := l, thread := t } ∧
      (t = .test ∨ t = .entered) ∧ t = s.thread.after between ∧
      (s.list.nodes = [] → l = s.list) := by
  induction between generalizing s with
  | nil => exact ⟨s.list, s.thread, rfl, h.thread, rfl, fun _ => rfl⟩
  | cons m between ih =>
      obtain ⟨l, t, hmove, hthread, ht, hlist⟩ := h.move m
      obtain ⟨l', t', hmoves, hthread', ht', hlist'⟩ := ih ((h.withThread hthread).withList l)
      have hnil : s.list.nodes = [] → l = s.list := by
        intro hnodes
        rcases hlist with rfl | ⟨-, rfl⟩
        · rfl
        · exact tick_of_nil hnodes
      refine ⟨l', t', ?_, hthread', ?_, fun hnodes => ?_⟩
      · rw [foldlM_cons_eq_some]
        exact ⟨_, hmove, hmoves⟩
      · rw [ht', ht]
        rfl
      · have hl := hnil hnodes
        exact (hlist' (hl ▸ hnodes)).trans hl

/-! ### The calls -/

theorem eztimerInit_stopped (h : s.Stopped) (early : Bool) : s.eztimerInit early =
    some ⟨s.list.clear, true, if early then .ended else .test, 1, .live⟩ := by
  simp [eztimerInit, useMutex, h.count]

/-- Without a timer the service stops, where the end of the thread can be waited for. -/
theorem eztimerFini_empty (h : s.Running) (hnodes : s.list.nodes = []) :
    s.eztimerFini joins = if joins = true ∧ s.thread = .entered then none
      else some ⟨s.list.clear, false, .absent, 0, .destroyed⟩ := by
  simp [eztimerFini, h.mutex, h.invalid, h.count, hnodes]

theorem destroyed_of_fini (hcount : s.gInstanceCount = 1) (hfini : s.eztimerFini joins = some s') :
    s'.gStatusMutex = .destroyed := by
  obtain ⟨s₁, hs₁, hrest⟩ := Option.bind_eq_some_iff.mp hfini
  obtain ⟨-, hsame⟩ := Option.ite_none_right_eq_some.mp hs₁
  cases hsame
  simp only [hcount] at hrest
  split at hrest
  · rename_i hpos
    exact absurd hpos (by decide)
  · split at hrest
    · split at hrest
      · cases hrest
      · cases hrest
        rfl
    · cases hrest
      rfl

theorem eztimerCreate_running {timeOut : Int} {reload : Bool} {func : Option Nat} {early : Bool}
    (h : s.Running) (hid : s.list.id ≠ intMax) :
    s.eztimerCreate timeOut reload func early true =
      some (((s.list.id + 1 : Nat) : Int),
        { s with list := s.list.eztimerCreate timeOut reload func }) := by
  simp [eztimerCreate, h.invalid, hid, useMutex_live h.mutex, TimerList.eztimerCreate]

theorem eztimerDelete_running (h : s.Running) :
    s.eztimerDelete joins i between =
      if s.list.nodes.length = 1 then
        (between.foldlM Service.move
          { s with list := s.list.onId i TimerList.eztimerDelete }).bind
            fun s => (s.eztimerFini joins).map fun s => (0, s)
      else some (0, { s with list := s.list.onId i TimerList.eztimerDelete }) := by
  simp [eztimerDelete, h.invalid, useMutex_live h.mutex]

theorem eztimerReset_running (h : s.Running) :
    s.eztimerReset i = some (0, { s with list := s.list.onId i TimerList.eztimerReset }) := by
  simp [eztimerReset, h.invalid, useMutex_live h.mutex]

/-- The service as `eztimer_init` leaves it. -/
def started (early : Bool) (l : TimerList) : Service :=
  ⟨l, true, if early then .ended else .test, 1, .live⟩

theorem eztimerCreate_stopped {timeOut : Int} {reload : Bool} {func : Option Nat}
    {early alloc : Bool} (h : s.Stopped) : s.eztimerCreate timeOut reload func early alloc =
      (started early s.list.clear).eztimerCreate timeOut reload func early alloc := by
  simp [eztimerCreate, started, h.invalid, eztimerInit_stopped h]

theorem running_started (l : TimerList) : (started false l).Running :=
  ⟨rfl, .inl rfl, rfl, rfl⟩

/-- The state in which a timer is created: the service was started if it was stopped. -/
theorem Inv.started {early : Bool} (h : s.Inv) (hearly : s.invalid = false → early = false) :
    ∃ r : Service, r.Running ∧ r.list.nodes = s.list.nodes ∧ r.list.id = s.list.id ∧
      ∀ timeOut reload func alloc, s.eztimerCreate timeOut reload func early alloc =
        r.eztimerCreate timeOut reload func early alloc := by
  rcases h.state with hrun | hstop
  · exact ⟨s, hrun, rfl, rfl, fun _ _ _ _ => rfl⟩
  · have hlate := hearly hstop.invalid
    subst hlate
    exact ⟨Service.started false s.list.clear, running_started _, hstop.nodes.symm, rfl,
      fun _ _ _ _ => eztimerCreate_stopped hstop⟩

/-- What a call leaves that returns `rv`: numbers are given upwards. -/
structure Returned (s : Service) (op : TimerOp) (rv : Int) (s' : Service) : Prop where
  inv : s'.Inv
  mono : s.list.id ≤ s'.list.id
  fresh : 0 < rv → rv = s'.list.id ∧ s.list.id < s'.list.id
  sound : CallSound s op rv s'

theorem Inv.ticked (h : s.Inv) (hinvalid : s.invalid = true) : s.Ticks := by
  rcases h.state with hrun | hstop
  · exact hrun.ticks
  · rw [hstop.invalid] at hinvalid
    cases hinvalid

theorem returned_create {timeOut : Int} {reload : Bool} {func : Option Nat} {early alloc : Bool}
    (h : s.Inv) (hearly : s.invalid = false → early = false)
    (hid : alloc = true → s.list.id < intMax) :
    ∃ rv s', s.run joins (.create timeOut reload func early alloc) = some (rv, s') ∧
      s.Returned (.create timeOut reload func early alloc) rv s' := by
  obtain ⟨r, hrun, hnodes, hnumber, hcreate⟩ := h.started hearly
  cases alloc with
  | false =>
      have hnone : r.eztimerCreate timeOut reload func early false = some (-1, r) := by
        simp [Service.eztimerCreate, hrun.invalid]
      refine ⟨-1, r, (hcreate _ _ _ _).trans hnone, ?_⟩
      constructor
      · exact ⟨.inl hrun, hnumber.trans_le h.numbers⟩
      · exact hnumber.ge
      · intro hpos
        omega
      · constructor
        · intro x hx _
          exact hnodes ▸ hx
        · intro i _ hop
          cases hop
        · intro _ _ _ _ hop
          cases hop
        · exact fun _ => hrun.ticks
  | true =>
      have hlt := hid rfl
      have hnew : r.list.id ≠ intMax := by omega
      refine ⟨_, _, (hcreate _ _ _ _).trans (eztimerCreate_running hrun hnew), ?_⟩
      have hlast : (r.list.eztimerCreate timeOut reload func).id = s.list.id + 1 := by
        rw [← hnumber]
        rfl
      constructor
      · refine ⟨.inl (hrun.withList _), ?_⟩
        show (r.list.eztimerCreate timeOut reload func).id ≤ intMax
        omega
      · show s.list.id ≤ (r.list.eztimerCreate timeOut reload func).id
        omega
      · intro _
        refine ⟨rfl, ?_⟩
        show s.list.id < (r.list.eztimerCreate timeOut reload func).id
        omega
      · constructor
        · intro x hx _
          exact List.mem_append_left _ (hnodes ▸ hx)
        · intro i _ hop
          cases hop
        · intro _ _ _ _ _
          refine ⟨by omega, ?_, (hrun.withList _).ticks⟩
          simp [Service.live, TimerList.eztimerCreate]
        · exact fun _ => (hrun.withList _).ticks

theorem returned_same {op : TimerOp} (h : s.Inv) (hrv : rv ≤ 0)
    (hop : ∀ timeOut reload func early, op ≠ .create timeOut reload func early true) :
    s.Returned op rv s := by
  constructor
  · exact h
  · exact Nat.le_refl _
  · intro hpos
    omega
  · constructor
    · intro x hx _
      exact hx
    · intro _ _ _ _
      rfl
    · intro timeOut reload func early heq
      exact absurd heq (hop timeOut reload func early)
    · exact h.ticked

/-- A call that leaves the service running with a list of the same numbers. -/
theorem returned_list {op : TimerOp} {l : TimerList} {t : Thread} (h : s.Inv) (hrun : s.Running)
    (ht : t = .test ∨ t = .entered) (hid : l.id = s.list.id)
    (hothers : ∀ x ∈ s.list.nodes, ¬ op.concerns x → x ∈ l.nodes)
    (hunknown : ∀ i between, op = .delete i between → s.live i = false →
      l = s.list ∧ t = s.thread)
    (hop : ∀ timeOut reload func early, op ≠ .create timeOut reload func early true) :
    s.Returned op 0 { s with list := l, thread := t } := by
  have hrun' : { s with list := l, thread := t }.Running := (hrun.withThread ht).withList l
  constructor
  · refine ⟨.inl hrun', ?_⟩
    show l.id ≤ intMax
    exact hid.trans_le h.numbers
  · show s.list.id ≤ l.id
    omega
  · intro hpos
    omega
  · constructor
    · exact hothers
    · intro i between hdelete hlive
      obtain ⟨hl, hthread⟩ := hunknown i between hdelete hlive
      rw [hl, hthread]
    · intro timeOut reload func early heq
      exact absurd heq (hop timeOut reload func early)
    · exact fun _ => hrun'.ticks

theorem exists_of_live (h : s.live i = true) : ∃ x ∈ s.list.nodes, (x.id : Int) = i := by
  obtain ⟨x, hx, hdecide⟩ := List.any_eq_true.mp h
  exact ⟨x, hx, by simpa using hdecide⟩

theorem live_false (h : s.live i = false) : ∀ x ∈ s.list.nodes, (x.id : Int) ≠ i := by
  intro x hx heq
  have hnone := List.any_eq_false.mp h x hx
  simp [heq] at hnone

/-- The deletion of the only timer, up to `eztimer_fini`: the list is empty, whatever the
thread does. -/
theorem delete_last (hrun : s.Running) (hone : s.list.nodes.length = 1)
    (hlive : s.live i = true) : s.eztimerDelete joins i between =
      if joins = true ∧ s.thread.after between = .entered then none
      else some (0, ⟨(s.list.onId i TimerList.eztimerDelete).clear, false, .absent, 0,
        .destroyed⟩) := by
  obtain ⟨x, hx, hid⟩ := exists_of_live hlive
  have hempty : (s.list.onId i TimerList.eztimerDelete).nodes = [] := by
    rw [← List.length_eq_zero_iff, length_onId_delete hx hid, hone]
  obtain ⟨l, t, hmoves, hthread, ht, hlist⟩ :=
    (hrun.withList (s.list.onId i TimerList.eztimerDelete)).moves between
  have hl := hlist hempty
  subst hl
  have hrun' := (hrun.withThread hthread).withList (s.list.onId i TimerList.eztimerDelete)
  rw [eztimerDelete_running hrun, if_pos hone, hmoves, Option.bind_some,
    eztimerFini_empty hrun' hempty, ← ht]
  split <;> rfl

theorem returned_delete (h : s.Inv) (hlast : s.list.nodes.length = 1 → s.live i = true ∧
      (joins = true → s.thread.after between ≠ .entered)) :
    ∃ rv s', s.run joins (.delete i between) = some (rv, s') ∧
      s.Returned (.delete i between) rv s' := by
  rcases h.state with hrun | hstop
  · have hnumber : (s.list.onId i TimerList.eztimerDelete).id = s.list.id :=
      onId_id fun _ _ => rfl
    by_cases hone : s.list.nodes.length = 1
    · -- the only timer is the one that is deleted, and the service stops
      obtain ⟨hlive, hfree⟩ := hlast hone
      have hdelete : s.eztimerDelete joins i between = _ := delete_last hrun hone hlive
      rw [if_neg fun hwaits => hfree hwaits.1 hwaits.2] at hdelete
      refine ⟨_, _, hdelete, ?_⟩
      constructor
      · exact ⟨.inr ⟨rfl, rfl, rfl, rfl⟩, hnumber.trans_le h.numbers⟩
      · exact hnumber.ge
      · intro hpos
        omega
      · constructor
        · intro y hy hother
          obtain ⟨x, hx, hid⟩ := exists_of_live hlive
          obtain ⟨z, hz⟩ := List.length_eq_one_iff.mp hone
          rw [hz, List.mem_singleton] at hx hy
          subst hx hy
          exact absurd hid hother
        · intro j _ hop hdead
          cases hop
          rw [hlive] at hdead
          cases hdead
        · intro _ _ _ _ hop
          cases hop
        · exact fun hinvalid => absurd hinvalid Bool.false_ne_true
    · have hdelete : s.eztimerDelete joins i between = _ := eztimerDelete_running hrun
      rw [if_neg hone] at hdelete
      refine ⟨_, _, hdelete, returned_list h hrun hrun.thread hnumber ?_ ?_ ?_⟩
      · intro x hx hother
        exact mem_onId_delete hx hother
      · intro j _ hop hdead
        cases hop
        exact ⟨onId_delete_unknown (live_false hdead), rfl⟩
      · intro _ _ _ _ hop
        cases hop
  · have hdelete : s.run joins (.delete i between) = some (-1, s) := if_pos hstop.invalid
    refine ⟨-1, s, hdelete, returned_same h (by omega) ?_⟩
    intro _ _ _ _ hop
    cases hop

theorem returned_reset (h : s.Inv) :
    ∃ rv s', s.run joins (.reset i) = some (rv, s') ∧ s.Returned (.reset i) rv s' := by
  rcases h.state with hrun | hstop
  · refine ⟨_, _, eztimerReset_running hrun,
      returned_list h hrun hrun.thread (onId_id fun _ _ => rfl) ?_ ?_ ?_⟩
    · intro x hx hother
      exact mem_onId_reset hx hother
    · intro j _ hop
      cases hop
    · intro _ _ _ _ hop
      cases hop
  · have hreset : s.run joins (.reset i) = some (-1, s) := if_pos hstop.invalid
    refine ⟨-1, s, hreset, returned_same h (by omega) ?_⟩
    intro _ _ _ _ hop
    cases hop

theorem returned_thread (h : s.Inv) (m : ThreadMove) :
    ∃ rv s', s.run joins (.thread m) = some (rv, s') ∧ s.Returned (.thread m) rv s' := by
  rcases h.state with hrun | hstop
  · obtain ⟨l, t, hmove, hthread, -, hlist⟩ := hrun.move m
    have hrunm : s.run joins (.thread m) = some (0, { s with list := l, thread := t }) := by
      simp [run, hmove]
    refine ⟨_, _, hrunm, returned_list h hrun hthread ?_ ?_ ?_ ?_⟩
    · rcases hlist with rfl | ⟨-, rfl⟩ <;> rfl
    · intro x hx hother
      rcases hlist with rfl | ⟨hpass, -⟩
      · exact hx
      · exact absurd hpass hother
    · intro j _ hop
      cases hop
    · intro _ _ _ _ hop
      cases hop
  · have hmove : s.run joins (.thread m) = some (0, s) := by
      cases m <;> simp [run, Service.move, hstop.thread]
    refine ⟨0, s, hmove, returned_same h (Int.le_refl 0) ?_⟩
    intro _ _ _ _ hop
    cases hop

end Calls

end Service

/-! ## Runs -/

section Runs

variable {joins : Bool} {v v' : Served} {op : TimerOp}

theorem returned_of_allowed (h : v.service.Inv) (hok : Allowed joins v op) :
    ∃ rv s', v.service.run joins op = some (rv, s') ∧ v.service.Returned op rv s' := by
  cases op with
  | create => exact Service.returned_create h hok.1 hok.2
  | delete => exact Service.returned_delete h hok
  | reset => exact Service.returned_reset h
  | thread m => exact Service.returned_thread h m

/-- A service that is started with a thread that tests too early is never ticked. -/
theorem early_of_sound {timeOut : Int} {reload : Bool} {func : Option Nat} {early alloc : Bool}
    {rv : Int} {s s' : Service} (h : s.Inv)
    (hrun : s.eztimerCreate timeOut reload func early alloc = some (rv, s'))
    (hsound : CallSound s (.create timeOut reload func early alloc) rv s')
    (hinvalid : s.invalid = false) : early = false := by
  by_contra hearly
  rw [Bool.not_eq_false] at hearly
  subst hearly
  rcases h.state with hr | hstop
  · rw [hr.invalid] at hinvalid
    cases hinvalid
  · rw [Service.eztimerCreate_stopped hstop] at hrun
    have hgone : s'.thread = .ended ∧ s'.invalid = true := by
      simp only [Service.eztimerCreate, Service.started, if_true, Option.bind_some] at hrun
      split at hrun
      · cases hrun
        exact ⟨rfl, rfl⟩
      · split at hrun
        · cases hrun
        · rw [Service.useMutex_live rfl] at hrun
          cases hrun
          exact ⟨rfl, rfl⟩
    exact Service.not_ticks_of_ended hgone.1 (hsound.ticked hgone.2)

/-- Where a call is not allowed, the thread is gone, the numbers are used up, the mutex is
destroyed under the last timer or two threads wait for each other. -/
theorem allowed_of_sound (h : v.service.Inv) {rv : Int} {s' : Service}
    (hrun : v.service.run joins op = some (rv, s')) (hsound : CallSound v.service op rv s') :
    Allowed joins v op := by
  cases op with
  | create timeOut reload func early alloc =>
      have hearly := early_of_sound h hrun hsound
      refine ⟨hearly, fun halloc => ?_⟩
      by_contra hge
      obtain ⟨r, hr, -, hnumber, hcreate⟩ := h.started hearly
      have hnumbers := h.numbers
      have hmax : r.list.id = intMax := by omega
      have hnone : r.eztimerCreate timeOut reload func early alloc = none := by
        simp [Service.eztimerCreate, hr.invalid, halloc, hmax]
      have hcalled := hcreate timeOut reload func alloc
      rw [hnone] at hcalled
      have hsome : v.service.eztimerCreate timeOut reload func early alloc = some (rv, s') := hrun
      rw [hcalled] at hsome
      cases hsome
  | delete i between =>
      intro hone
      rcases h.state with hr | hstop
      · have hsome : v.service.eztimerDelete joins i between = some (rv, s') := hrun
        have hlive : v.service.live i = true := by
          by_contra hdead
          have hunknown := hsound.unknown i between rfl (by simpa using hdead)
          obtain ⟨l, t, hmoves, -, -, -⟩ :=
            (hr.withList (v.service.list.onId i TimerList.eztimerDelete)).moves between
          rw [Service.eztimerDelete_running hr, if_pos hone, hmoves, Option.bind_some,
            Option.map_eq_some_iff] at hsome
          obtain ⟨s₁, hfini, hs₁⟩ := hsome
          have hmutex := Service.destroyed_of_fini (by exact hr.count) hfini
          cases hs₁
          rw [hunknown, hr.mutex] at hmutex
          cases hmutex
        refine ⟨hlive, fun hjoins hwaits => ?_⟩
        rw [Service.delete_last hr hone hlive, if_pos ⟨hjoins, hwaits⟩] at hsome
        cases hsome
      · rw [hstop.nodes] at hone
        cases hone
  | reset => trivial
  | thread => trivial

/-- The service is in one of its two states and the numbers returned are different ones up
to the last. -/
structure Served.Inv (v : Served) : Prop where
  service : v.service.Inv
  given : ∀ i ∈ v.given, i ≤ v.service.list.id
  distinct : v.given.Nodup

theorem Served.Inv.init : Served.Inv ⟨Service.init, []⟩ := by
  constructor
  · exact ⟨.inr ⟨rfl, rfl, rfl, rfl⟩, Nat.zero_le _⟩
  · intro i hi
    cases hi
  · exact .nil

theorem Served.Inv.step (h : v.Inv) (hok : Allowed joins v op)
    (hstep : v.step joins op = some v') :
    v'.Inv := by
  obtain ⟨rv, s', hrun, hreturned⟩ := returned_of_allowed h.service hok
  unfold Served.step at hstep
  rw [hrun] at hstep
  cases hstep
  have hold : ∀ i ∈ v.given, i ≤ (s'.list.id : Int) := by
    intro i hi
    have hbound := h.given i hi
    have hmono := hreturned.mono
    omega
  by_cases hpos : 0 < rv
  · obtain ⟨hlast, hless⟩ := hreturned.fresh hpos
    constructor
    · exact hreturned.inv
    · show ∀ i ∈ if 0 < rv then rv :: v.given else v.given, i ≤ (s'.list.id : Int)
      rw [if_pos hpos, List.forall_mem_cons]
      exact ⟨Int.le_of_eq hlast, hold⟩
    · show (if 0 < rv then rv :: v.given else v.given).Nodup
      rw [if_pos hpos, List.nodup_cons]
      refine ⟨?_, h.distinct⟩
      intro hmem
      have hbound := h.given rv hmem
      omega
  · constructor
    · exact hreturned.inv
    · show ∀ i ∈ if 0 < rv then rv :: v.given else v.given, i ≤ (s'.list.id : Int)
      rw [if_neg hpos]
      exact hold
    · show (if 0 < rv then rv :: v.given else v.given).Nodup
      rw [if_neg hpos]
      exact h.distinct

end Runs

/-- A timer expires, one is deleted and stops the service, and the next starts it again. -/
def sampleOps : List TimerOp :=
  [.create 100 false none false true, .create 300 true none false true, .delete 7 [],
    .thread .test, .thread .pass, .thread .test, .thread .pass, .delete 2 [.test, .pass],
    .create 200 true (some 4) false true]

/-- The service with one timer of three ticks. -/
def oneTimer : Served where
  service := ⟨TimerList.empty.eztimerCreate 300 true none, true, .test, 1, .live⟩
  given := [1]

/-- A thread that runs before its flag is set is gone, and the timer that was created is
never counted down. -/
theorem early_thread_never_ticks : ∃ s', Service.init.run true (.create 300 true none true true) =
    some (1, s') ∧ s'.live 1 = true ∧
      ∀ moves : List ThreadMove, moves.foldlM Service.move s' = some s' := by
  refine ⟨_, rfl, rfl, fun moves => ?_⟩
  induction moves with
  | nil => rfl
  | cons m moves ih => rwa [List.foldlM_cons, Service.move_ended rfl, Option.bind_eq_bind,
      Option.bind_some]

/-- The thread that waits for the mutex is waited for by the call that holds it. -/
theorem deleted_under_entered : oneTimer.service.run true (.delete 1 [.test]) = none := rfl

end EzIot.Timer
