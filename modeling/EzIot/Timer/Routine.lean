import Mathlib.Data.List.Nodup
import Mathlib.Logic.Function.Iterate
import Mathlib.Tactic.Common
import EzIot.Lib.Slots

/-! # Software timers

A thread looks at the list of timers every 100 ms. A timer whose count has come down to
zero has expired: it is deleted, or loaded again.
-/

namespace EzIot.Timer

open Slots

/-! ## The list of timers -/

structure EztimerStruct where
  id : Nat
  reload : Bool
  timeOut : Int
  countDown : Int
  func : Option Nat
deriving DecidableEq

def msec : Int := 100

/-- `time_out / 100`. -/
def EztimerStruct.period (x : EztimerStruct) : Int := x.timeOut.tdiv msec

/-- `g_list`, and the number that the last timer was given. -/
structure TimerList where
  nodes : List EztimerStruct
  id : Nat
  fresh : ∀ x ∈ nodes, x.id ≤ id
  distinct : (nodes.map EztimerStruct.id).Nodup

namespace TimerList

def empty : TimerList := ⟨[], 0, fun _ h => absurd h List.not_mem_nil, .nil⟩

def eztimerCreate (t : TimerList) (timeOut : Int) (reload : Bool) (func : Option Nat) :
    TimerList where
  nodes := t.nodes ++ [⟨t.id + 1, reload, timeOut, timeOut.tdiv msec, func⟩]
  id := t.id + 1
  fresh := by
    intro x hx
    rcases List.mem_append.mp hx with hold | hnew
    · exact Nat.le_succ_of_le (t.fresh x hold)
    · rw [List.mem_singleton.mp hnew]
  distinct := by
    rw [List.map_append, List.map_singleton, List.nodup_append]
    refine ⟨t.distinct, List.nodup_singleton _, fun i hi j hj heq => ?_⟩
    obtain ⟨x, hx, rfl⟩ := List.mem_map.mp hi
    rw [List.mem_singleton.mp hj] at heq
    have hlast : x.id = t.id + 1 := heq
    exact absurd (t.fresh x hx) (by omega)

def eztimerDelete (t : TimerList) (timerId : Nat) : TimerList where
  nodes := t.nodes.eraseP fun x => decide (x.id = timerId)
  id := t.id
  fresh := fun x hx => t.fresh x (List.mem_of_mem_eraseP hx)
  distinct := t.distinct.sublist (List.eraseP_sublist.map EztimerStruct.id)

def modify (t : TimerList) (timerId : Nat) (f : EztimerStruct → EztimerStruct)
    (hf : ∀ x, (f x).id = x.id) : TimerList where
  nodes := modifyFirst (fun x => decide (x.id = timerId)) f t.nodes
  id := t.id
  fresh := forall_mem_modifyFirst (P := fun x => x.id ≤ t.id) t.fresh
    fun x hx => le_of_eq_of_le (hf x) hx
  distinct := by
    rw [map_modifyFirst hf]
    exact t.distinct

def eztimerReset (t : TimerList) (timerId : Nat) : TimerList :=
  t.modify timerId (fun x => { x with countDown := x.timeOut.tdiv msec }) fun _ => rfl

/-- `eztimer_change_period`. The time-out is overwritten before the difference to the old
one is taken, which is therefore nothing. -/
def eztimerChangePeriod (t : TimerList) (timerId : Nat) (newTimeOut : Int) : TimerList :=
  t.modify timerId (fun x =>
    { x with
      timeOut := newTimeOut
      countDown :=
        if x.countDown ≥ newTimeOut.tdiv msec then newTimeOut.tdiv msec
        else x.countDown + (newTimeOut - newTimeOut).tdiv msec }) fun _ => rfl

end TimerList

/-! ## Ticks -/

/-- One pass of `timer_routine` over the list: what is left of it, and the timers that
expired. Behind a timer that is deleted the pass ends. -/
def timerRoutine : List EztimerStruct → List EztimerStruct × List EztimerStruct
  | [] => ([], [])
  | node :: l =>
      if node.countDown = 0 ∧ node.reload = false then (l, [node])
      else
        let countDown := if node.countDown = 0 then node.period else node.countDown
        let r := timerRoutine l
        ({ node with countDown := if 0 ≤ countDown then countDown - 1 else countDown } :: r.1,
          if node.countDown = 0 then node :: r.2 else r.2)

def ticks (l : List EztimerStruct) : Nat → List EztimerStruct
  | 0 => l
  | n + 1 => (timerRoutine (ticks l n)).1

def expired (l : List EztimerStruct) (n : Nat) : List EztimerStruct := (timerRoutine (ticks l n)).2

/-! ## What is meant -/

/-- The tick on which a timer is to fire first. -/
def EztimerStruct.first (x : EztimerStruct) : Nat := x.countDown.toNat

/-- The ticks from there to the next, at least one. -/
def EztimerStruct.every (x : EztimerStruct) : Nat := if x.period ≤ 0 then 1 else x.period.toNat

/-- The ticks on which a timer is to fire: a one-shot timer once. -/
def EztimerStruct.due (x : EztimerStruct) (n : Nat) : Prop :=
  if x.reload then x.first ≤ n ∧ (n - x.first) % x.every = 0 else n = x.first

/-- A live timer one tick later. -/
def EztimerStruct.decremented (x : EztimerStruct) : EztimerStruct :=
  { x with countDown := (if x.countDown = 0 then x.period else x.countDown) - 1 }

/-- On the tick after `n` others, the timers of the list fire that are due, and every
timer that stays in the list is decremented. -/
structure Exact (l : List EztimerStruct) (n : Nat) : Prop where
  fires : ∀ x ∈ l, (∃ y ∈ expired l n, y.id = x.id) ↔ x.due n
  decrements : ∀ y ∈ ticks l n, (y.countDown = 0 → y.reload = true) →
    y.decremented ∈ ticks l (n + 1)

/-- No timer is below zero or loaded with zero, and behind a one-shot timer there are only
one-shot timers that expire before it. -/
structure Undisturbed (l : List EztimerStruct) : Prop where
  nonneg : ∀ x ∈ l, 0 ≤ x.countDown
  periods : ∀ x ∈ l, x.reload = true → 1 ≤ x.period
  order : l.Pairwise fun x y =>
    x.reload = false → y.reload = false ∧ y.countDown < x.countDown

/-! ## A timer by itself -/

/-- A timer one tick later, if it is still there. -/
def EztimerStruct.next (x : EztimerStruct) : Option EztimerStruct :=
  if x.countDown = 0 ∧ x.reload = false then none
  else
    let countDown := if x.countDown = 0 then x.period else x.countDown
    some { x with countDown := if 0 ≤ countDown then countDown - 1 else countDown }

/-- A timer after `n` ticks. -/
def EztimerStruct.age (x : EztimerStruct) : Nat → Option EztimerStruct
  | 0 => some x
  | n + 1 => (x.age n).bind EztimerStruct.next

section Age

variable {x y z : EztimerStruct} {n : Nat}

theorem age_succ (x : EztimerStruct) (n : Nat) : x.age (n + 1) = x.next.bind fun y => y.age n := by
  induction n with
  | zero => exact (Option.bind_fun_some x.next).symm
  | succ n ih =>
      rw [EztimerStruct.age, ih, Option.bind_assoc]
      rfl

theorem next_eq_some (h : x.next = some z) : ∃ c,
    z = { x with countDown := c } ∧ (x.countDown = 0 → x.reload = true) ∧
      c = if 0 ≤ (if x.countDown = 0 then x.period else x.countDown) then
        (if x.countDown = 0 then x.period else x.countDown) - 1
      else if x.countDown = 0 then x.period else x.countDown := by
  unfold EztimerStruct.next at h
  split at h
  · cases h
  next hlive =>
    cases h
    refine ⟨_, rfl, fun hzero => ?_, rfl⟩
    rw [← Bool.not_eq_false]
    exact fun hone => hlive ⟨hzero, hone⟩

theorem next_eq_none (h : x.next = none) : x.countDown = 0 ∧ x.reload = false := by
  unfold EztimerStruct.next at h
  split at h
  next hexpired => exact hexpired
  next => cases h

theorem age_neg (h : x.countDown < 0) (n : Nat) : x.age n = some x := by
  induction n with
  | zero => rfl
  | succ n ih =>
      have hne : x.countDown ≠ 0 := by omega
      have hnot : ¬ 0 ≤ x.countDown := by omega
      rw [EztimerStruct.age, ih, Option.bind_some]
      simp [EztimerStruct.next, hne, hnot]

/-- Until its count is down, a timer is only decremented. -/
theorem age_le (hn : (n : Int) ≤ x.countDown) :
    x.age n = some { x with countDown := x.countDown - n } := by
  induction n with
  | zero => simp [EztimerStruct.age]
  | succ n ih =>
      have hpos : x.countDown - n ≠ 0 := by omega
      have hnonneg : 0 ≤ x.countDown - n := by omega
      have hcount : x.countDown - n - 1 = x.countDown - (n + 1 : Nat) := by omega
      rw [EztimerStruct.age, ih (by omega), Option.bind_some]
      simp only [EztimerStruct.next, hpos, false_and, if_false, hnonneg, if_true, hcount]

theorem age_static (h : x.age n = some y) :
    y.id = x.id ∧ y.reload = x.reload ∧ y.timeOut = x.timeOut := by
  induction n generalizing y with
  | zero =>
      cases h
      exact ⟨rfl, rfl, rfl⟩
  | succ n ih =>
      obtain ⟨z, hz, hnext⟩ := Option.bind_eq_some_iff.mp h
      obtain ⟨c, hy, -, -⟩ := next_eq_some hnext
      obtain ⟨hid, hreload, htimeOut⟩ := ih hz
      rw [hy]
      exact ⟨hid, hreload, htimeOut⟩

theorem age_none (h : x.age n = none) :
    x.reload = false ∧ x.countDown < n := by
  have hlate : x.countDown < n := by
    by_contra hle
    rw [age_le (by omega)] at h
    cases h
  refine ⟨?_, hlate⟩
  induction n with
  | zero => cases h
  | succ n ih =>
      cases hage : x.age n with
      | none =>
          refine ih hage ?_
          by_contra hle
          rw [age_le (by omega)] at hage
          cases hage
      | some y =>
          rw [EztimerStruct.age, hage, Option.bind_some] at h
          rw [← (age_static hage).2.1]
          exact (next_eq_none h).2

/-! ### When it is due -/

theorem succ_mod_eq_zero_iff {p n : Nat} (hp : 1 ≤ p) :
    (n + 1) % p = 0 ↔ p - 1 ≤ n ∧ (n - (p - 1)) % p = 0 := by
  by_cases hle : p ≤ n + 1
  · have hdiff : n - (p - 1) = n + 1 - p := by omega
    rw [hdiff, ← Nat.mod_eq_sub_mod hle]
    exact ⟨fun h => ⟨by omega, h⟩, fun h => h.2⟩
  · rw [Nat.mod_eq_of_lt (Nat.lt_of_not_le hle)]
    exact ⟨fun h => absurd h (by omega), fun h => absurd h.1 (by omega)⟩

theorem due_next (hnext : x.next = some z) (hx : 0 ≤ x.countDown) (hz : 0 ≤ z.countDown) :
    x.due (n + 1) ↔ z.due n := by
  obtain ⟨c, rfl, hreload, hc⟩ := next_eq_some hnext
  have hc0 : 0 ≤ c := hz
  have hevery : EztimerStruct.every { x with countDown := c } = x.every := rfl
  have hfirst : EztimerStruct.first { x with countDown := c } = c.toNat := rfl
  by_cases hzero : x.countDown = 0
  · -- the timer is loaded with its period, of which this tick is the first
    simp only [hzero, if_true] at hc
    have hpos : 1 ≤ x.period ∧ c = x.period - 1 := by
      split at hc <;> omega
    have heach : x.every = c.toNat + 1 := by
      rw [EztimerStruct.every, if_neg (by omega)]
      omega
    have hnow : x.first = 0 := by rw [EztimerStruct.first, hzero]; rfl
    unfold EztimerStruct.due
    rw [hevery, hfirst, hnow, heach]
    simp only [hreload hzero, if_true, Nat.zero_le, true_and, Nat.sub_zero]
    exact succ_mod_eq_zero_iff (Nat.succ_le_succ (Nat.zero_le _))
  · have hdown : x.first = c.toNat + 1 := by
      simp only [hzero, if_false, hx, if_true] at hc
      rw [EztimerStruct.first]
      omega
    unfold EztimerStruct.due
    rw [hevery, hfirst, hdown, Nat.add_sub_add_right, Nat.succ_le_succ_iff, Nat.succ_inj]

/-- A count that has come down to zero is due. -/
theorem due_of_zero (h : x.age n = some y) (hy : y.countDown = 0) : x.due n := by
  induction n generalizing x with
  | zero =>
      cases h
      unfold EztimerStruct.due EztimerStruct.first
      rw [hy]
      split
      · exact ⟨Nat.le_refl 0, Nat.zero_mod _⟩
      · rfl
  | succ n ih =>
      by_cases hneg : x.countDown < 0
      · rw [age_neg hneg] at h
        cases h
        exact absurd hy (by omega)
      · rw [age_succ] at h
        obtain ⟨z, hnext, hz⟩ := Option.bind_eq_some_iff.mp h
        by_cases hznonneg : 0 ≤ z.countDown
        · exact (due_next hnext (by omega) hznonneg).mpr (ih hz)
        · rw [age_neg (by omega)] at hz
          cases hz
          exact absurd hy (by omega)

/-- A timer that keeps its count from falling below zero is at zero when it is due. -/
theorem zero_of_due (hx : 0 ≤ x.countDown) (hperiod : x.reload = true → 1 ≤ x.period)
    (h : x.due n) : ∃ y, x.age n = some y ∧ y.countDown = 0 := by
  induction n generalizing x with
  | zero =>
      refine ⟨x, rfl, ?_⟩
      unfold EztimerStruct.due EztimerStruct.first at h
      split at h
      · have hle := h.1
        omega
      · omega
  | succ n ih =>
      rw [age_succ]
      cases hnext : x.next with
      | none =>
          obtain ⟨hzero, hone⟩ := next_eq_none hnext
          unfold EztimerStruct.due EztimerStruct.first at h
          rw [hone, hzero] at h
          cases h
      | some z =>
          obtain ⟨c, rfl, hreload, hc⟩ := next_eq_some hnext
          have hc0 : 0 ≤ c := by
            by_cases hzero : x.countDown = 0
            · have hpos := hperiod (hreload hzero)
              simp only [hzero, if_true] at hc
              split at hc <;> omega
            · simp only [hzero, if_false, hx, if_true] at hc
              omega
          exact ih (x := { x with countDown := c }) hc0 hperiod ((due_next hnext hx hc0).mp h)

end Age

/-! ## The pass over the list -/

/-- No one-shot timer expires before the end of the list. -/
def NoBreak (l : List EztimerStruct) : Prop :=
  l.Pairwise fun x _ => x.countDown = 0 → x.reload = true

section Pass

variable {l : List EztimerStruct} {x y : EztimerStruct} {n : Nat}

theorem timerRoutine_of_noBreak (h : NoBreak l) :
    timerRoutine l = (l.filterMap EztimerStruct.next, l.filter fun x => decide (x.countDown = 0)) := by
  induction l with
  | nil => rfl
  | cons x l ih =>
      rw [NoBreak, List.pairwise_cons] at h
      rw [timerRoutine, List.filterMap_cons, List.filter_cons]
      by_cases hlast : x.countDown = 0 ∧ x.reload = false
      · have hnil : l = [] := List.eq_nil_iff_forall_not_mem.mpr fun y hy =>
          absurd ((h.1 y hy hlast.1).symm.trans hlast.2) (by simp)
        simp [hlast, hnil, EztimerStruct.next]
      · simp only [hlast, if_false, ih h.2, EztimerStruct.next, decide_eq_true_eq]

theorem ids_sublist (l : List EztimerStruct) :
    ((timerRoutine l).1.map EztimerStruct.id).Sublist (l.map EztimerStruct.id) := by
  induction l with
  | nil => exact .slnil
  | cons x l ih =>
      rw [timerRoutine]
      split
      · exact (List.Sublist.refl _).cons _
      · exact ih.cons_cons _

theorem ticks_distinct (hl : (l.map EztimerStruct.id).Nodup) (n : Nat) :
    ((ticks l n).map EztimerStruct.id).Nodup := by
  induction n with
  | zero => exact hl
  | succ n ih => exact ih.sublist (ids_sublist _)

theorem expired_subset (l : List EztimerStruct) :
    ∀ x ∈ (timerRoutine l).2, x ∈ l ∧ x.countDown = 0 := by
  induction l with
  | nil => exact fun x hx => absurd hx List.not_mem_nil
  | cons y l ih =>
      intro x hx
      rw [timerRoutine] at hx
      split at hx
      next hlast =>
        rw [List.mem_singleton.mp hx]
        exact ⟨List.mem_cons_self, hlast.1⟩
      next =>
        have hrest (h : x ∈ (timerRoutine l).2) : x ∈ y :: l ∧ x.countDown = 0 :=
          ⟨List.mem_cons_of_mem y (ih x h).1, (ih x h).2⟩
        split at hx
        next hzero =>
          rcases List.mem_cons.mp hx with rfl | hold
          · exact ⟨List.mem_cons_self, hzero⟩
          · exact hrest hold
        next => exact hrest hx

/-- A pass that ends early has skipped a timer. -/
theorem exists_skipped (hl : (l.map EztimerStruct.id).Nodup) (h : ¬ NoBreak l) :
    ∃ y ∈ l, y ∈ (timerRoutine l).1 ∧ ∀ z ∈ (timerRoutine l).2, z.id ≠ y.id := by
  induction l with
  | nil => exact absurd List.Pairwise.nil h
  | cons x l ih =>
      rw [List.map_cons, List.nodup_cons] at hl
      have hother (y : EztimerStruct) (hy : y ∈ l) : x.id ≠ y.id := fun heq =>
        hl.1 (heq ▸ List.mem_map_of_mem hy)
      rw [timerRoutine]
      by_cases hlast : x.countDown = 0 ∧ x.reload = false
      · cases l with
        | nil => exact absurd (List.pairwise_singleton _ _) h
        | cons y l =>
            rw [if_pos hlast]
            refine ⟨y, by simp, by simp, fun z hz => ?_⟩
            rw [List.mem_singleton.mp hz]
            exact hother y (by simp)
      · rw [if_neg hlast]
        obtain ⟨y, hy, hkept, hnot⟩ := ih hl.2 fun hrest => h (List.pairwise_cons.mpr
          ⟨fun _ _ hzero => by simpa [hzero] using hlast, hrest⟩)
        refine ⟨y, List.mem_cons_of_mem x hy, List.mem_cons_of_mem _ hkept, fun z hz => ?_⟩
        dsimp only at hz
        split at hz
        next =>
          rcases List.mem_cons.mp hz with rfl | hold
          · exact hother y hy
          · exact hnot z hold
        next => exact hnot z hz

theorem ticks_eq (h : ∀ m < n, NoBreak (ticks l m)) :
    ticks l n = l.filterMap fun x => x.age n := by
  induction n with
  | zero => exact (List.filterMap_some).symm
  | succ n ih =>
      rw [ticks, timerRoutine_of_noBreak (h n (Nat.lt_succ_self n)),
        ih fun m hm => h m (Nat.lt_succ_of_lt hm), List.filterMap_filterMap]
      rfl

theorem mem_ticks (h : ∀ m < n, NoBreak (ticks l m)) :
    y ∈ ticks l n ↔ ∃ x ∈ l, x.age n = some y := by
  rw [ticks_eq h, List.mem_filterMap]

theorem expires_iff (hl : (l.map EztimerStruct.id).Nodup) (h : ∀ m ≤ n, NoBreak (ticks l m))
    (hx : x ∈ l) : (∃ y ∈ expired l n, y.id = x.id) ↔ ∃ y, x.age n = some y ∧ y.countDown = 0 := by
  have hbefore : ∀ m < n, NoBreak (ticks l m) := fun m hm => h m (Nat.le_of_lt hm)
  rw [expired, timerRoutine_of_noBreak (h n (Nat.le_refl n))]
  constructor
  · intro hfires
    rcases hfires with ⟨y, hy, hid⟩
    rw [List.mem_filter, decide_eq_true_eq, mem_ticks hbefore] at hy
    obtain ⟨⟨x', hx', hage⟩, hzero⟩ := hy
    have hsame : x' = x := List.inj_on_of_nodup_map hl hx' hx ((age_static hage).1.symm.trans hid)
    exact ⟨y, hsame ▸ hage, hzero⟩
  · intro hdue
    rcases hdue with ⟨y, hage, hzero⟩
    refine ⟨y, ?_, (age_static hage).1⟩
    rw [List.mem_filter, decide_eq_true_eq, mem_ticks hbefore]
    exact ⟨⟨x, hx, hage⟩, hzero⟩

end Pass

/-! ## Undisturbed lists -/

section Lists

variable {l : List EztimerStruct} {n : Nat}

theorem Undisturbed.noBreak (h : Undisturbed l) : NoBreak l := by
  refine h.order.imp_of_mem fun {x y} _ hy hxy hzero => ?_
  rw [← Bool.not_eq_false]
  intro hone
  have hlt := (hxy hone).2
  have hnonneg := h.nonneg y hy
  omega

theorem Undisturbed.next (h : Undisturbed l) : Undisturbed (l.filterMap EztimerStruct.next) := by
  refine ⟨fun z hz => ?_, fun z hz hreload => ?_, ?_⟩
  · obtain ⟨x, hx, hnext⟩ := List.mem_filterMap.mp hz
    obtain ⟨c, rfl, hlive, hc⟩ := next_eq_some hnext
    have hnonneg := h.nonneg x hx
    show 0 ≤ c
    by_cases hzero : x.countDown = 0
    · have hpos := h.periods x hx (hlive hzero)
      simp only [hzero, if_true] at hc
      split at hc <;> omega
    · simp only [hzero, if_false, hnonneg, if_true] at hc
      omega
  · obtain ⟨x, hx, hnext⟩ := List.mem_filterMap.mp hz
    obtain ⟨c, rfl, -, -⟩ := next_eq_some hnext
    exact h.periods x hx hreload
  · rw [List.pairwise_filterMap]
    refine h.order.imp_of_mem fun {x y} hx hy hxy x' hx' y' hy' hone => ?_
    obtain ⟨c, rfl, hlive, hc⟩ := next_eq_some hx'
    obtain ⟨d, rfl, hlive', hd⟩ := next_eq_some hy'
    obtain ⟨hyone, hlt⟩ := hxy hone
    refine ⟨hyone, ?_⟩
    -- both are one-shot timers that are still there, and are decremented
    have hxzero : x.countDown ≠ 0 := fun hzero => absurd ((hlive hzero).symm.trans hone) (by simp)
    have hyzero : y.countDown ≠ 0 := fun hzero => absurd ((hlive' hzero).symm.trans hyone) (by simp)
    simp only [hxzero, if_false, h.nonneg x hx, if_true] at hc
    simp only [hyzero, if_false, h.nonneg y hy, if_true] at hd
    show d < c
    omega

theorem Undisturbed.ticks (h : Undisturbed l) (n : Nat) : Undisturbed (ticks l n) := by
  induction n with
  | zero => exact h
  | succ n ih =>
      rw [Timer.ticks, timerRoutine_of_noBreak ih.noBreak]
      exact ih.next

theorem Undisturbed.exact (hl : (l.map EztimerStruct.id).Nodup) (h : Undisturbed l) (n : Nat) :
    Exact l n := by
  refine ⟨fun x hx => ?_, fun y hy hlive => ?_⟩
  · rw [expires_iff hl (fun m _ => (h.ticks m).noBreak) hx]
    constructor
    · intro hdue
      rcases hdue with ⟨y, hage, hzero⟩
      exact due_of_zero hage hzero
    · exact zero_of_due (h.nonneg x hx) (h.periods x hx)
  · have hn := h.ticks n
    rw [Timer.ticks, timerRoutine_of_noBreak hn.noBreak, List.mem_filterMap]
    refine ⟨y, hy, ?_⟩
    have hnot : ¬ (y.countDown = 0 ∧ y.reload = false) := fun hlast =>
      absurd ((hlive hlast.1).symm.trans hlast.2) (by simp)
    have hnonneg : 0 ≤ if y.countDown = 0 then y.period else y.countDown := by
      have hcount := hn.nonneg y hy
      split
      next hzero =>
        have hpos := hn.periods y hy (hlive hzero)
        omega
      next => exact hcount
    unfold EztimerStruct.next
    simp only [hnot, if_false, hnonneg, if_true]
    rfl

/-! ## What exact ticks say about the list -/

theorem nonneg_of_exact (hl : (l.map EztimerStruct.id).Nodup) (h : Exact l 0) :
    ∀ x ∈ l, 0 ≤ x.countDown := by
  intro x hx
  by_contra hneg
  have hdue : x.due 0 := by
    have hfirst : x.first = 0 := by rw [EztimerStruct.first]; omega
    unfold EztimerStruct.due
    rw [hfirst]
    split
    · exact ⟨Nat.le_refl 0, Nat.zero_mod _⟩
    · rfl
  obtain ⟨y, hy, hid⟩ := (h.fires x hx).mpr hdue
  obtain ⟨hmem, hzero⟩ := expired_subset l y hy
  rw [List.inj_on_of_nodup_map hl hmem hx hid] at hzero
  omega

/-- Whoever is skipped would have had to fire or to be decremented. -/
theorem noBreak_of_exact (hl : (l.map EztimerStruct.id).Nodup) (h : ∀ n, Exact l n) (n : Nat) :
    NoBreak (ticks l n) := by
  induction n using Nat.strongRecOn with
  | ind n ih =>
      by_contra hbreak
      have hdistinct := ticks_distinct hl n
      obtain ⟨y, hy, hkept, hnot⟩ := exists_skipped hdistinct hbreak
      by_cases hzero : y.countDown = 0
      · obtain ⟨x, hx, hage⟩ := (mem_ticks ih).mp hy
        obtain ⟨z, hz, hid⟩ := ((h n).fires x hx).mpr (due_of_zero hage hzero)
        exact hnot z hz (hid.trans (age_static hage).1.symm)
      · have hdown := (h n).decrements y hy fun hcount => absurd hcount hzero
        have hsame : y.decremented = y :=
          List.inj_on_of_nodup_map (ticks_distinct hl (n + 1)) hdown hkept rfl
        have hcount := congrArg EztimerStruct.countDown hsame
        simp only [EztimerStruct.decremented, hzero, if_false] at hcount
        omega

theorem periods_of_exact (hl : (l.map EztimerStruct.id).Nodup) (h : ∀ n, Exact l n) :
    ∀ x ∈ l, x.reload = true → 1 ≤ x.period := by
  intro x hx hreload
  by_contra hperiod
  have hnonneg := nonneg_of_exact hl (h 0) x hx
  have hfirst : (x.first : Int) = x.countDown := Int.toNat_of_nonneg hnonneg
  have hdue : x.due (x.first + 1) := by
    have hevery : x.every = 1 := if_pos (by omega)
    unfold EztimerStruct.due
    rw [hreload, if_pos rfl, hevery]
    exact ⟨Nat.le_succ _, Nat.mod_one _⟩
  have hfires := ((h (x.first + 1)).fires x hx).mpr hdue
  rw [expires_iff hl (fun m _ => noBreak_of_exact hl h m) hx] at hfires
  obtain ⟨y, hage, hzero⟩ := hfires
  -- it was at zero one tick earlier, and was loaded with too little
  rw [EztimerStruct.age, age_le (Int.le_of_eq hfirst), Option.bind_some] at hage
  obtain ⟨c, rfl, -, hc⟩ := next_eq_some hage
  have hcount : c = 0 := hzero
  have hloaded (k : Int) : EztimerStruct.period { x with countDown := k } = x.period := rfl
  simp only [hfirst, Int.sub_self, if_true, hloaded] at hc
  split at hc <;> omega

theorem order_of_exact (hl : (l.map EztimerStruct.id).Nodup) (h : ∀ n, Exact l n) :
    l.Pairwise fun x y => x.reload = false → y.reload = false ∧ y.countDown < x.countDown := by
  rw [List.pairwise_iff_forall_sublist]
  intro x y hxy hone
  have hx : x ∈ l := hxy.subset List.mem_cons_self
  have hfirst : (x.first : Int) = x.countDown :=
    Int.toNat_of_nonneg (nonneg_of_exact hl (h 0) x hx)
  -- when the first expires, the other one must be gone
  have hbreak := noBreak_of_exact hl h x.first
  rw [ticks_eq fun m _ => noBreak_of_exact hl h m, NoBreak, List.pairwise_filterMap,
    List.pairwise_iff_forall_sublist] at hbreak
  have hgone : y.age x.first = none := by
    rw [Option.eq_none_iff_forall_ne_some]
    intro z hz
    have hreload := hbreak hxy _ (age_le (Int.le_of_eq hfirst)) z hz (by simp [hfirst])
    exact absurd (hone.symm.trans hreload) (by simp)
  obtain ⟨hyone, hlt⟩ := age_none hgone
  exact ⟨hyone, hfirst ▸ hlt⟩

end Lists

/-- Every tick does to every timer what it should exactly if the list is undisturbed. -/
theorem timers_exact_iff (t : TimerList) : (∀ n, Exact t.nodes n) ↔ Undisturbed t.nodes := by
  constructor
  · intro h
    exact ⟨nonneg_of_exact t.distinct (h 0), periods_of_exact t.distinct h,
      order_of_exact t.distinct h⟩
  · exact fun h n => h.exact t.distinct n

/-- A one-shot timer of 100 ms in front of a reload timer of 300 ms. -/
def sampleTimers : TimerList := (TimerList.empty.eztimerCreate 100 false none).eztimerCreate 300 true none

/-- The reload timer misses the tick on which the other one is deleted, and fires late. -/
theorem reload_timer_late : ¬ ∀ n, Exact sampleTimers.nodes n := by
  intro h
  have hmem : (⟨2, true, 300, 3, none⟩ : EztimerStruct) ∈ sampleTimers.nodes := by decide
  have hnow := ((h 3).fires _ hmem).mpr ⟨by decide, by decide⟩
  revert hnow
  decide

end EzIot.Timer
