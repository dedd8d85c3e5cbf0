import Mathlib.Data.Nat.Count
import EzIot.Timer.Routine

/-! # Another period for a timer

A timer that is given another period is to keep the time it has waited. It shares its
ticks with the timers in front of it: a pass that deletes one of them ends there.
-/

namespace EzIot.Timer

open Slots

/-! ## What is meant -/

/-- The count that a timer is to have with another period: what it had, by the difference
of the periods longer or shorter. -/
def EztimerStruct.meantCount (x : EztimerStruct) (newTimeOut : Int) : Int :=
  if x.countDown ≥ newTimeOut / 100 then newTimeOut / 100
  else if 0 ≤ x.countDown + (newTimeOut - x.timeOut) / 100 then
    x.countDown + (newTimeOut - x.timeOut) / 100
  else 0

/-- The timer has the new period and its count, the others are as they were, and it fires
within the period and one tick. -/
structure PeriodChanged (front : List EztimerStruct) (x : EztimerStruct)
    (back : List EztimerStruct) (newTimeOut : Int) (l : List EztimerStruct) : Prop where
  nodes : l =
    front ++ { x with timeOut := newTimeOut, countDown := x.meantCount newTimeOut } :: back
  fires : ∃ n : Nat, (n : Int) ≤ newTimeOut / 100 ∧ ∃ y ∈ expired l n, y.id = x.id

/-! ## When it is so -/

/-- The passes among the first `n + 1` that end at a one-shot timer of a list, from the
front on: every one that was counted keeps those behind it waiting for a tick. -/
def heldUp (n : Nat) (front : List EztimerStruct) : Nat :=
  front.foldl (fun (k : Nat) (x : EztimerStruct) =>
    if x.reload = false ∧ 0 ≤ x.countDown ∧ x.countDown + k ≤ n then k + 1 else k) 0

/-- The count is not below the new period, or nothing is to be added to it. And the timers
in front leave it the ticks that it needs. -/
def PeriodFits (front : List EztimerStruct) (x : EztimerStruct) (newTimeOut : Int) : Prop :=
  (newTimeOut / 100 ≤ x.countDown ∧ heldUp (newTimeOut / 100).toNat front = 0) ∨
    (x.countDown < newTimeOut / 100 ∧
      (0 ≤ x.countDown ∧ newTimeOut = x.timeOut ∨ x.countDown = 0 ∧ newTimeOut ≤ x.timeOut) ∧
      x.countDown + heldUp (newTimeOut / 100).toNat front ≤ newTimeOut / 100)

/-! ## Parts of a list -/

/-- A pass ends in a list: a one-shot timer of it has expired. -/
def endsPass (l : List EztimerStruct) : Bool :=
  l.any fun x => decide (x.countDown = 0) && !x.reload

/-- How many of the first `n` passes get behind a list. -/
def passed (front : List EztimerStruct) (n : Nat) : Nat :=
  Nat.count (fun m => endsPass (ticks front m) = false) n

section Parts

variable {front rest : List EztimerStruct} {x : EztimerStruct} {n k : Nat}

theorem endsPass_cons : endsPass (x :: rest) = true ↔
    (x.countDown = 0 ∧ x.reload = false) ∨ endsPass rest = true := by
  simp [endsPass]

/-- What a pass does behind a part of the list in which it does not end. -/
theorem timerRoutine_append (rest : List EztimerStruct) :
    timerRoutine (front ++ rest) =
      if endsPass front = true then ((timerRoutine front).1 ++ rest, (timerRoutine front).2)
      else ((timerRoutine front).1 ++ (timerRoutine rest).1,
        (timerRoutine front).2 ++ (timerRoutine rest).2) := by
  induction front with
  | nil => rfl
  | cons x front ih =>
      rw [List.cons_append, timerRoutine, timerRoutine, ih]
      by_cases hlast : x.countDown = 0 ∧ x.reload = false
      · rw [if_pos hlast, if_pos hlast, if_pos (endsPass_cons.mpr (.inl hlast))]
      · rw [if_neg hlast, if_neg hlast]
        by_cases hends : endsPass front = true
        · rw [if_pos hends, if_pos (endsPass_cons.mpr (.inr hends))]
          rfl
        · have hnot : ¬ endsPass (x :: front) = true := fun h =>
            (endsPass_cons.mp h).elim hlast hends
          rw [if_neg hends, if_neg hnot]
          dsimp only
          split <;> rfl

theorem passed_succ (front : List EztimerStruct) (n : Nat) :
    passed front (n + 1) = passed front n + if endsPass (ticks front n) = false then 1 else 0 :=
  Nat.count_succ _ n

/-- The timers behind a part of the list age with the passes that get there. -/
theorem ticks_append (rest : List EztimerStruct) (n : Nat) :
    ticks (front ++ rest) n = ticks front n ++ ticks rest (passed front n) := by
  induction n with
  | zero => rfl
  | succ n ih =>
      rw [ticks, ih, timerRoutine_append, passed_succ]
      cases endsPass (ticks front n) with
      | true => rfl
      | false => rfl

theorem expired_append (rest : List EztimerStruct) (n : Nat) :
    expired (front ++ rest) n = expired front n ++
      if endsPass (ticks front n) = true then [] else expired rest (passed front n) := by
  unfold expired
  rw [ticks_append, timerRoutine_append]
  split
  · rw [List.append_nil]
  · rfl

theorem ticks_single (x : EztimerStruct) (n : Nat) : ticks [x] n = (x.age n).toList := by
  induction n with
  | zero => rfl
  | succ n ih =>
      rw [ticks, ih, EztimerStruct.age]
      cases x.age n with
      | none => rfl
      | some y =>
          show (timerRoutine [y]).1 = y.next.toList
          rw [timerRoutine, EztimerStruct.next]
          split <;> rfl

/-- A timer by itself ends the pass when it is a one-shot timer and its count is down. -/
theorem endsPass_single :
    endsPass (ticks [x] n) = true ↔ x.reload = false ∧ x.countDown = n := by
  rw [ticks_single]
  constructor
  · intro h
    obtain ⟨y, hy, hlast⟩ := List.any_eq_true.mp h
    rw [Option.mem_toList] at hy
    simp only [Bool.and_eq_true, decide_eq_true_eq, Bool.not_eq_true'] at hlast
    have hone : x.reload = false := (age_static hy).2.1 ▸ hlast.2
    have hdue := due_of_zero hy hlast.1
    unfold EztimerStruct.due EztimerStruct.first at hdue
    rw [hone] at hdue
    refine ⟨hone, ?_⟩
    by_cases hneg : x.countDown < 0
    · rw [age_neg hneg] at hy
      cases hy
      omega
    · have hfirst : n = x.countDown.toNat := by simpa using hdue
      omega
  · intro h
    rw [age_le (by omega)]
    simp [endsPass, h.1, h.2]

/-- The passes that end in a part of the list. -/
def ended (front : List EztimerStruct) (n : Nat) : Nat :=
  Nat.count (fun m => endsPass (ticks front m) = true) n

theorem ended_succ (front : List EztimerStruct) (n : Nat) :
    ended front (n + 1) = ended front n + if endsPass (ticks front n) = true then 1 else 0 :=
  Nat.count_succ _ n

theorem ended_add_passed (front : List EztimerStruct) (n : Nat) :
    ended front n + passed front n = n := by
  induction n with
  | zero => rfl
  | succ n ih =>
      rw [ended_succ, passed_succ]
      cases endsPass (ticks front n) with
      | true => simp only [if_true, Bool.true_eq_false, if_false]; omega
      | false => simp only [Bool.false_eq_true, if_false, if_true]; omega

/-- One more timer ends one more pass if it is a one-shot timer that gets its turn. -/
theorem ended_concat (x : EztimerStruct) (n : Nat) :
    ended (front ++ [x]) n = ended front n +
      if x.reload = false ∧ 0 ≤ x.countDown ∧ x.countDown < passed front n then 1 else 0 := by
  induction n with
  | zero =>
      have hnone : passed front 0 = 0 := rfl
      rw [hnone, if_neg (by omega)]
      rfl
  | succ n ih =>
      have hsplit : endsPass (ticks (front ++ [x]) n) =
          (endsPass (ticks front n) || endsPass (ticks [x] (passed front n))) := by
        rw [ticks_append, endsPass, List.any_append]
        rfl
      have hself := endsPass_single (x := x) (n := passed front n)
      rw [ended_succ, ended_succ, passed_succ, ih, hsplit]
      cases endsPass (ticks front n) with
      | true =>
          simp only [Bool.true_or, if_true, Bool.true_eq_false, if_false, Nat.add_zero]
          omega
      | false =>
          simp only [Bool.false_or, Bool.false_eq_true, if_false, if_true, hself]
          by_cases hone : x.reload = false
          · simp only [hone, true_and]
            split <;> split <;> split <;> omega
          · simp [hone]

theorem heldUp_concat (n : Nat) (front : List EztimerStruct) (x : EztimerStruct) :
    heldUp n (front ++ [x]) =
      if x.reload = false ∧ 0 ≤ x.countDown ∧ x.countDown + heldUp n front ≤ n then
        heldUp n front + 1
      else heldUp n front := by
  unfold heldUp
  rw [List.foldl_append]
  rfl

theorem ended_eq_heldUp (front : List EztimerStruct) (n : Nat) :
    ended front (n + 1) = heldUp n front := by
  induction front using List.reverseRecOn with
  | nil =>
      have hnil (m : Nat) : ticks [] m = [] := by
        induction m with
        | zero => rfl
        | succ m ih => rw [ticks, ih]; rfl
      have hnone : ∀ m < n + 1, ¬ endsPass (ticks [] m) = true := fun m _ => by
        simp [hnil, endsPass]
      exact Nat.count_iff_forall_not.mpr hnone
  | append_singleton front x ih =>
      have hsum := ended_add_passed front (n + 1)
      rw [ended_concat, heldUp_concat, ih]
      rw [ih] at hsum
      by_cases hone : x.reload = false
      · simp only [hone, true_and]
        split <;> split <;> omega
      · simp [hone]

end Parts

/-! ## When a timer fires -/

section Fires

variable {front back : List EztimerStruct} {x : EztimerStruct} {n : Nat}

theorem mem_ids_of_mem_ticks {l : List EztimerStruct} {y : EztimerStruct} (hy : y ∈ ticks l n) :
    y.id ∈ l.map EztimerStruct.id := by
  induction n generalizing y with
  | zero => exact List.mem_map_of_mem hy
  | succ n ih =>
      have hid := (ids_sublist (ticks l n)).subset (List.mem_map_of_mem hy)
      obtain ⟨z, hz, heq⟩ := List.mem_map.mp hid
      exact heq ▸ ih hz

/-- A timer that heads a list fires when its count is down. -/
theorem expired_head (hx : 0 ≤ x.countDown) :
    ∃ y ∈ expired (x :: back) x.countDown.toNat, y.id = x.id := by
  have hhead : ticks [x] x.countDown.toNat = [{ x with countDown := 0 }] := by
    rw [ticks_single, age_le (by omega)]
    have hzero : x.countDown - (x.countDown.toNat : Int) = 0 := by omega
    rw [hzero]
    rfl
  have hsplit : x :: back = [x] ++ back := rfl
  refine ⟨{ x with countDown := 0 }, ?_, rfl⟩
  rw [hsplit, expired_append, expired, hhead, timerRoutine]
  split <;> simp

/-- It does not fire before. -/
theorem le_of_expired_head (hdistinct : ((x :: back).map EztimerStruct.id).Nodup)
    (hfires : ∃ y ∈ expired (x :: back) n, y.id = x.id) : x.countDown ≤ n := by
  obtain ⟨y, hy, hid⟩ := hfires
  obtain ⟨hmem, hzero⟩ := expired_subset _ y hy
  by_contra hlt
  have hsplit : x :: back = [x] ++ back := rfl
  rw [hsplit, ticks_append, List.mem_append] at hmem
  rcases hmem with hself | hother
  · rw [ticks_single, Option.mem_toList, age_le (by omega)] at hself
    cases hself
    have hcount : x.countDown - (n : Int) = 0 := hzero
    omega
  · rw [List.map_cons, List.nodup_cons] at hdistinct
    exact hdistinct.1 (hid ▸ mem_ids_of_mem_ticks hother)

/-- The pass that is the `k`-th to get behind a list. -/
theorem exists_passed {k : Nat} (h : k < passed front n) :
    ∃ m < n, endsPass (ticks front m) = false ∧ passed front m = k := by
  induction n with
  | zero => exact absurd h (Nat.not_lt_zero k)
  | succ n ih =>
      by_cases hbefore : k < passed front n
      · obtain ⟨m, hm, hpass⟩ := ih hbefore
        exact ⟨m, Nat.lt_succ_of_lt hm, hpass⟩
      · rw [passed_succ] at h
        cases hends : endsPass (ticks front n) with
        | true =>
            rw [hends] at h
            exact absurd h hbefore
        | false =>
            rw [hends, if_pos rfl] at h
            exact ⟨n, Nat.lt_succ_self n, hends, by omega⟩

/-- A timer fires among the first `n + 1` ticks when its count and the passes that end in
front of it leave it the time. -/
theorem fires_iff (hdistinct : ((front ++ x :: back).map EztimerStruct.id).Nodup)
    (hx : 0 ≤ x.countDown) (n : Nat) :
    (∃ m : Nat, (m : Int) ≤ n ∧ ∃ y ∈ expired (front ++ x :: back) m, y.id = x.id) ↔
      x.countDown + heldUp n front ≤ n := by
  have hsum := ended_add_passed front (n + 1)
  rw [ended_eq_heldUp] at hsum
  rw [List.map_append, List.nodup_append] at hdistinct
  obtain ⟨-, hrest, hapart⟩ := hdistinct
  constructor
  · intro hfires
    obtain ⟨m, hm, y, hy, hid⟩ := hfires
    rw [expired_append, List.mem_append] at hy
    have hself : x.id ∈ (x :: back).map EztimerStruct.id := by simp
    rcases hy with hfront | hbehind
    · have hmem := mem_ids_of_mem_ticks (expired_subset _ y hfront).1
      rw [hid] at hmem
      exact absurd rfl (hapart _ hmem _ hself)
    · cases hends : endsPass (ticks front m) with
      | true => simp [hends] at hbehind
      | false =>
          rw [hends] at hbehind
          have hcount := le_of_expired_head hrest ⟨y, hbehind, hid⟩
          have hnext : passed front (m + 1) = passed front m + 1 := by
            rw [passed_succ, hends, if_pos rfl]
          have hmono : passed front (m + 1) ≤ passed front (n + 1) :=
            Nat.count_monotone _ (by omega)
          omega
  · intro hle
    have hturn : x.countDown.toNat < passed front (n + 1) := by omega
    obtain ⟨m, hm, hends, hpass⟩ := exists_passed hturn
    have hhead : ∃ y ∈ expired (x :: back) x.countDown.toNat, y.id = x.id := expired_head hx
    obtain ⟨y, hy, hid⟩ := hhead
    refine ⟨m, by omega, y, ?_, hid⟩
    rw [expired_append, hends, hpass]
    exact List.mem_append_right _ hy

end Fires

/-! ## The new period -/

/-- The timer after the change. -/
def EztimerStruct.changed (x : EztimerStruct) (newTimeOut : Int) : EztimerStruct :=
  { x with
    timeOut := newTimeOut
    countDown := if x.countDown ≥ newTimeOut.tdiv msec then newTimeOut.tdiv msec
      else x.countDown }

theorem eztimerChangePeriod_nodes {t : TimerList} {front back : List EztimerStruct}
    {x : EztimerStruct} (h : t.nodes = front ++ x :: back) (newTimeOut : Int) :
    (t.eztimerChangePeriod x.id newTimeOut).nodes = front ++ x.changed newTimeOut :: back := by
  have hdistinct := t.distinct
  rw [h, List.map_append, List.nodup_append] at hdistinct
  have hfront : ∀ y ∈ front, decide (y.id = x.id) = false := fun y hy => by
    have hne := hdistinct.2.2 y.id (List.mem_map_of_mem hy) x.id (by simp)
    exact decide_eq_false hne
  show modifyFirst _ _ t.nodes = _
  rw [h, modifyFirst_append hfront (decide_eq_true rfl)]
  simp only [Int.sub_self, Int.zero_tdiv, Int.add_zero]
  rfl

/-- Its count is the one that is meant where there is nothing to add. -/
theorem changed_count_iff {x : EztimerStruct} {newTimeOut : Int} (hold : x.timeOut % 100 = 0)
    (hnew : newTimeOut % 100 = 0 ∧ 100 ≤ newTimeOut) :
    (x.changed newTimeOut).countDown = x.meantCount newTimeOut ↔
      newTimeOut / 100 ≤ x.countDown ∨
        (0 ≤ x.countDown ∧ newTimeOut = x.timeOut ∨ x.countDown = 0 ∧ newTimeOut ≤ x.timeOut) := by
  have hdiv : newTimeOut.tdiv msec = newTimeOut / 100 :=
    Int.tdiv_eq_ediv_of_nonneg (by omega)
  unfold EztimerStruct.changed EztimerStruct.meantCount
  simp only [hdiv]
  by_cases hge : x.countDown ≥ newTimeOut / 100
  · simp [hge]
  · rw [if_neg hge, if_neg hge]
    split <;> omega

/-- Another period is kept exactly if it fits. -/
theorem change_period_iff {t : TimerList} {front back : List EztimerStruct} {x : EztimerStruct}
    (h : t.nodes = front ++ x :: back) {newTimeOut : Int}
    (hold : x.timeOut % 100 = 0 ∧ 100 ≤ x.timeOut)
    (hnew : newTimeOut % 100 = 0 ∧ 100 ≤ newTimeOut) :
    PeriodChanged front x back newTimeOut (t.eztimerChangePeriod x.id newTimeOut).nodes ↔
      PeriodFits front x newTimeOut := by
  have hnodes : (t.eztimerChangePeriod x.id newTimeOut).nodes =
      front ++ x.changed newTimeOut :: back := eztimerChangePeriod_nodes h newTimeOut
  have hdistinct : ((front ++ x.changed newTimeOut :: back).map EztimerStruct.id).Nodup :=
    hnodes ▸ (t.eztimerChangePeriod x.id newTimeOut).distinct
  have hdiv : newTimeOut.tdiv msec = newTimeOut / 100 :=
    Int.tdiv_eq_ediv_of_nonneg (by omega)
  have hcount : (x.changed newTimeOut).countDown =
      if x.countDown ≥ newTimeOut / 100 then newTimeOut / 100 else x.countDown := by
    rw [← hdiv]
    rfl
  have hmeant := changed_count_iff hold.1 hnew
  have hfires (hpos : 0 ≤ (x.changed newTimeOut).countDown) :=
    fires_iff hdistinct hpos (newTimeOut / 100).toNat
  have hlast : ((newTimeOut / 100).toNat : Int) = newTimeOut / 100 := by omega
  rw [hlast] at hfires
  rw [hnodes]
  constructor
  · intro hchanged
    have hself := List.append_cancel_left hchanged.nodes
    have hsame := (hmeant.mp (congrArg EztimerStruct.countDown (List.cons.inj hself).1))
    have htime := hchanged.fires
    unfold PeriodFits
    by_cases hge : x.countDown ≥ newTimeOut / 100
    · rw [if_pos hge] at hcount
      have hle := (hfires (by omega)).mp htime
      omega
    · rw [if_neg hge] at hcount
      have hle := (hfires (by omega)).mp htime
      omega
  · intro hfits
    unfold PeriodFits at hfits
    have hsame : (x.changed newTimeOut).countDown = x.meantCount newTimeOut :=
      hmeant.mpr (by omega)
    refine ⟨?_, ?_⟩
    · rw [← hsame]
      rfl
    · by_cases hge : x.countDown ≥ newTimeOut / 100
      · rw [if_pos hge] at hcount
        exact (hfires (by omega)).mpr (by omega)
      · rw [if_neg hge] at hcount
        exact (hfires (by omega)).mpr (by omega)

/-- A timer of 300 ms that has waited for 100 ms. -/
def samplePeriod : TimerList :=
  (TimerList.empty.eztimerCreate 300 true none).modify 1 (fun x => { x with countDown := 2 })
    fun _ => rfl

/-- It is shortened to 200 ms. -/
theorem change_period_shorter : PeriodChanged [] ⟨1, true, 300, 2, none⟩ [] 200
    (samplePeriod.eztimerChangePeriod 1 200).nodes := by
  have hnodes : samplePeriod.nodes = [] ++ (⟨1, true, 300, 2, none⟩ : EztimerStruct) :: [] := rfl
  refine (change_period_iff hnodes ⟨by decide, by decide⟩ ⟨by decide, by decide⟩).mpr (.inl ?_)
  decide

/-- It is not prolonged to 500 ms: its count stays what it was. -/
theorem longer_period_lost : ¬ ∀ (t : TimerList) (front back : List EztimerStruct)
    (x : EztimerStruct) (newTimeOut : Int), t.nodes = front ++ x :: back →
      x.timeOut % 100 = 0 ∧ 100 ≤ x.timeOut → newTimeOut % 100 = 0 ∧ 100 ≤ newTimeOut →
        PeriodChanged front x back newTimeOut (t.eztimerChangePeriod x.id newTimeOut).nodes := by
  intro h
  have hnodes : samplePeriod.nodes = [] ++ (⟨1, true, 300, 2, none⟩ : EztimerStruct) :: [] := rfl
  have hchanged := (h _ _ _ _ 500 hnodes ⟨by decide, by decide⟩ ⟨by decide, by decide⟩).nodes
  revert hchanged
  decide

end EzIot.Timer
