import EzIot.Access.Heartbeat
import EzIot.Lib.Digits
import EzIot.Shadow.Tree

/-! # Deadlines

A timer is the time at which it expires, as seconds and nanoseconds. It is set by a sum with
a carry and looked at by a difference with a borrow; signed overflow has no result. Both
members of a time are a `long`. The nanoseconds have a width of their own here, because
their sums are to stay in 32 bits also where a `long` has 64.
-/

namespace EzIot.Ezutil

open Access Digits Shadow

/-! ## The functions -/

section Functions

variable (w v : LongWidth)

def timeIsexpired (assignTimer : Option Shadow.Timespec) (now : Shadow.Timespec) : Option Bool :=
  match assignTimer with
  | none => some true
  | some timer => do
      let sec ← w.long (timer.sec - now.sec)
      let nsec ← v.long (timer.nsec - now.nsec)
      if nsec < 0 then do
        let sec ← w.long (sec - 1)
        let nsec ← v.long (nsec + 1000000000)
        some (decide (sec < 0 ∨ sec = 0 ∧ nsec ≤ 0))
      else some (decide (sec < 0 ∨ sec = 0 ∧ nsec ≤ 0))

/-- The sum of an interval and a time. -/
def addTimespec (interval now : Shadow.Timespec) : Option Shadow.Timespec := do
  let sec ← w.long (interval.sec + now.sec)
  let nsec ← v.long (interval.nsec + now.nsec)
  if 1000000000 ≤ nsec then do
    let sec ← w.long (sec + 1)
    let nsec ← v.long (nsec - 1000000000)
    some ⟨sec, nsec⟩
  else some ⟨sec, nsec⟩

/-- `time_countdown` at the time `now`: the timer that is left. -/
def timeCountdown (assignTimer : Option Shadow.Timespec) (timeoutMs : Int)
    (now : Shadow.Timespec) : Option (Option Shadow.Timespec) := do
  let nsec ← v.long (timeoutMs.tmod 1000 * 1000000)
  let interval : Shadow.Timespec := ⟨timeoutMs.tdiv 1000, nsec⟩
  match assignTimer with
  | none => some none
  | some _ => (addTimespec w v interval now).map some

/-- `ezcore_time_countdown`; its interval is computed with 32 unsigned bits. -/
def ezcoreTimeCountdown (assignTimer : Option Shadow.Timespec) (timeCount : UInt32)
    (now : Shadow.Timespec) : Option (Option Shadow.Timespec) :=
  let interval : Shadow.Timespec :=
    ⟨(timeCount / 1000).toNat, (timeCount % 1000 * 1000000).toNat⟩
  match assignTimer with
  | none => some none
  | some _ => (addTimespec w v interval now).map some

end Functions

/-! ## What is meant -/

/-- What `ezos_get_clock` fills in. -/
structure Reading (w : LongWidth) extends Shadow.Timespec where
  sec_nonneg : 0 ≤ sec
  sec_le : sec ≤ w.longMax
  nsec_nonneg : 0 ≤ nsec
  nsec_lt : nsec < 1000000000

section Meant

variable {w : LongWidth}

def Reading.digits (r : Reading w) : TwoDigits 1000000000 :=
  ⟨r.sec, r.nsec, r.nsec_nonneg, r.nsec_lt⟩

def Reading.nanos (r : Reading w) : Int := r.digits.value

/-- The seconds of the sum of a time and a timeout are a `long`. -/
def SecondsFit (timeoutMs : Int) (now : Reading w) : Prop :=
  (now.nanos + timeoutMs * 1000000) / 1000000000 ≤ w.longMax

instance (timeoutMs : Int) (now : Reading w) : Decidable (SecondsFit timeoutMs now) :=
  inferInstanceAs (Decidable (_ ≤ w.longMax))

/-- The timer is set and normalised, and from then on it has expired exactly when the timeout
has passed, to the nanosecond. -/
def DeadlineExact (v : LongWidth) (timeoutMs : Int) (now : Reading w)
    (set : Option (Option Shadow.Timespec)) : Prop :=
  ∃ timer : Shadow.Timespec, set = some (some timer) ∧
    (0 ≤ timer.nsec ∧ timer.nsec < 1000000000) ∧
    ∀ later : Reading w, timeIsexpired w v (some timer) later.toTimespec =
      some (decide (timeoutMs * 1000000 ≤ later.nanos - now.nanos))

end Meant

/-! ## Sums and differences -/

/-- A time in a `ezos_timespec_t`. -/
def ofDigits (x : TwoDigits 1000000000) : Shadow.Timespec := ⟨x.high, x.low⟩

/-- A timeout as seconds and nanoseconds. -/
def intervalOf (timeoutMs : Int) : TwoDigits 1000000000 :=
  ⟨timeoutMs / 1000, timeoutMs % 1000 * 1000000, by omega, by omega⟩

theorem value_intervalOf (timeoutMs : Int) : (intervalOf timeoutMs).value = timeoutMs * 1000000 := by
  show timeoutMs / 1000 * 1000000000 + timeoutMs % 1000 * 1000000 = timeoutMs * 1000000
  omega

section Sums

variable {w v : LongWidth} {x y : TwoDigits 1000000000}

theorem long_eq_none {i : Int} (h : w.longMax < i) : w.long i = none := by
  unfold LongWidth.long
  rw [if_neg]
  omega

theorem addTimespec_eq (hx : 0 ≤ x.high) (hy : 0 ≤ y.high) :
    addTimespec w v (ofDigits x) (ofDigits y) =
      if (x.add y).high ≤ w.longMax then some (ofDigits (x.add y)) else none := by
  have hv := v.billion_le
  have hx0 := x.low_nonneg
  have hx1 := x.low_lt
  have hy0 := y.low_nonneg
  have hy1 := y.low_lt
  have hnsec : v.long (x.low + y.low) = some (x.low + y.low) :=
    LongWidth.long_eq (by omega) (by omega)
  unfold addTimespec ofDigits TwoDigits.add
  by_cases hsum : x.high + y.high ≤ w.longMax
  · have hsec : w.long (x.high + y.high) = some (x.high + y.high) :=
      LongWidth.long_eq (by omega) hsum
    simp only [hsec, hnsec, Option.bind_eq_bind, Option.bind_some]
    by_cases hcarry : 1000000000 ≤ x.low + y.low
    · have hnsec' : v.long (x.low + y.low - 1000000000) = some (x.low + y.low - 1000000000) :=
        LongWidth.long_eq (by omega) (by omega)
      simp only [if_pos hcarry, dif_pos hcarry]
      by_cases hfits : x.high + y.high + 1 ≤ w.longMax
      · have hsec' : w.long (x.high + y.high + 1) = some (x.high + y.high + 1) :=
          LongWidth.long_eq (by omega) hfits
        rw [hsec', hnsec', if_pos hfits]
        rfl
      · have hsec' : w.long (x.high + y.high + 1) = none := long_eq_none (by omega)
        rw [hsec', if_neg hfits]
        rfl
    · simp only [if_neg hcarry, dif_neg hcarry]
      rw [if_pos hsum]
  · have hsec : w.long (x.high + y.high) = none := long_eq_none (by omega)
    rw [hsec, if_neg]
    · rfl
    · split
      · show ¬ x.high + y.high + 1 ≤ w.longMax
        omega
      · exact hsum

/-- A time has come when the difference to it is not positive. -/
theorem decide_value_le (x : TwoDigits 1000000000) (later : Reading w) :
    decide (x.value ≤ later.nanos) = decide ((x.sub later.digits).high < 0 ∨
      (x.sub later.digits).high = 0 ∧ (x.sub later.digits).low ≤ 0) := by
  rw [decide_eq_decide, ← TwoDigits.value_nonpos_iff, TwoDigits.value_sub, Reading.nanos]
  omega

theorem timeIsexpired_eq (hx : 0 ≤ x.high) (hx' : x.high ≤ w.longMax) (later : Reading w) :
    timeIsexpired w v (some (ofDigits x)) later.toTimespec =
      some (decide (x.value ≤ later.nanos)) := by
  have hv := v.billion_le
  have hx0 := x.low_nonneg
  have hx1 := x.low_lt
  have hl0 := later.nsec_nonneg
  have hl1 := later.nsec_lt
  have hs0 := later.sec_nonneg
  have hs1 := later.sec_le
  have hsec : w.long (x.high - later.sec) = some (x.high - later.sec) :=
    LongWidth.long_eq (by omega) (by omega)
  have hnsec : v.long (x.low - later.nsec) = some (x.low - later.nsec) :=
    LongWidth.long_eq (by omega) (by omega)
  rw [decide_value_le]
  unfold timeIsexpired ofDigits TwoDigits.sub Reading.digits
  simp only [hsec, hnsec, Option.bind_eq_bind, Option.bind_some]
  by_cases hborrow : x.low - later.nsec < 0
  · have hsec' : w.long (x.high - later.sec - 1) = some (x.high - later.sec - 1) := by
      unfold LongWidth.long
      rw [if_pos]
      omega
    have hnsec' : v.long (x.low - later.nsec + 1000000000) =
        some (x.low - later.nsec + 1000000000) := LongWidth.long_eq (by omega) (by omega)
    simp only [if_pos hborrow, dif_pos hborrow, hsec', hnsec', Option.bind_some]
  · simp only [if_neg hborrow, dif_neg hborrow]

def deadline (timeoutMs : Int) (now : Reading w) : TwoDigits 1000000000 :=
  (intervalOf timeoutMs).add now.digits

theorem value_deadline (timeoutMs : Int) (now : Reading w) :
    (deadline timeoutMs now).value = now.nanos + timeoutMs * 1000000 := by
  rw [deadline, TwoDigits.value_add, value_intervalOf, Int.add_comm]
  rfl

theorem secondsFit_iff {timeoutMs : Int} {now : Reading w} :
    SecondsFit timeoutMs now ↔ (deadline timeoutMs now).high ≤ w.longMax := by
  rw [SecondsFit, TwoDigits.high_eq, value_deadline]

theorem deadline_nonneg {timeoutMs : Int} (hpos : 0 ≤ timeoutMs) (now : Reading w) :
    0 ≤ (deadline timeoutMs now).high := by
  rw [TwoDigits.high_eq, value_deadline]
  have hnow : 0 ≤ now.nanos := by
    have hs := now.sec_nonneg
    have hn := now.nsec_nonneg
    show 0 ≤ now.sec * 1000000000 + now.nsec
    omega
  omega

theorem addTimespec_deadline {timeoutMs : Int} (hpos : 0 ≤ timeoutMs) (now : Reading w) :
    addTimespec w v (ofDigits (intervalOf timeoutMs)) now.toTimespec =
      if SecondsFit timeoutMs now then some (ofDigits (deadline timeoutMs now)) else none := by
  have hinterval : 0 ≤ (intervalOf timeoutMs).high := Int.ediv_nonneg hpos (by decide)
  have hsum := addTimespec_eq (w := w) (v := v) hinterval (y := now.digits) now.sec_nonneg
  simp only [secondsFit_iff]
  exact hsum

/-- A timer that is set to a sum. -/
theorem deadlineExact_iff {timeoutMs : Int} {now : Reading w} (hpos : 0 ≤ timeoutMs) :
    DeadlineExact v timeoutMs now
        ((addTimespec w v (ofDigits (intervalOf timeoutMs)) now.toTimespec).map some) ↔
      SecondsFit timeoutMs now := by
  rw [addTimespec_deadline hpos]
  constructor
  · rintro ⟨timer, hset, -⟩
    by_contra hlarge
    rw [if_neg hlarge] at hset
    cases hset
  · intro hfits
    rw [if_pos hfits]
    refine ⟨_, rfl, ⟨TwoDigits.low_nonneg _, TwoDigits.low_lt _⟩, fun later => ?_⟩
    rw [timeIsexpired_eq (deadline_nonneg hpos now) (secondsFit_iff.mp hfits), value_deadline]
    congr 1
    rw [decide_eq_decide]
    omega

theorem timeCountdown_eq {timeoutMs : Int} (hpos : 0 ≤ timeoutMs) (timer now : Shadow.Timespec) :
    timeCountdown w v (some timer) timeoutMs now =
      (addTimespec w v (ofDigits (intervalOf timeoutMs)) now).map some := by
  have hv := v.billion_le
  have hdiv : timeoutMs.tdiv 1000 = timeoutMs / 1000 := Int.tdiv_eq_ediv_of_nonneg hpos
  have hmod : timeoutMs.tmod 1000 = timeoutMs % 1000 := Int.tmod_eq_emod_of_nonneg hpos
  have hnsec : v.long (timeoutMs % 1000 * 1000000) = some (timeoutMs % 1000 * 1000000) :=
    LongWidth.long_eq (by omega) (by omega)
  unfold timeCountdown
  rw [hmod, hnsec, hdiv]
  rfl

theorem ezcoreTimeCountdown_eq (timeCount : UInt32) (timer now : Shadow.Timespec) :
    ezcoreTimeCountdown w v (some timer) timeCount now =
      (addTimespec w v (ofDigits (intervalOf timeCount.toNat)) now).map some := by
  have hsec : (timeCount / 1000).toNat = timeCount.toNat / 1000 := UInt32.toNat_div _ _
  have hnsec : (timeCount % 1000 * 1000000).toNat = timeCount.toNat % 1000 * 1000000 := by
    rw [UInt32.toNat_mul, UInt32.toNat_mod]
    show timeCount.toNat % 1000 * 1000000 % 4294967296 = _
    omega
  unfold ezcoreTimeCountdown
  rw [hsec, hnsec]
  rfl

end Sums

/-- A timer that is set by either function expires exactly at its deadline if and only if the
seconds of the deadline fit. -/
theorem deadline_exact (w v : LongWidth) (timer : Shadow.Timespec) (now : Reading w) :
    (∀ timeoutMs, 0 ≤ timeoutMs →
      (DeadlineExact v timeoutMs now (timeCountdown w v (some timer) timeoutMs now.toTimespec) ↔
        SecondsFit timeoutMs now)) ∧
    ∀ timeCount : UInt32,
      (DeadlineExact v timeCount.toNat now
          (ezcoreTimeCountdown w v (some timer) timeCount now.toTimespec) ↔
        SecondsFit timeCount.toNat now) := by
  constructor
  · intro timeoutMs hpos
    rw [timeCountdown_eq hpos]
    exact deadlineExact_iff hpos
  · intro timeCount
    rw [ezcoreTimeCountdown_eq]
    exact deadlineExact_iff (Int.natCast_nonneg _)

/-- The last nanosecond before the last second of a `long` with 32 bits. -/
def lateReading : Reading .bits32 :=
  ⟨⟨2147483646, 999999999⟩, by decide, by decide, by decide, by decide⟩

/-- A millisecond later the seconds have been carried into. -/
theorem deadline_exact_carried : DeadlineExact .bits32 1 lateReading
    (timeCountdown .bits32 .bits32 (some ⟨0, 0⟩) 1 lateReading.toTimespec) :=
  ((deadline_exact .bits32 .bits32 ⟨0, 0⟩ lateReading).1 1 (by decide)).mpr (by decide)

/-! ## The timers of the shadow -/

section Timers

variable {w v : LongWidth}

theorem shadow_timeCountdown (timeoutMs : Nat) (now : Reading w) :
    Shadow.timeCountdown timeoutMs now.toTimespec =
      ofDigits (deadline timeoutMs now) := by
  unfold Shadow.timeCountdown ofDigits deadline TwoDigits.add intervalOf Reading.digits
  push_cast
  by_cases hcarry : (1000000000 : Int) ≤ timeoutMs % 1000 * 1000000 + now.nsec
  · simp only [if_pos hcarry, dif_pos hcarry]
  · simp only [if_neg hcarry, dif_neg hcarry]

theorem shadow_timeIsexpired (x : TwoDigits 1000000000) (later : Reading w) :
    Shadow.timeIsexpired (ofDigits x) later.toTimespec = decide (x.value ≤ later.nanos) := by
  rw [decide_value_le]
  unfold Shadow.timeIsexpired ofDigits TwoDigits.sub Reading.digits
  by_cases hborrow : x.low - later.nsec < 0
  · simp only [if_pos hborrow, dif_pos hborrow, Bool.decide_or, Bool.decide_and]
    rfl
  · simp only [if_neg hborrow, dif_neg hborrow, Bool.decide_or, Bool.decide_and]
    rfl

/-- Where the seconds fit, the timers of the shadow are set and looked at without overflow. -/
theorem shadow_timer (timer : Shadow.Timespec) (timeoutMs : Nat) (now : Reading w)
    (hfits : SecondsFit timeoutMs now) :
    timeCountdown w v (some timer) timeoutMs now.toTimespec =
        some (some (Shadow.timeCountdown timeoutMs now.toTimespec)) ∧
      ∀ later : Reading w,
        timeIsexpired w v (some (Shadow.timeCountdown timeoutMs now.toTimespec))
            later.toTimespec =
          some (Shadow.timeIsexpired (Shadow.timeCountdown timeoutMs now.toTimespec)
            later.toTimespec) := by
  have hpos : (0 : Int) ≤ timeoutMs := Int.natCast_nonneg _
  rw [timeCountdown_eq hpos, shadow_timeCountdown, addTimespec_deadline hpos, if_pos hfits]
  refine ⟨rfl, fun later => ?_⟩
  rw [timeIsexpired_eq (deadline_nonneg hpos now) (secondsFit_iff.mp hfits), shadow_timeIsexpired]

end Timers

end EzIot.Ezutil
