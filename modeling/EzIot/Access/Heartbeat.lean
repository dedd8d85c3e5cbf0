import EzIot.Access.Counters
import EzIot.Lib.Run

/-! # Supervision of the heartbeat

`das_yield` compares the time since the last packet with twice the interval that the
server has set. The interval is an `int` of a message stored as 32 unsigned bits; the
times are differences of `long`, which has 32 bits on the small boards and 64 on Linux.
-/

namespace EzIot.Access

open CText CJson Kernel Run

/-! ## Times -/

/-- `ezos_timespec_t` as `ezos_get_clock` fills it. -/
structure Timespec where
  tvSec : Int
  tvNsec : Int
  nsec_nonneg : 0 ≤ tvNsec
  nsec_lt : tvNsec < 1000000000

def Timespec.nanos (t : Timespec) : Int := t.tvSec * 1000000000 + t.tvNsec

/-- The milliseconds from one time to another, rounded down. -/
def elapsedMs (a b : Timespec) : Int := (b.nanos - a.nanos) / 1000000

inductive LongWidth
  | bits32
  | bits64

def LongWidth.longMax : LongWidth → Int
  | .bits32 => 2147483647
  | .bits64 => 9223372036854775807

/-- The value of a `long` expression; signed overflow has none. -/
def LongWidth.long (w : LongWidth) (i : Int) : Option Int :=
  if -w.longMax - 1 ≤ i ∧ i ≤ w.longMax then some i else none

/-- `a > b` for a `long` and an `unsigned int`: with 32 bits both become unsigned. -/
def LongWidth.exceeds (w : LongWidth) (a : Int) (b : UInt32) : Bool :=
  match w with
  | .bits32 => decide (b < UInt32.ofInt a)
  | .bits64 => decide ((b.toNat : Int) < a)

/-- `ezcore_time_isexpired_bydiff` at the time `now`. -/
def ezcoreTimeIsexpiredBydiff (w : LongWidth) (assignTimer now : Timespec) (timeMs : UInt32) :
    Option Bool := do
  let sec ← w.long (now.tvSec - assignTimer.tvSec)
  let nsec ← w.long (now.tvNsec - assignTimer.tvNsec)
  let sec ← if nsec < 0 then w.long (sec - 1) else some sec
  let nsec ← if nsec < 0 then w.long (nsec + 1000000000) else some nsec
  let ms ← w.long (sec * 1000)
  let ms ← w.long (ms + nsec / 1000000)
  some (w.exceeds ms timeMs)

/-! ## The supervision -/

/-- The connection with the members of `g_DasClient` for the heartbeat, and the last
time anything was looked at. -/
structure Beat where
  link : Link
  keepAliveInterval : UInt32
  endTime : Timespec
  clock : Timespec

/-- A packet that `cycle` reads, and the messages it carries. -/
structure Packet where
  time : Timespec
  msgs : List Submsg

/-- The part of `cycle` for the supervision: the time is stored before the messages
are handled. -/
def cycle (s : Beat) (p : Packet) : Beat :=
  { s with link := deliver p.msgs s.link, endTime := p.time, clock := p.time }

/-- What happens during `das_yield`: packets in `MQTTYield` and its failure, the clock
for the comparison, and packets while messages are sent. -/
structure YieldInput where
  packets : List Packet
  failed : Bool
  now : Timespec
  sendPackets : List Packet
  sendReconnect : Bool
  acked : Bool

/-- What `das_yield` reports. -/
inductive Report
  | socketError
  | heartTimeout
  | alive
deriving DecidableEq

/-- `das_yield`. There is no result where the difference of the times overflows. -/
def Beat.dasYield (w : LongWidth) (y : YieldInput) (s : Beat) : Option (Report × Nat × Beat) :=
  let s := y.packets.foldl cycle s
  if y.failed then some (.socketError, Code.dasNeedReconnect, s)
  else
    let s := { s with
      keepAliveInterval :=
        if s.keepAliveInterval ≠ s.link.kernel.dasKeepaliveInterval then
          s.link.kernel.dasKeepaliveInterval
        else s.keepAliveInterval
      clock := y.now }
    match ezcoreTimeIsexpiredBydiff w s.endTime y.now (s.keepAliveInterval * 2000) with
    | none => none
    | some true => some (.heartTimeout, Code.dasNeedReconnect, s)
    | some false =>
        let s := y.sendPackets.foldl cycle s
        if y.sendReconnect then some (.alive, Code.dasNeedReconnect, s)
        else some (.alive, Code.succ,
          { s with link := if y.acked then s.link.mark (.event .publishAck) else s.link })

/-- `MQTTConnect`: the option for the interval has 16 bits. -/
def mqttConnect (time : Timespec) (s : Beat) : Beat :=
  { s with
    keepAliveInterval := s.link.kernel.dasKeepaliveInterval.toUInt16.toUInt32
    endTime := time
    clock := time }

/-- What happens to the connection: a connect, a packet while a call waits, a yield. -/
inductive Moment
  | connect (time : Timespec)
  | packet (p : Packet)
  | yield (y : YieldInput)

def Beat.step (w : LongWidth) (s : Beat) : Moment → Option Beat
  | .connect time => some (mqttConnect time s)
  | .packet p => some (cycle s p)
  | .yield y => (s.dasYield w y).map fun r => r.2.2

/-- The state after `ez_kernel_init` and the first `MQTTConnect`. -/
def Beat.start (serverName : CString) (serverPort : Int16) (devInfo : DevInfo)
    (devid masterKey : Bytes) (time : Timespec) : Beat :=
  mqttConnect time
    ⟨linkInit serverName serverPort devInfo devid masterKey, 0, time, time⟩

abbrev Beat.interval (s : Beat) : UInt32 := s.link.kernel.dasKeepaliveInterval

/-! ## Messages that set the interval -/

/-- The `valueint` of the number `KeepAlive.Interval`. -/
def configInterval (buf : Option Bytes) : Option Int :=
  match buf.bind cJSONParse with
  | none => none
  | some root =>
      match root.getObjectItem (ascii "KeepAlive") with
      | none => none
      | some keepalive =>
          match keepalive.getObjectItem (ascii "Interval") with
          | some (.number interval) => some interval.valueint
          | _ => none

def Submsg.interval : Submsg → Option Int
  | .domainConfig buf => configInterval buf
  | _ => none

theorem busHandleDomainconfig_interval (buf : Option Bytes) (k : SdkKernel) :
    (busHandleDomainconfig buf k).dasKeepaliveInterval =
      ((configInterval buf).map UInt32.ofInt).getD k.dasKeepaliveInterval := by
  unfold busHandleDomainconfig configInterval
  cases buf.bind cJSONParse with
  | none => rfl
  | some root =>
      dsimp only
      cases root.getObjectItem (ascii "KeepAlive") with
      | none => rfl
      | some keepalive =>
          dsimp only
          cases keepalive.getObjectItem (ascii "Interval") with
          | none => rfl
          | some interval => cases interval <;> rfl

theorem accessDomainBusHandle_interval (a : Link) (m : Submsg) :
    (accessDomainBusHandle a m).kernel.dasKeepaliveInterval =
      (m.interval.map UInt32.ofInt).getD a.kernel.dasKeepaliveInterval := by
  cases m with
  | domainConfig buf => exact busHandleDomainconfig_interval buf a.kernel
  | setLbsDomainName name =>
      simp only [accessDomainBusHandle, busHandleDevRedirect]
      split
      · rfl
      · split <;> rfl
  | _ => rfl

/-- The largest multiple of 2000 that a product of 32 bits holds and a `long` of
milliseconds exceeds lies below this bound. -/
def LongWidth.limit : LongWidth → Int
  | .bits32 => 2147483647
  | .bits64 => 4294967296

/-- An interval that `das_yield` can measure. -/
def LongWidth.Measurable (w : LongWidth) (interval : Int) : Prop :=
  0 < interval ∧ 2000 * interval < w.limit

instance (w : LongWidth) (interval : Int) : Decidable (w.Measurable interval) :=
  inferInstanceAs (Decidable (_ ∧ _))

/-- Every message that sets the interval sets one that can be measured. -/
def MeasurableMsgs (w : LongWidth) (msgs : List Submsg) : Prop :=
  ∀ m ∈ msgs, ∀ i, m.interval = some i → w.Measurable i

theorem LongWidth.limit_le (w : LongWidth) : w.limit ≤ 4294967296 ∧ w.limit ≤ w.longMax := by
  cases w <;> simp [LongWidth.limit, LongWidth.longMax]

theorem LongWidth.Measurable.toNat_ofInt {w : LongWidth} {i : Int} (h : w.Measurable i) :
    ((UInt32.ofInt i).toNat : Int) = i := by
  have hlimit := w.limit_le
  obtain ⟨hpos, hlt⟩ := h
  simp only [UInt32.ofInt, UInt32.toNat_ofNat']
  omega

theorem deliver_measurable {w : LongWidth} {msgs : List Submsg} (hmsgs : MeasurableMsgs w msgs)
    {a : Link} (ha : w.Measurable a.kernel.dasKeepaliveInterval.toNat) :
    w.Measurable (deliver msgs a).kernel.dasKeepaliveInterval.toNat := by
  induction msgs generalizing a with
  | nil => exact ha
  | cons m msgs ih =>
      refine ih (fun m' hm' => hmsgs m' (List.mem_cons_of_mem _ hm')) ?_
      rw [accessDomainBusHandle_interval]
      cases hi : m.interval with
      | none => exact ha
      | some i =>
          have hm := hmsgs m List.mem_cons_self i hi
          change w.Measurable (UInt32.ofInt i).toNat
          rw [hm.toNat_ofInt]
          exact hm

/-! ## The comparison -/

theorem LongWidth.long_eq {w : LongWidth} {i : Int} (hlow : -w.longMax ≤ i) (hhigh : i ≤ w.longMax) :
    w.long i = some i := by
  unfold LongWidth.long
  rw [if_pos]
  omega

theorem LongWidth.exceeds_eq {w : LongWidth} {a : Int} (b : UInt32) (hlow : 0 ≤ a)
    (hhigh : a ≤ w.longMax) : w.exceeds a b = decide ((b.toNat : Int) < a) := by
  cases w with
  | bits64 => rfl
  | bits32 =>
      have ha : a ≤ 2147483647 := hhigh
      simp only [LongWidth.exceeds, UInt32.lt_iff_toNat_lt, UInt32.ofInt, UInt32.toNat_ofNat']
      rw [decide_eq_decide]
      omega

theorem LongWidth.billion_le (w : LongWidth) : 2147483647 ≤ w.longMax := by
  cases w <;> simp [LongWidth.longMax]

/-- The borrow between seconds and nanoseconds leaves the difference in milliseconds,
rounded down. -/
theorem ezcoreTimeIsexpiredBydiff_eq {w : LongWidth} {assignTimer now : Timespec} (timeMs : UInt32)
    (hle : assignTimer.nanos ≤ now.nanos) (hfits : elapsedMs assignTimer now ≤ w.longMax) :
    ezcoreTimeIsexpiredBydiff w assignTimer now timeMs =
      some (decide ((timeMs.toNat : Int) < elapsedMs assignTimer now)) := by
  have hbillion := w.billion_le
  have ha := assignTimer.nsec_nonneg
  have ha' := assignTimer.nsec_lt
  have hn := now.nsec_nonneg
  have hn' := now.nsec_lt
  unfold elapsedMs Timespec.nanos at *
  unfold ezcoreTimeIsexpiredBydiff
  have hsec : w.long (now.tvSec - assignTimer.tvSec) = some (now.tvSec - assignTimer.tvSec) :=
    LongWidth.long_eq (by omega) (by omega)
  have hnsec : w.long (now.tvNsec - assignTimer.tvNsec) = some (now.tvNsec - assignTimer.tvNsec) :=
    LongWidth.long_eq (by omega) (by omega)
  by_cases hborrow : now.tvNsec - assignTimer.tvNsec < 0
  · have hsec' : w.long (now.tvSec - assignTimer.tvSec - 1) =
        some (now.tvSec - assignTimer.tvSec - 1) := LongWidth.long_eq (by omega) (by omega)
    have hnsec' : w.long (now.tvNsec - assignTimer.tvNsec + 1000000000) =
        some (now.tvNsec - assignTimer.tvNsec + 1000000000) := LongWidth.long_eq (by omega) (by omega)
    have hms : w.long ((now.tvSec - assignTimer.tvSec - 1) * 1000) =
        some ((now.tvSec - assignTimer.tvSec - 1) * 1000) := LongWidth.long_eq (by omega) (by omega)
    have hsum : (now.tvSec - assignTimer.tvSec - 1) * 1000 +
          (now.tvNsec - assignTimer.tvNsec + 1000000000) / 1000000 =
        (now.tvSec * 1000000000 + now.tvNsec -
          (assignTimer.tvSec * 1000000000 + assignTimer.tvNsec)) / 1000000 := by omega
    have hlong := LongWidth.long_eq (w := w) (by omega) hfits
    simp only [hsec, hnsec, Option.bind_eq_bind, Option.bind_some, if_pos hborrow, hsec', hnsec', hms,
      hsum, hlong]
    rw [LongWidth.exceeds_eq timeMs (by omega) hfits]
  · have hms : w.long ((now.tvSec - assignTimer.tvSec) * 1000) =
        some ((now.tvSec - assignTimer.tvSec) * 1000) := LongWidth.long_eq (by omega) (by omega)
    have hsum : (now.tvSec - assignTimer.tvSec) * 1000 +
          (now.tvNsec - assignTimer.tvNsec) / 1000000 =
        (now.tvSec * 1000000000 + now.tvNsec -
          (assignTimer.tvSec * 1000000000 + assignTimer.tvNsec)) / 1000000 := by omega
    have hlong := LongWidth.long_eq (w := w) (by omega) hfits
    simp only [hsec, hnsec, Option.bind_eq_bind, Option.bind_some, if_neg hborrow, hms, hsum, hlong]
    rw [LongWidth.exceeds_eq timeMs (by omega) hfits]

/-! ## Steps -/

/-- The times at which something is looked at, in their order. -/
def Moment.times : Moment → List Timespec
  | .connect time => [time]
  | .packet p => [p.time]
  | .yield y => y.packets.map Packet.time ++ y.now :: y.sendPackets.map Packet.time

def Moment.msgs : Moment → List Submsg
  | .connect _ => []
  | .packet p => p.msgs
  | .yield y => (y.packets ++ y.sendPackets).flatMap Packet.msgs

/-- The clock does not go back. -/
def Monotone (times : List Timespec) : Prop := times.Pairwise fun a b => a.nanos ≤ b.nanos

/-- A yield compares times whose difference in milliseconds is a `long`. -/
def Beat.Comparable (w : LongWidth) (s : Beat) : Moment → Prop
  | .yield y => elapsedMs (y.packets.foldl cycle s).endTime y.now ≤ w.longMax
  | _ => True

/-- A moment on a clock that does not go back. -/
structure Beat.Timely (w : LongWidth) (s : Beat) (i : Moment) : Prop where
  monotone : Monotone (s.clock :: i.times)
  comparable : s.Comparable w i

structure Beat.Ok (w : LongWidth) (s : Beat) (i : Moment) : Prop extends s.Timely w i where
  measurable : MeasurableMsgs w i.msgs

structure Beat.Inv (w : LongWidth) (s : Beat) : Prop where
  interval : w.Measurable s.interval.toNat
  recorded : s.endTime.nanos ≤ s.clock.nanos
  comparable : elapsedMs s.endTime s.clock ≤ w.longMax

theorem elapsedMs_self (t : Timespec) : elapsedMs t t = 0 := by
  simp [elapsedMs]

theorem LongWidth.longMax_nonneg (w : LongWidth) : 0 ≤ w.longMax := by
  have h := w.billion_le
  omega

theorem cycle_inv {w : LongWidth} {s : Beat} {p : Packet} (hs : s.Inv w)
    (hmsgs : MeasurableMsgs w p.msgs) : (cycle s p).Inv w := by
  refine ⟨deliver_measurable hmsgs hs.interval, Int.le_refl _, ?_⟩
  change elapsedMs p.time p.time ≤ w.longMax
  rw [elapsedMs_self]
  exact w.longMax_nonneg

theorem MeasurableMsgs.of_subset {w : LongWidth} {msgs msgs' : List Submsg}
    (h : MeasurableMsgs w msgs) (hsub : ∀ m ∈ msgs', m ∈ msgs) : MeasurableMsgs w msgs' :=
  fun m hm => h m (hsub m hm)

theorem cycles_inv {w : LongWidth} {ps : List Packet} {s : Beat} (hs : s.Inv w)
    (hmsgs : MeasurableMsgs w (ps.flatMap Packet.msgs)) : (ps.foldl cycle s).Inv w := by
  induction ps generalizing s with
  | nil => exact hs
  | cons p ps ih =>
      rw [List.flatMap_cons] at hmsgs
      have hfirst : (cycle s p).Inv w :=
        cycle_inv hs (hmsgs.of_subset fun m hm => List.mem_append_left _ hm)
      exact ih hfirst (hmsgs.of_subset fun m hm => List.mem_append_right _ hm)

theorem clock_packets_le (ts : List Timespec) {ps : List Packet} {s : Beat} {t : Timespec}
    (h : Monotone (s.clock :: (ps.map Packet.time ++ t :: ts))) :
    (ps.foldl cycle s).clock.nanos ≤ t.nanos := by
  induction ps generalizing s with
  | nil => exact (List.pairwise_cons.mp h).1 t List.mem_cons_self
  | cons p ps ih => exact ih (List.pairwise_cons.mp h).2

/-- The last activity lies more than twice the interval back. -/
def Beat.Late (s : Beat) (now : Timespec) : Prop :=
  2 * s.interval.toNat * 1000 < elapsedMs s.endTime now

instance (s : Beat) (now : Timespec) : Decidable (s.Late now) := inferInstanceAs (Decidable (_ < _))

theorem LongWidth.Measurable.product {w : LongWidth} {n : UInt32} (h : w.Measurable n.toNat) :
    (n * 2000).toNat = 2000 * n.toNat := by
  have hlimit := w.limit_le
  have hlt := h.2
  have hfactor : (2000 : UInt32).toNat = 2000 := rfl
  rw [UInt32.toNat_mul, hfactor]
  omega

theorem Beat.Inv.isexpired {w : LongWidth} {s : Beat} {now : Timespec} (hs : s.Inv w)
    (hnow : s.clock.nanos ≤ now.nanos) (hfits : elapsedMs s.endTime now ≤ w.longMax) :
    ezcoreTimeIsexpiredBydiff w s.endTime now (s.interval * 2000) = some (decide (s.Late now)) := by
  rw [ezcoreTimeIsexpiredBydiff_eq _ (Int.le_trans hs.recorded hnow) hfits, hs.interval.product]
  congr 1
  rw [decide_eq_decide]
  unfold Beat.Late
  omega

theorem updated_interval (a b : UInt32) : (if a ≠ b then b else a) = b := by
  by_cases h : a = b
  · rw [if_neg (not_not_intro h), h]
  · rw [if_pos h]

structure Beat.Yielded (w : LongWidth) (y : YieldInput) (s : Beat) (r : Report × Nat × Beat) :
    Prop where
  socketError : r.1 = .socketError ↔ y.failed = true
  heartTimeout : r.1 = .heartTimeout ↔
    y.failed = false ∧ (y.packets.foldl cycle s).Late y.now
  code : r.1 ≠ .alive → r.2.1 = Code.dasNeedReconnect
  inv : r.2.2.Inv w

theorem dasYield_yielded {w : LongWidth} {y : YieldInput} {s : Beat} (hs : s.Inv w)
    (hok : s.Ok w (.yield y)) : ∃ r, s.dasYield w y = some r ∧ s.Yielded w y r := by
  have hmsgs := hok.measurable
  change MeasurableMsgs w ((y.packets ++ y.sendPackets).flatMap Packet.msgs) at hmsgs
  rw [List.flatMap_append] at hmsgs
  have hread : (y.packets.foldl cycle s).Inv w :=
    cycles_inv hs (hmsgs.of_subset fun m hm => List.mem_append_left _ hm)
  have hclock : (y.packets.foldl cycle s).clock.nanos ≤ y.now.nanos :=
    clock_packets_le (y.sendPackets.map Packet.time) hok.monotone
  have hexpired := hread.isexpired hclock hok.comparable
  unfold Beat.dasYield
  cases hfailed : y.failed with
  | true =>
      refine ⟨_, if_pos rfl, ⟨?_, ?_, fun _ => rfl, hread⟩⟩
      · simp [hfailed]
      · simp [hfailed]
  | false =>
      rw [if_neg Bool.false_ne_true]
      simp only [updated_interval, hexpired]
      have hnow : ∀ n, Beat.Inv w { y.packets.foldl cycle s with keepAliveInterval := n, clock := y.now } :=
        fun n => ⟨hread.interval, Int.le_trans hread.recorded hclock, hok.comparable⟩
      by_cases hlate : (y.packets.foldl cycle s).Late y.now
      · rw [decide_eq_true hlate]
        refine ⟨_, rfl, ⟨?_, ?_, fun _ => rfl, hnow _⟩⟩
        · simp [hfailed]
        · simp [hfailed, hlate]
      · rw [decide_eq_false hlate]
        have hsent := cycles_inv (hnow (y.packets.foldl cycle s).interval)
          (hmsgs.of_subset fun m hm => List.mem_append_right _ hm)
        dsimp only
        split
        · refine ⟨_, rfl, ⟨?_, ?_, fun _ => rfl, hsent⟩⟩
          · simp [hfailed]
          · simp [hlate]
        · refine ⟨_, rfl, ⟨?_, ?_, fun h => absurd rfl h, ?_⟩⟩
          · simp [hfailed]
          · simp [hlate]
          · split
            · exact ⟨hsent.interval, hsent.recorded, hsent.comparable⟩
            · exact hsent

theorem step_inv {w : LongWidth} {s s' : Beat} {i : Moment} (hs : s.Inv w) (hok : s.Ok w i)
    (h : s.step w i = some s') : s'.Inv w := by
  cases i with
  | connect time =>
      cases h
      refine ⟨hs.interval, Int.le_refl _, ?_⟩
      change elapsedMs time time ≤ w.longMax
      rw [elapsedMs_self]
      exact w.longMax_nonneg
  | packet p =>
      cases h
      exact cycle_inv hs hok.measurable
  | yield y =>
      obtain ⟨r, hr, hy⟩ := dasYield_yielded hs hok
      simp only [Beat.step, hr, Option.map_some, Option.some.injEq] at h
      rw [← h]
      exact hy.inv

/-- The rest of `das_yield` is the one of the state machine. -/
theorem Beat.dasYield_link {w : LongWidth} {y : YieldInput} {s : Beat} {r : Report × Nat × Beat}
    (h : s.dasYield w y = some r) :
    EzIot.Access.dasYield
        ⟨y.packets.flatMap Packet.msgs, y.failed, decide (r.1 = .heartTimeout),
          y.sendPackets.flatMap Packet.msgs, y.sendReconnect, y.acked⟩ s.link =
      (r.2.1, r.2.2.link) := by
  have hlink : ∀ (ps : List Packet) (s : Beat),
      (ps.foldl cycle s).link = deliver (ps.flatMap Packet.msgs) s.link := by
    intro ps
    induction ps with
    | nil => exact fun _ => rfl
    | cons p ps ih =>
        intro s
        rw [List.foldl_cons, ih, List.flatMap_cons, deliver, deliver, List.foldl_append]
        rfl
  unfold Beat.dasYield at h
  unfold EzIot.Access.dasYield
  rw [← hlink y.packets s]
  by_cases hfailed : y.failed = true
  · rw [if_pos hfailed] at h
    cases h
    simp only [hfailed, if_true]
  · rw [if_neg hfailed] at h
    dsimp only at h
    split at h
    · cases h
    · cases h
      simp only [hfailed, decide_true, if_true, Bool.false_eq_true, if_false]
    · split at h <;> cases h
      · simp only [hfailed, reduceCtorEq, decide_false, Bool.false_eq_true, if_false, hlink,
          ‹y.sendReconnect = true›, if_true]
      · simp only [hfailed, reduceCtorEq, decide_false, Bool.false_eq_true, if_false, hlink,
          ‹¬y.sendReconnect = true›]

/-! ## Runs -/

def Timespec.ofNanos (n : Int) : Timespec where
  tvSec := n / 1000000000
  tvNsec := n % 1000000000
  nsec_nonneg := by omega
  nsec_lt := by omega

@[simp] theorem Timespec.nanos_ofNanos (n : Int) : (Timespec.ofNanos n).nanos = n := by
  simp only [Timespec.ofNanos, Timespec.nanos]
  omega

structure Beat.Supervised (w : LongWidth) (s : Beat) : Prop where
  stored : ∀ m i, m.interval = some i → w.Measurable i →
    ((accessDomainBusHandle s.link m).kernel.dasKeepaliveInterval.toNat : Int) = i
  positive : 0 < s.interval
  product : (s.interval * 2000).toNat = 2000 * s.interval.toNat
  reports : ∀ y, s.Ok w (.yield y) → ∃ r, s.dasYield w y = some r ∧
    (r.1 = .heartTimeout ↔ y.failed = false ∧ (y.packets.foldl cycle s).Late y.now)
  notAtOnce : ∀ y, s.Ok w (.yield y) →
    elapsedMs (y.packets.foldl cycle s).endTime y.now ≤ 2000 →
    ∃ r, s.dasYield w y = some r ∧ r.1 ≠ .heartTimeout
  notNever : ∃ now : Timespec, s.clock.nanos ≤ now.nanos ∧ ∀ y : YieldInput, y.packets = [] →
    y.failed = false → y.now = now → ∃ r, s.dasYield w y = some r ∧ r.1 = .heartTimeout

theorem Beat.Inv.exists_late {w : LongWidth} {s : Beat} (hs : s.Inv w) :
    ∃ now : Timespec, s.clock.nanos ≤ now.nanos ∧ elapsedMs s.endTime now ≤ w.longMax ∧
      s.Late now := by
  have hlimit := w.limit_le.2
  have hlt := hs.interval.2
  have hrecorded := hs.recorded
  have hcomparable := hs.comparable
  by_cases hlate : s.Late s.clock
  · exact ⟨s.clock, Int.le_refl _, hcomparable, hlate⟩
  · refine ⟨.ofNanos (s.endTime.nanos + (2 * s.interval.toNat * 1000 + 1) * 1000000), ?_, ?_, ?_⟩
    · unfold Beat.Late elapsedMs at hlate
      rw [Timespec.nanos_ofNanos]
      omega
    · rw [elapsedMs, Timespec.nanos_ofNanos]
      omega
    · rw [Beat.Late, elapsedMs, Timespec.nanos_ofNanos]
      omega

theorem Beat.Inv.supervised {w : LongWidth} {s : Beat} (hs : s.Inv w) : s.Supervised w where
  stored m i hi hm := by
    rw [accessDomainBusHandle_interval, hi]
    exact hm.toNat_ofInt
  positive := by
    have hpos := hs.interval.1
    rw [UInt32.lt_iff_toNat_lt]
    exact Int.natCast_pos.mp hpos
  product := hs.interval.product
  reports y hok := by
    obtain ⟨r, hr, hy⟩ := dasYield_yielded hs hok
    exact ⟨r, hr, hy.heartTimeout⟩
  notAtOnce y hok hearly := by
    obtain ⟨r, hr, hy⟩ := dasYield_yielded hs hok
    refine ⟨r, hr, fun htimeout => ?_⟩
    have hmsgs := hok.measurable
    change MeasurableMsgs w ((y.packets ++ y.sendPackets).flatMap Packet.msgs) at hmsgs
    rw [List.flatMap_append] at hmsgs
    have hpos := (cycles_inv hs (hmsgs.of_subset fun m hm => List.mem_append_left _ hm)).interval.1
    have hlate := (hy.heartTimeout.mp htimeout).2
    unfold Beat.Late at hlate
    omega
  notNever := by
    obtain ⟨now, hclock, hfits, hlate⟩ := hs.exists_late
    refine ⟨now, hclock, fun y hpackets hfailed hnow => ?_⟩
    have hexpired := hs.isexpired hclock hfits
    rw [decide_eq_true hlate] at hexpired
    refine ⟨(.heartTimeout, Code.dasNeedReconnect,
      { s with keepAliveInterval := s.interval, clock := now }), ?_, rfl⟩
    unfold Beat.dasYield
    simp only [hpackets, hfailed, hnow, updated_interval, hexpired, List.foldl_nil,
      Bool.false_eq_true, if_false]

theorem start_inv (w : LongWidth) (serverName : CString) (serverPort : Int16) (devInfo : DevInfo)
    (devid masterKey : Bytes) (time : Timespec) :
    (Beat.start serverName serverPort devInfo devid masterKey time).Inv w := by
  refine ⟨?_, Int.le_refl _, ?_⟩
  · change w.Measurable 30
    cases w <;> decide
  · change elapsedMs time time ≤ w.longMax
    rw [elapsedMs_self]
    exact w.longMax_nonneg

/-- The intervals that can be set are exactly the ones that are stored as they are,
whose product does not wrap, and that some number of milliseconds exceeds. -/
theorem measurable_iff (w : LongWidth) (i : Int) :
    w.Measurable i ↔ 0 < UInt32.ofInt i ∧
      ((UInt32.ofInt i * 2000).toNat : Int) = 2000 * i ∧ 2000 * i < w.longMax := by
  constructor
  · intro h
    have hstored := h.toNat_ofInt
    have hpos := h.1
    have hproduct : (UInt32.ofInt i * 2000).toNat = 2000 * (UInt32.ofInt i).toNat :=
      LongWidth.Measurable.product (w := w) (by rw [hstored]; exact h)
    refine ⟨?_, ?_, Int.lt_of_lt_of_le h.2 w.limit_le.2⟩
    · rw [UInt32.lt_iff_toNat_lt, UInt32.toNat_zero]
      omega
    · omega
  · rintro ⟨hpos, hproduct, hlong⟩
    have hlt := (UInt32.ofInt i * 2000).toNat_lt
    rw [UInt32.lt_iff_toNat_lt, UInt32.toNat_zero] at hpos
    have hne : i ≠ 0 := by
      intro hzero
      rw [hzero] at hpos
      exact absurd hpos (by decide)
    refine ⟨by omega, ?_⟩
    cases w with
    | bits32 => exact hlong
    | bits64 =>
        change 2000 * i < 4294967296
        omega

/-- While every interval can be measured, the connection is reported late exactly when
it is. -/
theorem heartbeat_supervised (w : LongWidth) (serverName : CString) (serverPort : Int16)
    (devInfo : DevInfo) (devid masterKey : Bytes) (time : Timespec) {s : Beat}
    (h : Run.Reach (Beat.step w) (Beat.Ok w)
      (Beat.start serverName serverPort devInfo devid masterKey time) s) : s.Supervised w := by
  have hinv : s.Inv w := h.invariant (I := Beat.Inv w)
    (start_inv w serverName serverPort devInfo devid masterKey time)
    fun _ _ _ hs hok hstep => step_inv hs hok hstep
  exact hinv.supervised

/-- A configuration of the server. -/
def intervalMessage (interval : String) : Submsg :=
  .domainConfig (some (ascii ("\x7b\"KeepAlive\":\x7b\"Interval\":" ++ interval ++ "\x7d\x7d")))

/-- A device that has just connected. -/
def connectedBeat : Beat :=
  .start (.lit "lbs") 8666 ⟨0, .sap, .strncpy (.lit "D1"), .strncpy (.lit "ABCDEF")⟩ [] [] (.ofNanos 0)

def intervalPacket (interval : String) : Packet := ⟨.ofNanos 5000000, [intervalMessage interval]⟩

/-- A run that meets the bounds: one minute is set. -/
theorem heartbeat_supervised_minute : ∃ s, connectedBeat.step .bits64
    (.packet (intervalPacket "60")) = some s ∧ s.interval = 60 ∧ s.Supervised .bits64 := by
  refine ⟨_, rfl, by decide +kernel, heartbeat_supervised .bits64 (.lit "lbs") 8666
    ⟨0, .sap, .strncpy (.lit "D1"), .strncpy (.lit "ABCDEF")⟩ [] [] (.ofNanos 0)
    (.next (i := .packet (intervalPacket "60")) .start ⟨⟨?_, trivial⟩, ?_⟩ rfl)⟩
  · refine List.pairwise_pair.mpr ?_
    decide
  · intro m hm i hi
    rw [List.mem_singleton.mp hm] at hi
    have h60 : (intervalMessage "60").interval = some 60 := by decide +kernel
    cases h60.symm.trans hi
    decide

/-- A yield that finds no packet. -/
def idleYield (now : Timespec) : YieldInput := ⟨[], false, now, [], false, false⟩

/-- An interval of zero is stored, and the connection is given up after one millisecond. -/
theorem zero_interval_times_out : ∃ s, connectedBeat.step .bits64
    (.packet (intervalPacket "0")) = some s ∧ s.Timely .bits64 (.yield (idleYield (.ofNanos 6000000))) ∧
      s.interval = 0 ∧ elapsedMs s.endTime (.ofNanos 6000000) = 1 ∧
      (s.dasYield .bits64 (idleYield (.ofNanos 6000000))).map Prod.fst = some .heartTimeout := by
  have hlate : elapsedMs (cycle connectedBeat (intervalPacket "0")).endTime (.ofNanos 6000000) = 1 := by
    decide +kernel
  refine ⟨_, rfl, ⟨List.pairwise_pair.mpr (by decide +kernel), ?_⟩, by decide +kernel, hlate,
    by decide +kernel⟩
  change elapsedMs _ _ ≤ (9223372036854775807 : Int)
  exact hlate.trans_le (by decide)

end EzIot.Access
