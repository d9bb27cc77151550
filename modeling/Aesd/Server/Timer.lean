import Mathlib.Algebra.Ring.Int.Defs
import Mathlib.Algebra.Ring.Nat
import Mathlib.Tactic.Lemma
import Mathlib.Tactic.SplitIfs

set_option relaxedAutoImplicit false
set_option autoImplicit false

/-!
# Arming the timer

`setup_timer` asks for the time, converts a period given in seconds and milliseconds to a
`struct timespec`, adds the two and hands both to `timer_settime`. The milliseconds are converted in
`unsigned int`, modulo `2^32`, and are not carried into the seconds; `timespec_add` carries one
second if the nanoseconds exceed `10^9`, and none if they are `10^9` exactly.

## Main definitions

* `Aesd.Timespec`, `Aesd.timespecAdd` — a time, and the sum of two.
* `Aesd.timespecDiffBeforeAfter` — the difference of two times.
* `Aesd.setupTimer` — the call, with the outcomes of the system calls.
* `Aesd.ArmsPeriod` — the timer is armed with the period asked for, from now on.

## Main results

* `Aesd.timespecAdd_cases`, `Aesd.timespecAdd_exact_iff` — what the sum is, and when it is right.
* `Aesd.timespec_diff_round_trip` — when a difference added back gives the same time.
* `Aesd.setup_timer_period` — when the timer is armed with the period asked for.
* `Aesd.setupTimer_main` — the timer of `main` is.
-/

namespace Aesd

/-! ## Times -/

/-- `struct timespec`, with 64-bit `time_t` and `long`. -/
structure Timespec where
  tvSec : Int64
  tvNsec : Int64
deriving DecidableEq, Repr

/-- `struct itimerspec`. -/
structure Itimerspec where
  itInterval : Timespec
  itValue : Timespec
deriving DecidableEq, Repr

/-- `timespec_add`. -/
def timespecAdd (ts1 ts2 : Timespec) : Timespec :=
  let tvSec := ts1.tvSec + ts2.tvSec
  let tvNsec := ts1.tvNsec + ts2.tvNsec
  if 1000000000 < tvNsec then ⟨tvSec + 1, tvNsec - 1000000000⟩ else ⟨tvSec, tvNsec⟩

namespace Timespec

/-- The time in nanoseconds. -/
def nanos (t : Timespec) : ℤ := t.tvSec.toInt * 10 ^ 9 + t.tvNsec.toInt

/-- The nanoseconds are less than a second, as the system calls require. -/
def Normal (t : Timespec) : Prop := 0 ≤ t.tvNsec.toInt ∧ t.tvNsec.toInt < 10 ^ 9

instance (t : Timespec) : Decidable t.Normal := inferInstanceAs (Decidable (_ ∧ _))

end Timespec

variable {a b now : Timespec}

/-- A result in the signed range is exact. -/
lemma bmod_eq_self_iff {x : ℤ} : Int.bmod x (2 ^ 64) = x ↔ -2 ^ 63 ≤ x ∧ x < 2 ^ 63 := by
  rw [Int.bmod_def]
  split_ifs <;> omega

/-- **What `timespec_add` does**: it carries a second if the nanoseconds exceed `10^9`. The seconds
are added modulo `2^64`. -/
lemma timespecAdd_cases (h0 : 0 ≤ a.tvNsec.toInt + b.tvNsec.toInt)
    (hlt : a.tvNsec.toInt + b.tvNsec.toInt < 2 ^ 63) :
    (10 ^ 9 < a.tvNsec.toInt + b.tvNsec.toInt ∧
      (timespecAdd a b).tvNsec.toInt = a.tvNsec.toInt + b.tvNsec.toInt - 10 ^ 9 ∧
      (timespecAdd a b).tvSec.toInt = Int.bmod (a.tvSec.toInt + b.tvSec.toInt + 1) (2 ^ 64)) ∨
    (a.tvNsec.toInt + b.tvNsec.toInt ≤ 10 ^ 9 ∧
      (timespecAdd a b).tvNsec.toInt = a.tvNsec.toInt + b.tvNsec.toInt ∧
      (timespecAdd a b).tvSec.toInt = Int.bmod (a.tvSec.toInt + b.tvSec.toInt) (2 ^ 64)) := by
  have hsum : (a.tvNsec + b.tvNsec).toInt = a.tvNsec.toInt + b.tvNsec.toInt := by
    rw [Int64.toInt_add, bmod_eq_self_iff]
    omega
  have hbillion : (1000000000 : Int64).toInt = 10 ^ 9 := by decide
  have htest : 1000000000 < a.tvNsec + b.tvNsec ↔ 10 ^ 9 < a.tvNsec.toInt + b.tvNsec.toInt := by
    rw [Int64.lt_iff_toInt_lt, hbillion, hsum]
  rw [timespecAdd]
  by_cases hcarry : 10 ^ 9 < a.tvNsec.toInt + b.tvNsec.toInt
  · left
    rw [if_pos (htest.mpr hcarry)]
    refine ⟨hcarry, ?_, ?_⟩
    · rw [Int64.toInt_sub, hsum, hbillion, bmod_eq_self_iff]
      omega
    · rw [Int64.toInt_add, Int64.toInt_add, Int.bmod_add_bmod]
      rfl
  · right
    rw [if_neg (mt htest.mp hcarry)]
    exact ⟨by omega, hsum, Int64.toInt_add _ _⟩

/-- **When a sum is right.** Two normal times, the second not negative, add up to a normal time of
as many nanoseconds exactly if their nanoseconds are not `10^9` together, where no second is carried,
and the sum fits the seconds. -/
lemma timespecAdd_exact_iff (ha : a.Normal) (hb : b.Normal) (hsec : 0 ≤ b.tvSec.toInt) :
    ((timespecAdd a b).Normal ∧ (timespecAdd a b).nanos = a.nanos + b.nanos) ↔
      a.tvNsec.toInt + b.tvNsec.toInt ≠ 10 ^ 9 ∧ a.nanos + b.nanos < 2 ^ 63 * 10 ^ 9 := by
  obtain ⟨ha0, halt⟩ := ha
  obtain ⟨hb0, hblt⟩ := hb
  have hmin := a.tvSec.le_toInt
  simp only [Timespec.Normal, Timespec.nanos]
  rcases timespecAdd_cases (a := a) (b := b) (by omega) (by omega) with
    ⟨hcarry, hnsec, hsecs⟩ | ⟨hcarry, hnsec, hsecs⟩
  · have hfit := bmod_eq_self_iff (x := a.tvSec.toInt + b.tvSec.toInt + 1)
    rw [hnsec, hsecs]
    constructor
    · rintro ⟨-, heq⟩
      have hrange := hfit.mp (by omega)
      omega
    · rintro ⟨-, hlt⟩
      rw [hfit.mpr (by omega)]
      omega
  · have hfit := bmod_eq_self_iff (x := a.tvSec.toInt + b.tvSec.toInt)
    rw [hnsec, hsecs]
    constructor
    · rintro ⟨hnormal, heq⟩
      have hrange := hfit.mp (by omega)
      omega
    · rintro ⟨hne, hlt⟩
      rw [hfit.mpr (by omega)]
      omega

/-! ## The difference of two times -/

/-- `timespec_diff_before_after`. -/
def timespecDiffBeforeAfter (tsStart tsEnd : Timespec) : Timespec :=
  let tvSec := tsEnd.tvSec - tsStart.tvSec
  if tsEnd.tvNsec < tsStart.tvNsec then
    ⟨tvSec - 1, 1000000000 - tsStart.tvNsec + tsEnd.tvNsec⟩
  else ⟨tvSec, tsEnd.tvNsec - tsStart.tvNsec⟩

/-- **What `timespec_diff_before_after` does**: it borrows a second if the nanoseconds of the start
are more than those of the end. -/
lemma timespecDiffBeforeAfter_cases (ha : a.Normal) (hb : b.Normal) (hle : a.nanos ≤ b.nanos)
    (hfits : b.tvSec.toInt - a.tvSec.toInt < 2 ^ 63) :
    (b.tvNsec.toInt < a.tvNsec.toInt ∧
      (timespecDiffBeforeAfter a b).tvNsec.toInt = 10 ^ 9 - a.tvNsec.toInt + b.tvNsec.toInt ∧
      (timespecDiffBeforeAfter a b).tvSec.toInt = b.tvSec.toInt - a.tvSec.toInt - 1) ∨
    (a.tvNsec.toInt ≤ b.tvNsec.toInt ∧
      (timespecDiffBeforeAfter a b).tvNsec.toInt = b.tvNsec.toInt - a.tvNsec.toInt ∧
      (timespecDiffBeforeAfter a b).tvSec.toInt = b.tvSec.toInt - a.tvSec.toInt) := by
  obtain ⟨ha0, halt⟩ := ha
  obtain ⟨hb0, hblt⟩ := hb
  rw [Timespec.nanos, Timespec.nanos] at hle
  have hbillion : (1000000000 : Int64).toInt = 10 ^ 9 := by decide
  have hsec : (b.tvSec - a.tvSec).toInt = b.tvSec.toInt - a.tvSec.toInt := by
    rw [Int64.toInt_sub, bmod_eq_self_iff]
    omega
  rw [timespecDiffBeforeAfter]
  by_cases hborrow : b.tvNsec.toInt < a.tvNsec.toInt
  · left
    have hrest : (1000000000 - a.tvNsec).toInt = 10 ^ 9 - a.tvNsec.toInt := by
      rw [Int64.toInt_sub, hbillion, bmod_eq_self_iff]
      omega
    rw [if_pos (Int64.lt_iff_toInt_lt.mpr hborrow)]
    refine ⟨hborrow, ?_, ?_⟩
    · rw [Int64.toInt_add, hrest, bmod_eq_self_iff]
      omega
    · rw [Int64.toInt_sub, hsec, show (1 : Int64).toInt = 1 from rfl, bmod_eq_self_iff]
      omega
  · right
    rw [if_neg (mt Int64.lt_iff_toInt_lt.mp hborrow)]
    refine ⟨by omega, ?_, hsec⟩
    rw [Int64.toInt_sub, bmod_eq_self_iff]
    omega

/-- Two times with the same seconds and nanoseconds. -/
lemma timespec_eq_iff :
    a = b ↔ a.tvSec.toInt = b.tvSec.toInt ∧ a.tvNsec.toInt = b.tvNsec.toInt := by
  constructor
  · rintro rfl
    exact ⟨rfl, rfl⟩
  · rintro ⟨hsec, hnsec⟩
    obtain ⟨_, _⟩ := a
    obtain ⟨_, _⟩ := b
    rw [Int64.toInt_inj] at hsec hnsec
    rw [Timespec.mk.injEq]
    exact ⟨hsec, hnsec⟩

/-- **A difference, and adding it back.** For normal times, the second not before the first, whose
difference fits the seconds, `timespec_diff_before_after` gives a normal time of as many nanoseconds
as lie between them. Added to the first time it gives as many nanoseconds as the second one, but it
gives the second time itself exactly if this has any nanoseconds or the first one has none;
otherwise the second that was borrowed is not carried back.

**Proof sketch.** The nanoseconds of the sum are those of the second time, with `10^9` more if a
second was borrowed, and these are carried unless they are `10^9` exactly. -/
theorem timespec_diff_round_trip (ha : a.Normal) (hb : b.Normal) (hle : a.nanos ≤ b.nanos)
    (hfits : b.tvSec.toInt - a.tvSec.toInt < 2 ^ 63) :
    (timespecDiffBeforeAfter a b).Normal ∧
      (timespecDiffBeforeAfter a b).nanos = b.nanos - a.nanos ∧
      (timespecAdd a (timespecDiffBeforeAfter a b)).nanos = b.nanos ∧
      (timespecAdd a (timespecDiffBeforeAfter a b) = b ↔
        (b.tvNsec.toInt = 0 → a.tvNsec.toInt = 0)) := by
  have hmax := b.tvSec.toInt_lt
  have hmin := a.tvSec.le_toInt
  obtain ⟨ha0, halt⟩ := ha
  obtain ⟨hb0, hblt⟩ := hb
  simp only [Timespec.Normal, Timespec.nanos, timespec_eq_iff] at hle ⊢
  rcases timespecDiffBeforeAfter_cases ⟨ha0, halt⟩ ⟨hb0, hblt⟩ hle hfits with
    ⟨hborrow, hnsec, hsec⟩ | ⟨hborrow, hnsec, hsec⟩
  · rcases timespecAdd_cases (a := a) (b := timespecDiffBeforeAfter a b) (by omega) (by omega) with
      ⟨hcarry, hnsec', hsec'⟩ | ⟨hcarry, hnsec', hsec'⟩
    · rw [bmod_eq_self_iff.mpr ⟨by omega, by omega⟩] at hsec'
      refine ⟨⟨?_, ?_⟩, ?_, ?_, ?_⟩ <;> omega
    · rw [bmod_eq_self_iff.mpr ⟨by omega, by omega⟩] at hsec'
      refine ⟨⟨?_, ?_⟩, ?_, ?_, ?_⟩ <;> omega
  · rcases timespecAdd_cases (a := a) (b := timespecDiffBeforeAfter a b) (by omega) (by omega) with
      ⟨hcarry, hnsec', hsec'⟩ | ⟨hcarry, hnsec', hsec'⟩
    · omega
    · rw [bmod_eq_self_iff.mpr ⟨by omega, by omega⟩] at hsec'
      refine ⟨⟨?_, ?_⟩, ?_, ?_, ?_⟩ <;> omega

/-- From 1.5 to 3 seconds. -/
theorem timespec_diff_round_trip_borrow :
    timespecAdd ⟨1, 500000000⟩ (timespecDiffBeforeAfter ⟨1, 500000000⟩ ⟨3, 0⟩) ≠ ⟨3, 0⟩ := by
  have h := @timespec_diff_round_trip ⟨1, 500000000⟩ ⟨3, 0⟩ (by decide) (by decide) (by decide)
    (by decide)
  exact mt h.2.2.2.mp (by decide)

/-! ## The timer -/

/-- The outcomes of the system calls inside `setup_timer`: the time that `clock_gettime` gives,
`none` if it fails, and the result of `timer_settime`. -/
structure TimerEnv where
  now : Option Timespec
  settime : ℤ

/-- What `setup_timer` gives back: its result, what it stores at `start_time`, and the setting it
hands to `timer_settime`, `none` if it does not call it. -/
structure TimerSetup where
  success : Bool
  startTime : Option Timespec
  armed : Option Itimerspec
deriving DecidableEq, Repr

/-- `setup_timer`. The product is one of `unsigned int`. -/
def setupTimer (env : TimerEnv) (timerPeriodMs timerPeriodSec : UInt32) : TimerSetup :=
  match env.now with
  | none => { success := false, startTime := none, armed := none }
  | some startTime =>
    let itInterval : Timespec :=
      ⟨Int64.ofNat timerPeriodSec.toNat, Int64.ofNat (timerPeriodMs * 1000000).toNat⟩
    let itValue := timespecAdd startTime itInterval
    { success := env.settime = 0, startTime := some startTime, armed := some ⟨itInterval, itValue⟩ }

/-- `TIMER_PERIOD_MS`, with which `main` calls `setup_timer`. -/
def timerPeriodMs : UInt32 := 0

/-- `TIMER_PERIOD_SEC`. -/
def timerPeriodSec : UInt32 := 10

/-- The period asked for, in nanoseconds. -/
def periodNanos (ms sec : UInt32) : ℤ := sec.toNat * 10 ^ 9 + ms.toNat * 10 ^ 6

/-- The setting arms the timer with the period asked for, from `now` on: both times are normal, the
interval is the period, and the first firing is one period after `now`. -/
structure ArmsPeriod (now : Timespec) (ms sec : UInt32) (it : Itimerspec) : Prop where
  interval_normal : it.itInterval.Normal
  value_normal : it.itValue.Normal
  interval_eq : it.itInterval.nanos = periodNanos ms sec
  value_eq : it.itValue.nanos = now.nanos + periodNanos ms sec

/-- The condition for it: the milliseconds are less than a second, they do not make up exactly a
second with the nanoseconds of `now`, and the first firing fits the seconds. -/
def ArmedInTime (now : Timespec) (ms sec : UInt32) : Prop :=
  ms.toNat < 1000 ∧ now.tvNsec.toInt + ms.toNat * 10 ^ 6 ≠ 10 ^ 9 ∧
    now.nanos + periodNanos ms sec < 2 ^ 63 * 10 ^ 9

/-- The interval that `setup_timer` computes. -/
def timerInterval (ms sec : UInt32) : Timespec :=
  ⟨Int64.ofNat sec.toNat, Int64.ofNat (ms * 1000000).toNat⟩

variable {ms sec : UInt32}

lemma timerInterval_tvSec : (timerInterval ms sec).tvSec.toInt = sec.toNat :=
  Int64.toInt_ofNat_of_lt (by have h := sec.toNat_lt; omega)

/-- The milliseconds are converted modulo `2^32`. -/
lemma timerInterval_tvNsec :
    (timerInterval ms sec).tvNsec.toInt = (ms.toNat * 1000000 % 2 ^ 32 : ℕ) := by
  have hlt := (ms * 1000000).toNat_lt
  rw [timerInterval, Int64.toInt_ofNat_of_lt (by omega), UInt32.toNat_mul]
  rfl

/-- **The interval is the period**, as a normal time, exactly for less than 1000 milliseconds: any
other number of milliseconds is too large for the nanoseconds, unless the product wraps around. -/
lemma timerInterval_exact_iff :
    ((timerInterval ms sec).Normal ∧ (timerInterval ms sec).nanos = periodNanos ms sec) ↔
      ms.toNat < 1000 := by
  rw [Timespec.Normal, Timespec.nanos, timerInterval_tvSec, timerInterval_tvNsec, periodNanos]
  rcases Nat.lt_or_ge ms.toNat 1000 with hms | hms
  · rw [Nat.mod_eq_of_lt (by omega)]
    omega
  · refine iff_of_false ?_ (by omega)
    rintro ⟨⟨-, hlt⟩, heq⟩
    omega

/-- The setting of `setup_timer` arms the timer as asked exactly under the condition.

**Proof sketch.** The interval is right exactly for less than 1000 milliseconds; then it is a normal
time, and the first firing is the sum of two normal times. -/
lemma armsPeriod_iff (hnow : now.Normal) :
    ArmsPeriod now ms sec ⟨timerInterval ms sec, timespecAdd now (timerInterval ms sec)⟩ ↔
      ArmedInTime now ms sec := by
  have hsec : 0 ≤ (timerInterval ms sec).tvSec.toInt := by
    rw [timerInterval_tvSec]
    omega
  constructor
  · rintro ⟨hinterval, hvalue, hperiod, hsum⟩
    have hms : ms.toNat < 1000 := timerInterval_exact_iff.mp ⟨hinterval, hperiod⟩
    rw [← hperiod] at hsum
    obtain ⟨hne, hfit⟩ := (timespecAdd_exact_iff hnow hinterval hsec).mp ⟨hvalue, hsum⟩
    rw [timerInterval_tvNsec, Nat.mod_eq_of_lt (by omega)] at hne
    rw [hperiod] at hfit
    exact ⟨hms, by omega, hfit⟩
  · rintro ⟨hms, hne, hfit⟩
    obtain ⟨hinterval, hperiod⟩ :
        (timerInterval ms sec).Normal ∧ (timerInterval ms sec).nanos = periodNanos ms sec :=
      timerInterval_exact_iff.mpr hms
    have hexact := (timespecAdd_exact_iff hnow hinterval hsec).mpr
    rw [timerInterval_tvNsec, Nat.mod_eq_of_lt (by omega), hperiod] at hexact
    obtain ⟨hvalue, hsum⟩ := hexact ⟨by omega, hfit⟩
    exact ⟨hinterval, hvalue, hperiod, hsum⟩

/-- **The period of `main` is met** from every time on that leaves room for it. -/
lemma setupTimer_main (hnow : now.Normal) (hfit : now.tvSec.toInt < 2 ^ 63 - 10) (settime : ℤ) :
    ∃ it, (setupTimer ⟨some now, settime⟩ timerPeriodMs timerPeriodSec).armed = some it ∧
      ArmsPeriod now timerPeriodMs timerPeriodSec it := by
  refine ⟨_, rfl, (armsPeriod_iff hnow).mpr ?_⟩
  obtain ⟨-, hlt⟩ := hnow
  have hms : timerPeriodMs.toNat = 0 := rfl
  have hperiod : periodNanos timerPeriodMs timerPeriodSec = 10 * 10 ^ 9 := by decide
  rw [ArmedInTime, hms, hperiod, Timespec.nanos]
  omega

/-- **When the timer is armed with the period asked for.** For every time the clock can give and
every period: the setting that `setup_timer` hands to `timer_settime` is the one asked for, if and
only if the milliseconds are less than a second, they do not make up exactly a second with the
nanoseconds of the clock, and the first firing fits the seconds. -/
theorem setup_timer_period (hnow : now.Normal) (settime : ℤ) (ms sec : UInt32) :
    ∃ it, setupTimer ⟨some now, settime⟩ ms sec =
        { success := settime = 0, startTime := some now, armed := some it } ∧
      (ArmsPeriod now ms sec it ↔ ArmedInTime now ms sec) :=
  ⟨_, rfl, armsPeriod_iff hnow⟩

/-- A period of ten and a quarter seconds, from a time at which the nanoseconds are carried. -/
theorem setup_timer_period_carried :
    ∃ it, setupTimer ⟨some ⟨7, 900000000⟩, 0⟩ 250 10 =
        { success := true, startTime := some ⟨7, 900000000⟩, armed := some it } ∧
      ArmsPeriod ⟨7, 900000000⟩ 250 10 it := by
  have hnow : Timespec.Normal ⟨7, 900000000⟩ := by decide
  obtain ⟨it, hsetup, harms⟩ := setup_timer_period hnow 0 250 10
  exact ⟨it, hsetup, harms.mpr ⟨by decide, by decide, by decide⟩⟩

/-- A period of 500 milliseconds, from a time in the middle of a second: the nanoseconds of the
first firing are `10^9`. -/
theorem setup_timer_period_fails :
    ¬∀ (now : Timespec) (settime : ℤ) (ms sec : UInt32) (it : Itimerspec), now.Normal →
      (setupTimer ⟨some now, settime⟩ ms sec).armed = some it → ArmsPeriod now ms sec it := by
  intro h
  have harms := h ⟨0, 500000000⟩ 0 500 0 ⟨⟨0, 500000000⟩, ⟨0, 1000000000⟩⟩ (by decide) (by decide)
  exact absurd harms.value_normal (by decide)

end Aesd
