import JsOS.Library.Calendar
import Mathlib.Data.Int.Notation
import Mathlib.Data.Nat.Notation
import Mathlib.Tactic.ByContra
import Mathlib.Tactic.IntervalCases
import Mathlib.Tactic.Ring

/-! # The wall clock

At boot the registers of the CMOS clock are read, twice the same, and decoded to a date that is set
as the time. The platform adds the time since boot to what was set, whenever that was, so that its
time is ahead by the boot time of the last set. Of a clock in its 12-hour mode the mark of the
afternoon stays in the hour, as 128, and midnight and noon stay 12.
-/

namespace JsOS.Core.CmosTime

open Calendar (monthLength daysOfYears daysOfMonths)

/-! ## The clock -/

/-- The registers with the time. -/
structure Time where
  second : UInt8
  minute : UInt8
  hour : UInt8
  day : UInt8
  month : UInt8
  year : UInt8
  deriving DecidableEq

/-- The registers of the clock. -/
structure Rtc where
  time : Time
  registerA : UInt8
  registerB : UInt8

/-- What the registers hold at each read of the data port. -/
abbrev Device := ℕ → Rtc

/-- `getUpdateInProgressFlag`. -/
def getUpdateInProgressFlag (rtc : Device) (reads : ℕ) : Bool := (rtc reads).registerA &&& 0x80 ≠ 0

/-- The reads of the registers with the time. -/
def readTime (rtc : Device) (reads : ℕ) : Time where
  second := (rtc reads).time.second
  minute := (rtc (reads + 1)).time.minute
  hour := (rtc (reads + 2)).time.hour
  day := (rtc (reads + 3)).time.day
  month := (rtc (reads + 4)).time.month
  year := (rtc (reads + 5)).time.year

/-- The first loop, which reads while the clock is updated. -/
def readWhileUpdating (rtc : Device) : ℕ → ℕ → Time → Option (ℕ × Time)
  | 0, _, _ => none
  | fuel + 1, reads, time =>
      if getUpdateInProgressFlag rtc reads then
        readWhileUpdating rtc fuel (reads + 7) (readTime rtc (reads + 1))
      else some (reads + 1, time)

/-- The loop that waits while the clock is updated. -/
def awaitUpdate (rtc : Device) : ℕ → ℕ → Option ℕ
  | 0, _ => none
  | fuel + 1, reads =>
      if getUpdateInProgressFlag rtc reads then awaitUpdate rtc fuel (reads + 1)
      else some (reads + 1)

/-- The second loop, which reads until it has read the same as before. -/
def readTwice (rtc : Device) : ℕ → ℕ → Time → Option (ℕ × Time)
  | 0, _, _ => none
  | fuel + 1, reads, last =>
      match awaitUpdate rtc fuel reads with
      | none => none
      | some reads =>
          let time := readTime rtc reads
          if last = time then some (reads + 6, time) else readTwice rtc fuel (reads + 6) time

/-- The loops, and the read of register B. -/
def readClock (rtc : Device) (fuel : ℕ) : Option (Time × UInt8) :=
  match readWhileUpdating rtc fuel 0 ⟨0, 0, 0, 0, 0, 0⟩ with
  | none => none
  | some (reads, time) =>
      match readTwice rtc fuel reads time with
      | none => none
      | some (reads, time) => some (time, (rtc reads).registerB)

/-! ## The date -/

/-- The variables after the registers have been decoded. -/
@[ext] structure Fields where
  second : ℕ
  minute : ℕ
  hour : ℕ
  day : ℕ
  month : ℕ
  year : ℕ
  deriving DecidableEq

/-- A number of two decimal digits. -/
def decimal (register : ℕ) : ℕ := (register &&& 0x0F) + (register >>> 4) * 10

/-- The decoding of the registers. -/
def decode (time : Time) (registerB : UInt8) : Fields :=
  if registerB &&& 0x04 = 0 then
    { second := decimal time.second.toNat
      minute := decimal time.minute.toNat
      hour := ((time.hour.toNat &&& 0x0F) + ((time.hour.toNat &&& 0x70) >>> 4) * 10) |||
        (time.hour.toNat &&& 0x80)
      day := decimal time.day.toNat
      month := decimal time.month.toNat
      year := decimal time.year.toNat + 2000 }
  else
    { second := time.second.toNat
      minute := time.minute.toNat
      hour := time.hour.toNat
      day := time.day.toNat
      month := time.month.toNat
      year := time.year.toNat + 2000 }

/-- `DayFromYear`. -/
def dayFromYear (year : ℤ) : ℤ :=
  365 * (year - 1970) + (year - 1969) / 4 - (year - 1901) / 100 + (year - 1601) / 400

/-- `InLeapYear`, for a year. -/
def inLeapYear (year : ℤ) : ℤ :=
  if year % 4 ≠ 0 then 0 else if year % 100 ≠ 0 then 1 else if year % 400 ≠ 0 then 0 else 1

/-- The day within the year on which a month starts, by `MonthFromTime`. -/
def monthStart (year month : ℤ) : ℤ :=
  match month with
  | 0 => 0
  | 1 => 31
  | 2 => 59 + inLeapYear year
  | 3 => 90 + inLeapYear year
  | 4 => 120 + inLeapYear year
  | 5 => 151 + inLeapYear year
  | 6 => 181 + inLeapYear year
  | 7 => 212 + inLeapYear year
  | 8 => 243 + inLeapYear year
  | 9 => 273 + inLeapYear year
  | 10 => 304 + inLeapYear year
  | _ => 334 + inLeapYear year

/-- `MakeDay`. -/
def makeDay (year month date : ℤ) : ℤ :=
  dayFromYear (year + month / 12) + monthStart (year + month / 12) (month % 12) + date - 1

/-- `MakeTime`. -/
def makeTime (hour min sec ms : ℤ) : ℤ := hour * 3600000 + min * 60000 + sec * 1000 + ms

/-- `Date.UTC`, from the year 1970 on, and as far as `TimeClip` keeps what it is. -/
def UTC (year month date hours minutes seconds ms : ℤ) : ℤ :=
  makeDay year month date * 86400000 + makeTime hours minutes seconds ms

/-- The time that is set, in microseconds. -/
def microseconds (fields : Fields) : ℤ :=
  UTC fields.year (fields.month - 1) fields.day fields.hour fields.minute fields.second 0 * 1000

/-! ## The platform -/

structure Platform where
  time_int_ : UInt64

namespace Platform

/-- The constructor. -/
def start : Platform := ⟨0⟩

/-- `RealTimeMicroseconds`, at a time since boot. -/
def realTimeMicroseconds (platform : Platform) (bootTimeMicroseconds : UInt64) : UInt64 :=
  platform.time_int_ + bootTimeMicroseconds

/-- `SetTimeMicroseconds`. -/
def setTimeMicroseconds (_platform : Platform) (new_t : UInt64) : Platform := ⟨new_t⟩

/-- `SetTime`, for an integer. -/
def setTime (platform : Platform) (value : ℤ) : Platform :=
  platform.setTimeMicroseconds (UInt64.ofNat value.toNat)

end Platform

/-- The platform after the clock has been read. -/
def boot (rtc : Device) (fuel : ℕ) : Option Platform :=
  (readClock rtc fuel).map fun read =>
    Platform.start.setTime (microseconds (decode read.1 read.2))

/-- A time that is set, and when. -/
structure Setting where
  value : UInt64
  bootTime : UInt64

/-- The platform after further times have been set. -/
def after (platform : Platform) (settings : List Setting) : Platform :=
  settings.foldl (fun platform setting => platform.setTimeMicroseconds setting.value) platform

/-! ## What is meant -/

/-- A date and time of this century. -/
structure DateTime where
  year : ℕ
  month : ℕ
  day : ℕ
  hour : ℕ
  minute : ℕ
  second : ℕ
  yearFrom : 2000 ≤ year
  yearTo : year < 2100
  monthFrom : 1 ≤ month
  monthTo : month ≤ 12
  dayFrom : 1 ≤ day
  dayTo : day ≤ monthLength year month
  hourTo : hour < 24
  minuteTo : minute < 60
  secondTo : second < 60

namespace DateTime

/-- The days since the first of January 1970. -/
def days (date : DateTime) : ℕ :=
  daysOfYears 1970 (date.year - 1970) + daysOfMonths date.year (date.month - 1) + (date.day - 1)

/-- The seconds since then. -/
def seconds (date : DateTime) : ℕ :=
  date.days * 86400 + date.hour * 3600 + date.minute * 60 + date.second

/-- The timestamp in microseconds. -/
def timestamp (date : DateTime) : ℕ := date.seconds * 1000000

end DateTime

/-- Register B says that numbers are binary. -/
def isBinary (registerB : UInt8) : Bool := registerB &&& 0x04 ≠ 0

/-- Register B says that there are 24 hours. -/
def is24Hour (registerB : UInt8) : Bool := registerB &&& 0x02 ≠ 0

/-- A number in a register. -/
def register (registerB : UInt8) (number : ℕ) : UInt8 :=
  if isBinary registerB then UInt8.ofNat number
  else UInt8.ofNat (number / 10 * 16 + number % 10)

/-- An hour in its register: of 12 hours the first is 12, and in the afternoon bit 7 is set. -/
def hourRegister (registerB : UInt8) (hour : ℕ) : UInt8 :=
  if is24Hour registerB then register registerB hour
  else
    register registerB (if hour % 12 = 0 then 12 else hour % 12) ||| (if hour ≥ 12 then 0x80 else 0)

/-- What the clock holds at a date and time. -/
def content (registerB : UInt8) (date : DateTime) : Time where
  second := register registerB date.second
  minute := register registerB date.minute
  hour := hourRegister registerB date.hour
  day := register registerB date.day
  month := register registerB date.month
  year := register registerB (date.year - 2000)

/-- The clock holds a date and time for as long as it is read. -/
def Stable (rtc : Device) (registerB : UInt8) (date : DateTime) : Prop :=
  ∀ reads, (rtc reads).time = content registerB date ∧ (rtc reads).registerB = registerB

/-- The clock is not always being updated: again and again it is not for as long as a pass of the
first loop takes. -/
def Pauses (rtc : Device) : Prop :=
  ∀ reads, ∃ later ≥ reads, ∀ offset < 7, getUpdateInProgressFlag rtc (later + offset) = false

/-- What the time is meant to be: what was last set, which is first the time of the clock, and what
has passed since. -/
def expected (date : DateTime) (readAt : UInt64) (settings : List Setting) (bootTime : UInt64) :
    UInt64 :=
  let last := settings.getLast?.getD ⟨UInt64.ofNat date.timestamp, readAt⟩
  last.value + (bootTime - last.bootTime)

/-- The hours by which the decoded hour is ahead. -/
def hoursAhead (registerB : UInt8) (hour : ℕ) : ℕ :=
  if is24Hour registerB then 0
  else if hour = 0 then 12
  else if hour < 12 then 0
  else if hour = 12 then 128
  else 116

/-! ## The loops -/

section Loops

variable {rtc : Device}

/-- The first loop ends when it meets a pause. -/
theorem readWhileUpdating_returns {later : ℕ}
    (pause : ∀ offset < 7, getUpdateInProgressFlag rtc (later + offset) = false) {reads : ℕ}
    (before : reads ≤ later + 6) (time : Time) :
    ∃ enough reads' time', ∀ fuel ≥ enough,
      readWhileUpdating rtc fuel reads time = some (reads', time') := by
  induction left : later + 7 - reads using Nat.strongRecOn generalizing reads time with
  | ind left inductionHypothesis =>
      cases updating : getUpdateInProgressFlag rtc reads with
      | false =>
          refine ⟨1, reads + 1, time, ?_⟩
          intro fuel enough
          obtain ⟨fuel, rfl⟩ := Nat.exists_eq_add_of_le' enough
          unfold readWhileUpdating
          rw [updating, if_neg Bool.false_ne_true]
      | true =>
          have outside : reads < later := by
            by_contra inside
            have paused := pause (reads - later) (by omega)
            rw [Nat.add_sub_cancel' (Nat.le_of_not_lt inside), updating] at paused
            cases paused
          obtain ⟨enough, reads', time', returns⟩ := inductionHypothesis
            (later + 7 - (reads + 7)) (by omega) (by omega) (readTime rtc (reads + 1)) rfl
          refine ⟨enough + 1, reads', time', ?_⟩
          intro fuel more
          obtain ⟨fuel, rfl⟩ := Nat.exists_eq_add_of_le' (Nat.le_of_add_left_le more)
          unfold readWhileUpdating
          rw [updating, if_pos rfl]
          exact returns fuel (Nat.le_of_succ_le_succ more)

/-- The waiting ends. -/
theorem awaitUpdate_returns {later : ℕ} (clear : getUpdateInProgressFlag rtc later = false)
    {reads : ℕ} (before : reads ≤ later) :
    ∃ enough reads', ∀ fuel ≥ enough, awaitUpdate rtc fuel reads = some reads' := by
  induction left : later - reads generalizing reads with
  | zero =>
      obtain rfl : reads = later := by omega
      refine ⟨1, reads + 1, ?_⟩
      intro fuel enough
      obtain ⟨fuel, rfl⟩ := Nat.exists_eq_add_of_le' enough
      unfold awaitUpdate
      rw [clear, if_neg Bool.false_ne_true]
  | succ left inductionHypothesis =>
      obtain ⟨enough, reads', returns⟩ := inductionHypothesis (show reads + 1 ≤ later by omega)
        (by omega)
      cases updating : getUpdateInProgressFlag rtc reads with
      | false =>
          refine ⟨1, reads + 1, ?_⟩
          intro fuel enough
          obtain ⟨fuel, rfl⟩ := Nat.exists_eq_add_of_le' enough
          unfold awaitUpdate
          rw [updating, if_neg Bool.false_ne_true]
      | true =>
          refine ⟨enough + 1, reads', ?_⟩
          intro fuel more
          obtain ⟨fuel, rfl⟩ := Nat.exists_eq_add_of_le' (Nat.le_of_add_left_le more)
          unfold awaitUpdate
          rw [updating, if_pos rfl]
          exact returns fuel (Nat.le_of_succ_le_succ more)

variable {registerB : UInt8} {date : DateTime}

theorem readTime_stable (stable : Stable rtc registerB date) (reads : ℕ) :
    readTime rtc reads = content registerB date := by
  unfold readTime
  rw [(stable _).1, (stable _).1, (stable _).1, (stable _).1, (stable _).1, (stable _).1]

/-- A pass of the second loop reads what the clock holds. -/
theorem readTwice_pass (stable : Stable rtc registerB date) {fuel reads reads' : ℕ}
    (waits : awaitUpdate rtc fuel reads = some reads') (last : Time) :
    readTwice rtc (fuel + 1) reads last =
      if last = content registerB date then some (reads' + 6, content registerB date)
      else readTwice rtc fuel (reads' + 6) (content registerB date) := by
  rw [readTwice, waits]
  dsimp only
  rw [readTime_stable stable]

theorem readTwice_returns (stable : Stable rtc registerB date) (pauses : Pauses rtc) (reads : ℕ)
    (last : Time) :
    ∃ enough reads', ∀ fuel ≥ enough,
      readTwice rtc fuel reads last = some (reads', content registerB date) := by
  have waits (reads : ℕ) :
      ∃ enough reads', ∀ fuel ≥ enough, awaitUpdate rtc fuel reads = some reads' := by
    obtain ⟨later, before, pause⟩ := pauses reads
    exact awaitUpdate_returns (pause 0 (by decide)) before
  obtain ⟨enough, first, wait⟩ := waits reads
  by_cases same : last = content registerB date
  · refine ⟨enough + 1, first + 6, ?_⟩
    intro fuel more
    obtain ⟨fuel, rfl⟩ := Nat.exists_eq_add_of_le' (Nat.le_of_add_left_le more)
    rw [readTwice_pass stable (wait fuel (Nat.le_of_succ_le_succ more)), if_pos same]
  · -- the second pass reads what the first one has read
    obtain ⟨enough', second, wait'⟩ := waits (first + 6)
    refine ⟨enough + enough' + 2, second + 6, ?_⟩
    intro fuel more
    obtain ⟨fuel, rfl⟩ := Nat.exists_eq_add_of_le' (show 2 ≤ fuel by omega)
    rw [readTwice_pass stable (wait (fuel + 1) (by omega)), if_neg same,
      readTwice_pass stable (wait' fuel (by omega)), if_pos rfl]

/-- **The clock is read**: the loops return, with what the clock holds. -/
theorem readClock_returns (stable : Stable rtc registerB date) (pauses : Pauses rtc) :
    ∃ enough, ∀ fuel ≥ enough, readClock rtc fuel = some (content registerB date, registerB) := by
  obtain ⟨later, -, pause⟩ := pauses 0
  obtain ⟨enough, reads, time, first⟩ :=
    readWhileUpdating_returns pause (Nat.zero_le _) ⟨0, 0, 0, 0, 0, 0⟩
  obtain ⟨enough', reads', second⟩ := readTwice_returns stable pauses reads time
  refine ⟨enough + enough', ?_⟩
  intro fuel more
  unfold readClock
  rw [first fuel (by omega)]
  dsimp only
  rw [second fuel (by omega)]
  dsimp only
  rw [(stable reads').2]

end Loops

/-! ## The decoding -/

theorem toNat_register_binary {registerB : UInt8} (binary : isBinary registerB = true) {number : ℕ}
    (small : number < 100) : (register registerB number).toNat = number := by
  unfold register
  rw [if_pos binary]
  exact UInt8.toNat_ofNat_of_lt' (Nat.lt_of_lt_of_le small (by decide))

theorem decimal_register {registerB : UInt8} (decimals : isBinary registerB = false) {number : ℕ}
    (small : number < 100) : decimal (register registerB number).toNat = number := by
  have all : ∀ number < 100,
      decimal (UInt8.ofNat (number / 10 * 16 + number % 10)).toNat = number := by
    decide +kernel
  unfold register
  rw [if_neg (by rw [decimals]; exact Bool.false_ne_true)]
  exact all number small

/-- The test of the mode, as the specification has it. -/
theorem ite_binary {α : Type} (registerB : UInt8) (first second : α) :
    (if registerB &&& 0x04 = 0 then first else second) =
      if isBinary registerB then second else first := by
  unfold isBinary
  by_cases decimals : registerB &&& 0x04 = 0
  · rw [if_pos decimals, if_neg (by rw [decide_eq_true_iff]; exact not_not_intro decimals)]
  · rw [if_neg decimals, if_pos (decide_eq_true decimals)]

/-- **The decoded hour**: of twelve hours the first stays 12, and the afternoon is 128 hours
later. -/
theorem hour_decode (registerB : UInt8) {hour : ℕ} (small : hour < 24) (time : Time)
    (holds : time.hour = hourRegister registerB hour) :
    (decode time registerB).hour = hour + hoursAhead registerB hour := by
  have modes : ∀ binary of24 : Bool, ∀ hour < 24,
      let register (number : ℕ) : UInt8 :=
        if binary then UInt8.ofNat number else UInt8.ofNat (number / 10 * 16 + number % 10)
      let byte : UInt8 :=
        if of24 then register hour
        else register (if hour % 12 = 0 then 12 else hour % 12) ||| (if hour ≥ 12 then 0x80 else 0)
      (if binary then byte.toNat
        else ((byte.toNat &&& 0x0F) + ((byte.toNat &&& 0x70) >>> 4) * 10) |||
          (byte.toNat &&& 0x80)) =
        hour + (if of24 then 0 else if hour = 0 then 12 else if hour < 12 then 0
          else if hour = 12 then 128 else 116) := by
    decide +kernel
  unfold decode
  rw [ite_binary, apply_ite Fields.hour, holds]
  exact modes (isBinary registerB) (is24Hour registerB) hour small

/-- **The decoding** is right but for the hour. -/
theorem decode_content (registerB : UInt8) (date : DateTime) :
    decode (content registerB date) registerB =
      ⟨date.second, date.minute, date.hour + hoursAhead registerB date.hour, date.day, date.month,
        date.year⟩ := by
  have hour := hour_decode registerB date.hourTo (content registerB date) rfl
  have dayTo := Nat.le_trans date.dayTo (Calendar.monthLength_le date.year date.month)
  have number (value : ℕ) (small : value < 100) :
      (if isBinary registerB then (register registerB value).toNat
        else decimal (register registerB value).toNat) = value := by
    cases binary : isBinary registerB with
    | true => exact toNat_register_binary binary small
    | false => exact decimal_register binary small
  have yearFrom := date.yearFrom
  have yearTo := date.yearTo
  have monthTo := date.monthTo
  have minuteTo := date.minuteTo
  have secondTo := date.secondTo
  apply Fields.ext
  · unfold decode
    rw [ite_binary, apply_ite Fields.second]
    exact number date.second (by omega)
  · unfold decode
    rw [ite_binary, apply_ite Fields.minute]
    exact number date.minute (by omega)
  · exact hour
  · unfold decode
    rw [ite_binary, apply_ite Fields.day]
    exact number date.day (by omega)
  · unfold decode
    rw [ite_binary, apply_ite Fields.month]
    exact number date.month (by omega)
  · have since := number (date.year - 2000) (by omega)
    unfold decode
    rw [ite_binary, apply_ite Fields.year]
    dsimp only
    rw [← apply_ite (fun value => value + 2000)]
    dsimp only [content]
    rw [since]
    omega

/-! ## The calendar -/

/-- `DayFromYear` counts the days of the years since 1970. -/
theorem dayFromYear_eq {year : ℕ} (from1970 : 1970 ≤ year) :
    dayFromYear year = daysOfYears 1970 (year - 1970) := by
  have formula := Calendar.daysOfYears_eq 1970 (year - 1970)
  rw [Nat.add_sub_cancel' from1970] at formula
  unfold Calendar.leapsBefore at formula
  unfold dayFromYear
  omega

theorem inLeapYear_eq (year : ℕ) : inLeapYear year = if Calendar.IsLeap year then 1 else 0 := by
  unfold inLeapYear
  by_cases leap : Calendar.IsLeap year
  · rw [if_pos leap]
    unfold Calendar.IsLeap at leap
    rw [if_neg (by omega)]
    by_cases century : (year : ℤ) % 100 ≠ 0
    · rw [if_pos century]
    · rw [if_neg century, if_neg (by omega)]
  · rw [if_neg leap]
    unfold Calendar.IsLeap at leap
    by_cases fourth : (year : ℤ) % 4 ≠ 0
    · rw [if_pos fourth]
    · rw [if_neg fourth, if_neg (by omega), if_pos (by omega)]

/-- `MonthFromTime` starts a month behind the days of the months before. -/
theorem monthStart_eq (year : ℕ) {month : ℕ} (small : month < 12) :
    monthStart year month = daysOfMonths year month := by
  have leap := inLeapYear_eq year
  by_cases isLeap : Calendar.IsLeap year
  · rw [if_pos isLeap] at leap
    interval_cases month <;>
      simp only [monthStart, daysOfMonths, monthLength, leap, isLeap, Nat.cast_ofNat, if_true] <;>
      rfl
  · rw [if_neg isLeap] at leap
    interval_cases month <;>
      simp only [monthStart, daysOfMonths, monthLength, leap, isLeap, Nat.cast_ofNat, if_false] <;>
      rfl

/-- **`MakeDay` counts the days** of a date. -/
theorem makeDay_eq (date : DateTime) :
    makeDay date.year ((date.month : ℤ) - 1) date.day = date.days := by
  have monthFrom := date.monthFrom
  have monthTo := date.monthTo
  have dayFrom := date.dayFrom
  have yearFrom := date.yearFrom
  have before : (date.month : ℤ) - 1 = (date.month - 1 : ℕ) := by omega
  have sameYear : ((date.month - 1 : ℕ) : ℤ) / 12 = 0 := by omega
  have sameMonth : ((date.month - 1 : ℕ) : ℤ) % 12 = (date.month - 1 : ℕ) := by omega
  unfold makeDay DateTime.days
  rw [before, sameYear, sameMonth, add_zero, dayFromYear_eq (by omega), monthStart_eq _ (by omega)]
  omega

/-- **The time that is set** is the timestamp, but for what the hour is ahead. -/
theorem microseconds_eq (registerB : UInt8) (date : DateTime) :
    microseconds (decode (content registerB date) registerB) =
      date.timestamp + hoursAhead registerB date.hour * 3600000000 := by
  rw [decode_content]
  unfold microseconds UTC makeTime DateTime.timestamp DateTime.seconds
  dsimp only
  rw [makeDay_eq]
  push_cast
  ring

/-- The time that is set is exact in double precision. -/
theorem microseconds_lt (registerB : UInt8) (date : DateTime) :
    microseconds (decode (content registerB date) registerB) < 9007199254740992 := by
  have years : ∀ count, daysOfYears 1970 count ≤ 366 * count := by
    intro count
    induction count with
    | zero => exact Nat.le_refl _
    | succ count inductionHypothesis =>
        unfold daysOfYears Calendar.yearLength
        split
        · omega
        · omega
  have months : ∀ count, daysOfMonths date.year count ≤ 31 * count := by
    intro count
    induction count with
    | zero => exact Nat.le_refl _
    | succ count inductionHypothesis =>
        have last := Calendar.monthLength_le date.year (count + 1)
        unfold daysOfMonths
        omega
  have hours : hoursAhead registerB date.hour ≤ 128 := by
    unfold hoursAhead
    split_ifs <;> omega
  have inYears := years (date.year - 1970)
  have inMonths := months (date.month - 1)
  have dayTo := Nat.le_trans date.dayTo (Calendar.monthLength_le date.year date.month)
  have yearTo := date.yearTo
  have monthTo := date.monthTo
  have hourTo := date.hourTo
  have minuteTo := date.minuteTo
  have secondTo := date.secondTo
  rw [microseconds_eq]
  unfold DateTime.timestamp DateTime.seconds DateTime.days
  omega

/-! ## The time -/

/-- Nothing is ahead: what was set last was set at the boot time 0, or nothing was set after the
clock was read at a boot time that makes up for its hour. -/
def Unshifted (registerB : UInt8) (date : DateTime) (readAt : UInt64) (settings : List Setting) :
    Prop :=
  match settings.getLast? with
  | some last => last.bootTime = 0
  | none => readAt + UInt64.ofNat (hoursAhead registerB date.hour * 3600000000) = 0

/-- What is set last is kept. -/
theorem time_after (platform : Platform) (settings : List Setting) :
    (after platform settings).time_int_ =
      (settings.getLast?.map Setting.value).getD platform.time_int_ := by
  induction settings generalizing platform with
  | nil => rfl
  | cons setting rest inductionHypothesis =>
      unfold after
      rw [List.foldl_cons]
      refine (inductionHypothesis _).trans ?_
      rw [List.getLast?_cons]
      cases rest.getLast? with
      | none => rfl
      | some last => rfl

/-- What the clock sets. -/
theorem boot_returns {rtc : Device} {registerB : UInt8} {date : DateTime}
    (stable : Stable rtc registerB date) (pauses : Pauses rtc) :
    ∃ enough, ∀ fuel ≥ enough, boot rtc fuel =
      some ⟨UInt64.ofNat date.timestamp +
        UInt64.ofNat (hoursAhead registerB date.hour * 3600000000)⟩ := by
  obtain ⟨enough, returns⟩ := readClock_returns stable pauses
  refine ⟨enough, ?_⟩
  intro fuel more
  have value : (microseconds (decode (content registerB date) registerB)).toNat =
      date.timestamp + hoursAhead registerB date.hour * 3600000000 := by
    rw [microseconds_eq]
    omega
  unfold boot
  rw [returns fuel more, Option.map_some]
  unfold Platform.setTime Platform.setTimeMicroseconds
  dsimp only
  rw [value, UInt64.ofNat_add]

theorem add_eq_add_sub_iff (value bootTime set_ ahead : UInt64) :
    value + ahead + bootTime = value + (bootTime - set_) ↔ set_ + ahead = 0 := by
  constructor
  · intro same
    grind
  · intro zero
    grind

/-- **The wall clock**: after the clock has been read, and whatever is set after that, the time is
what it is meant to be exactly if nothing is ahead. -/
theorem realTime_iff {rtc : Device} {registerB : UInt8} {date : DateTime}
    (stable : Stable rtc registerB date) (pauses : Pauses rtc) (readAt : UInt64) :
    ∃ enough, ∀ fuel ≥ enough, ∃ platform, boot rtc fuel = some platform ∧
      ∀ (settings : List Setting) (bootTime : UInt64),
        (after platform settings).realTimeMicroseconds bootTime =
            expected date readAt settings bootTime ↔
          Unshifted registerB date readAt settings := by
  obtain ⟨enough, returns⟩ := boot_returns stable pauses
  refine ⟨enough, ?_⟩
  intro fuel more
  refine ⟨_, returns fuel more, ?_⟩
  intro settings bootTime
  unfold Platform.realTimeMicroseconds expected Unshifted
  rw [time_after]
  cases settings.getLast? with
  | none => exact add_eq_add_sub_iff _ bootTime readAt _
  | some last =>
      have shifted := add_eq_add_sub_iff last.value bootTime last.bootTime 0
      rw [UInt64.add_zero, UInt64.add_zero] at shifted
      exact shifted

/-- The fifteenth of May 2018, at 13:30:07. -/
def afternoon : DateTime :=
  ⟨2018, 5, 15, 13, 30, 7, by decide, by decide, by decide, by decide, by decide, by decide,
    by decide, by decide, by decide⟩

/-- A clock that stands at that time. -/
def standing (registerB : UInt8) : Device := fun _ => ⟨content registerB afternoon, 0, registerB⟩

theorem stable_standing (registerB : UInt8) : Stable (standing registerB) registerB afternoon :=
  fun _ => ⟨rfl, rfl⟩

theorem pauses_standing (registerB : UInt8) : Pauses (standing registerB) := by
  intro reads
  refine ⟨reads, le_rfl, ?_⟩
  intro offset _
  exact decide_eq_false (not_not_intro (show (0 : UInt8) &&& 0x80 = 0 by decide))

/-- A clock in its 24-hour mode, read at the time of boot. -/
theorem realTime_iff_standing :
    ∃ fuel platform, boot (standing 0x02) fuel = some platform ∧
      (after platform []).realTimeMicroseconds 5 = expected afternoon 0 [] 5 := by
  obtain ⟨enough, returns⟩ := realTime_iff (stable_standing 0x02) (pauses_standing 0x02) 0
  obtain ⟨platform, booted, exact_⟩ := returns enough le_rfl
  exact ⟨enough, platform, booted, (exact_ [] 5).mpr rfl⟩

/-- A second after boot the clock is read, and the time is a second ahead; in the 12-hour mode of
the clock it is 116 hours ahead, besides. -/
theorem realTime_ahead :
    expected afternoon 1000000 [] 1000000 = 1526391007000000 ∧
      ((boot (standing 0x02) 3).map fun platform => platform.realTimeMicroseconds 1000000) =
        some 1526391008000000 ∧
      ((boot (standing 0x00) 3).map fun platform => platform.realTimeMicroseconds 1000000) =
        some (1526391008000000 + 116 * 3600000000) := by
  decide +kernel

end JsOS.Core.CmosTime
