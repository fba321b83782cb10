/-! # Dates and times

Days of the proleptic Gregorian calendar, times of a day with microseconds, and their
combinations. A time may carry an offset from universal time, in microseconds, which lies strictly
between minus and plus one day.

* `Date.check`, `Time.check`, `offset?` — the range rules, in the order in which they are applied.
* `Time.same`, `DateTime.same` — equality of moments: values with different offsets are compared
  after both are moved to universal time; a value with and a value without an offset differ. -/

namespace DataShape

/-- A year, a month and a day of the month, all counted from one. -/
structure Date where
  year : Nat
  month : Nat
  day : Nat
deriving DecidableEq, Repr, Inhabited

/-- A time of day; the offset is in microseconds. A reading that a clock shows twice, because it is
put back, is `repeated` at the second time; no comparison looks at that. -/
structure Time where
  hour : Nat
  minute : Nat
  second : Nat
  microsecond : Nat
  offset : Option Int
  repeated : Bool
deriving DecidableEq, Repr, Inhabited

/-- A day and a time of that day. -/
structure DateTime where
  date : Date
  time : Time
deriving DecidableEq, Repr, Inhabited

/-- The ways in which fields fail to name a moment. -/
inductive RangeFault where
  | year (n : Nat)
  | month
  | day
  | hour
  | minute
  | second
  /-- The offset reaches a full day; it is given in microseconds. -/
  | offset (microseconds : Int)
deriving DecidableEq, Repr

namespace Calendar

/-- Every fourth year, but of the centuries only every fourth. -/
def isLeap (year : Nat) : Bool := year % 4 = 0 && (year % 100 ≠ 0 || year % 400 = 0)

/-- The number of days of a month. -/
def daysInMonth (year month : Nat) : Nat :=
  if month = 2 then (if isLeap year then 29 else 28)
  else if month = 4 ∨ month = 6 ∨ month = 9 ∨ month = 11 then 30 else 31

/-- The number of days of a year. -/
def daysInYear (year : Nat) : Nat := if isLeap year then 366 else 365

/-- The days before the first day of a year, counted from the year one. -/
def daysBeforeYear (year : Nat) : Nat :=
  let p := year - 1
  p * 365 + p / 4 - p / 100 + p / 400

/-- The days of a year before a month. -/
def daysBeforeMonth (year : Nat) : Nat → Nat
  | 0 => 0
  | 1 => 0
  | month + 1 => daysBeforeMonth year month + daysInMonth year month

/-- The number of a day, counted from the first day of the year one, which has number one. -/
def dayNumber (d : Date) : Nat := daysBeforeYear d.year + daysBeforeMonth d.year d.month + d.day

/-- Find month and day of the `n`-th day of a year, starting at a month; `fuel` counts the months
that are left. -/
def monthOf (year : Nat) : Nat → Nat → Nat → Date
  | 0, month, n => ⟨year, month, n⟩
  | fuel + 1, month, n =>
      if n ≤ daysInMonth year month then ⟨year, month, n⟩
      else monthOf year fuel (month + 1) (n - daysInMonth year month)

/-- The `n`-th day of a year, counted from one. -/
def dayOfYear (year n : Nat) : Date := monthOf year 11 1 n

/-- Microseconds of a second, a minute, an hour and a day. -/
def microsPerSecond : Int := 1000000

/-- Microseconds of a day. -/
def microsPerDay : Int := 86400 * microsPerSecond

/-- A leap year has one day more. -/
theorem daysInYear_eq (year : Nat) : daysInYear year = 365 + if isLeap year then 1 else 0 := by
  unfold daysInYear
  split <;> rfl

end Calendar

open Calendar

/-- The first range rule that a date breaks. -/
def Date.check (d : Date) : Except RangeFault Date :=
  if d.year < 1 ∨ 9999 < d.year then .error (.year d.year)
  else if d.month < 1 ∨ 12 < d.month then .error .month
  else if d.day < 1 ∨ daysInMonth d.year d.month < d.day then .error .day
  else .ok d

/-- The first range rule that a time breaks. -/
def Time.check (t : Time) : Except RangeFault Time :=
  if 23 < t.hour then .error .hour
  else if 59 < t.minute then .error .minute
  else if 59 < t.second then .error .second
  else .ok t

/-- An offset lies strictly within one day. -/
def checkOffset (microseconds : Int) : Except RangeFault Int :=
  if microsPerDay ≤ microseconds.natAbs then .error (.offset microseconds) else .ok microseconds

/-- A checked date is the date itself. -/
theorem Date.check_eq {d e : Date} (h : d.check = .ok e) : e = d := by
  unfold Date.check at h
  repeat' split at h
  all_goals simp_all

/-- A checked time is the time itself. -/
theorem Time.check_eq {t u : Time} (h : t.check = .ok u) : u = t := by
  unfold Time.check at h
  repeat' split at h
  all_goals simp_all

/-! ## Equality of moments -/

/-- Whole seconds since midnight. -/
def Time.seconds (t : Time) : Int := t.hour * 3600 + t.minute * 60 + t.second

/-- Microseconds since midnight. -/
def Time.micros (t : Time) : Int := t.seconds * microsPerSecond + t.microsecond

/-- The fields of two times agree, offsets left out. -/
def Time.sameFields (t u : Time) : Bool :=
  t.hour == u.hour && t.minute == u.minute && t.second == u.second && t.microsecond == u.microsecond

/-- Equality of times of day: with different offsets the whole seconds are moved to universal time
by the whole seconds of the offsets, and microseconds are compared as they stand. -/
def Time.same (t u : Time) : Bool :=
  match t.offset, u.offset with
  | none, none => t.sameFields u
  | some a, some b =>
      if a = b then t.sameFields u
      else t.seconds - Int.fdiv a microsPerSecond == u.seconds - Int.fdiv b microsPerSecond
        && t.microsecond == u.microsecond
  | _, _ => false

/-- Whether two times of day are the same to the microsecond, moved to universal time where both
have an offset. -/
def Time.exactly (t u : Time) : Bool :=
  match t.offset, u.offset with
  | some a, some b => t.micros - a == u.micros - b
  | none, none => t.micros == u.micros
  | _, _ => false

/-- Microseconds since the start of the calendar, in universal time where there is an offset. -/
def DateTime.moment (d : DateTime) : Int :=
  dayNumber d.date * microsPerDay + d.time.micros - d.time.offset.getD 0

/-- Equality of moments. -/
def DateTime.same (d e : DateTime) : Bool :=
  match d.time.offset, e.time.offset with
  | none, none => d.date == e.date && d.time.sameFields e.time
  | some a, some b =>
      if a = b then d.date == e.date && d.time.sameFields e.time else d.moment == e.moment
  | _, _ => false

/-- A time is the same as itself. -/
@[simp] theorem Time.same_self (t : Time) : t.same t = true := by
  unfold Time.same
  cases t.offset <;> simp [Time.sameFields]

/-- A moment is the same as itself. -/
@[simp] theorem DateTime.same_self (d : DateTime) : d.same d = true := by
  unfold DateTime.same
  cases d.time.offset <;> simp [Time.sameFields]

end DataShape
