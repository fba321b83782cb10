import DataShape.Calendar.Basic

/-! # Packed dates and times

A moment can be packed into a few units, each a number below 256, the more significant ones of a
part first: a date into four (two for the year, one for the month, one for the day), a time of day
into six (hour, minute, second, and three for the microseconds), and a date with a time into all
ten. The highest bit of the first unit that a time brings into play (the hour of a time of day, the
month of a date with a time) marks the second of two equal readings of a clock that is put back.

Units are taken as they are; only the month, or the hour of a time of day, tells whether they are a
packed moment at all.

* `Kind.recognises` — whether numbers look like a packed moment.
* `date?`, `time?`, `dateTime?` — the moment that units stand for. -/

namespace DataShape.Packed

/-- The bit that marks a repeated reading. -/
def repeatedBit : Nat := 128

/-- A unit without the mark. -/
def unmarked (unit : Nat) : Nat := unit % repeatedBit

/-- Whether a unit has the mark. -/
def isMarked (unit : Nat) : Bool := repeatedBit ≤ unit

/-- Whether a number is that of a month. -/
def isMonth (n : Nat) : Bool := 1 ≤ n && n ≤ 12

/-- Whether a number is an hour of a day. -/
def isHour (n : Nat) : Bool := n < 24

/-- A number of several units, the most significant one first. -/
def joined (units : List Nat) : Nat := units.foldl (fun n unit => 256 * n + unit) 0

/-- What is packed. -/
inductive Kind where
  | date | time | dateTime
deriving DecidableEq, Repr

/-- Whether numbers look like a packed moment; only their count and the month, or the hour of a
time of day, are looked at. Larger numbers than units have are accepted here. -/
def Kind.recognises : Kind → List Nat → Bool
  | .date, [_, _, month, _] => isMonth month
  | .time, [hour, _, _, _, _, _] => isHour (hour % repeatedBit)
  | .dateTime, [_, _, month, _, _, _, _, _, _, _] => isMonth (month % repeatedBit)
  | _, _ => false

/-- The date of four units. -/
def date? : List Nat → Option Date
  | [century, year, month, day] => some ⟨joined [century, year], month, day⟩
  | _ => none

/-- The time of day of six units. -/
def time? : List Nat → Option Time
  | [hour, minute, second, a, b, c] =>
      some ⟨unmarked hour, minute, second, joined [a, b, c], none, isMarked hour⟩
  | _ => none

/-- The date with a time of ten units. -/
def dateTime? : List Nat → Option DateTime
  | [century, year, month, day, hour, minute, second, a, b, c] =>
      some ⟨⟨joined [century, year], unmarked month, day⟩,
        ⟨hour, minute, second, joined [a, b, c], none, isMarked month⟩⟩
  | _ => none

/-- What looks like a packed date is one. -/
theorem isSome_date?_of_recognises {units : List Nat} (h : Kind.date.recognises units = true) :
    (date? units).isSome = true := by
  unfold Kind.recognises at h
  split at h <;> simp_all [date?]

/-- Two units hold a number by its high and low part. -/
theorem joined_pair (a b : Nat) : joined [a, b] = 256 * a + b := by simp [joined]

end DataShape.Packed
