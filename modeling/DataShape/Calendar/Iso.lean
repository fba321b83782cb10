import DataShape.Calendar.Basic

/-! # ISO 8601 text of dates and times

Dates are written `YYYY-MM-DD`, times `HH:MM:SS` with six digits of fraction when the
microseconds are not zero, and an offset as `±HH:MM` with seconds and fraction when these are not
zero. A date and its time are joined by a separator. -/

namespace DataShape

namespace Calendar

/-- A number with leading zeros up to a width. -/
def padded (width n : Nat) : List Char :=
  let digits := (toString n).toList
  List.replicate (width - digits.length) '0' ++ digits

/-- The six digits of a fraction, left out when it is zero. -/
def fractionText (micros : Nat) : List Char :=
  if micros = 0 then [] else '.' :: padded 6 micros

/-- The text of an offset. -/
def offsetText (offset : Int) : List Char :=
  let size := offset.natAbs
  let seconds := size / 1000000
  let micros := size % 1000000
  let tail :=
    if seconds % 60 = 0 ∧ micros = 0 then []
    else ':' :: padded 2 (seconds % 60) ++ fractionText micros
  (if offset < 0 then '-' else '+') :: padded 2 (seconds / 3600) ++ ':'
    :: padded 2 (seconds / 60 % 60) ++ tail

end Calendar

open Calendar

/-- `YYYY-MM-DD`. -/
def Date.isoChars (d : Date) : List Char :=
  padded 4 d.year ++ '-' :: padded 2 d.month ++ '-' :: padded 2 d.day

/-- `HH:MM:SS`, the fraction and the offset. -/
def Time.isoChars (t : Time) : List Char :=
  padded 2 t.hour ++ ':' :: padded 2 t.minute ++ ':' :: padded 2 t.second
    ++ fractionText t.microsecond ++ (t.offset.map offsetText).getD []

/-- The text of a date. -/
def Date.iso (d : Date) : String := String.ofList d.isoChars

/-- The text of a time. -/
def Time.iso (t : Time) : String := String.ofList t.isoChars

/-- The text of a moment, its parts joined by a separator. -/
def DateTime.isoWith (separator : Char) (d : DateTime) : String :=
  String.ofList (d.date.isoChars ++ separator :: d.time.isoChars)

/-- The text of a moment with the standard separator. -/
def DateTime.iso (d : DateTime) : String := d.isoWith 'T'

/-! ## Durations -/

/-- The parts of a duration that are not zero, each with its name. -/
def Calendar.durationParts (micros : Int) : List String :=
  let days := micros.fdiv microsPerDay
  let rest := micros.fmod microsPerDay
  let seconds := rest / microsPerSecond
  let part (name : String) (n : Int) : List String :=
    if n = 0 then [] else [name ++ "=" ++ toString n]
  part "days" days ++ part "seconds" seconds ++ part "microseconds" (rest % microsPerSecond)

/-- How a duration is shown: whole days, which may be negative, then seconds and microseconds of
the remaining part of a day. -/
def Calendar.durationText (micros : Int) : String :=
  let parts := durationParts micros
  "datetime.timedelta(" ++ (if parts.isEmpty then "0" else ", ".intercalate parts) ++ ")"

/-- The text of a broken range rule. -/
def RangeFault.message : RangeFault → String
  | .year n => s!"year {n} is out of range"
  | .month => "month must be in 1..12"
  | .day => "day is out of range for month"
  | .hour => "hour must be in 0..23"
  | .minute => "minute must be in 0..59"
  | .second => "second must be in 0..59"
  | .offset micros => "offset must be a timedelta strictly between -timedelta(hours=24) and "
      ++ "timedelta(hours=24), not " ++ durationText micros ++ "."

/-- A text of digits that fills its width gets no leading zeros. -/
theorem Calendar.padded_of_le {width n : Nat} (h : width ≤ (toString n).toList.length) :
    padded width n = (toString n).toList := by
  simp only [padded, Nat.sub_eq_zero_of_le h, List.replicate_zero, List.nil_append]

end DataShape
