import DataShape.Calendar.Basic

/-! # Reading ISO 8601 text

The forms read here, with ASCII digits only:

* dates `YYYY-MM-DD`, `YYYYMMDD`, and week dates `YYYY-Www`, `YYYYWww`, `YYYY-Www-D`, `YYYYWwwD`;
* times `HH`, `HH:MM`, `HH:MM:SS` or the same without colons, with a fraction of one digit or more
  after a point or comma (digits beyond the sixth are dropped), an optional `T` in front, and an
  optional offset: `Z` or a sign and the forms of a time;
* a date, any single character, and a time.

The end of a time before an offset is read leniently: one ASCII character without digits after it,
and whatever follows six digits of a fraction, is passed over.

The null character ends a text where a text may end: behind the last component of a time, where
nothing else may follow it, and behind a long fraction or the letter `Z`, where it hides the rest.

A text is either malformed or well formed; a well-formed text may still name no moment, and the
two are told apart (`IsoFault`). -/

namespace DataShape

/-- Why a text gives no moment. -/
inductive IsoFault where
  | malformed
  | range (fault : RangeFault)
deriving DecidableEq, Repr

namespace IsoReader

open Calendar

/-- The value of an ASCII digit. -/
def digit? (c : Char) : Option Nat :=
  if '0' ≤ c && c ≤ '9' then some (c.toNat - 48) else none

/-- Read exactly `count` digits; the result is their value and the rest of the text. -/
def digits? : Nat → Nat → List Char → Option (Nat × List Char)
  | 0, value, cs => some (value, cs)
  | _ + 1, _, [] => none
  | count + 1, value, c :: rest => (digit? c).bind fun d => digits? count (10 * value + d) rest

/-- The character that ends a text. -/
def terminator : Char := '\x00'

/-- Whether a text is at its end. -/
def isEnded (cs : List Char) : Bool := cs.head?.all (· == terminator)

/-! ## Times -/

/-- What a run of time components gave: the numbers read, and whether text is left over. -/
structure Clock where
  hour : Nat
  minute : Nat
  second : Nat
  microsecond : Nat
  leftOver : Bool
deriving DecidableEq, Repr

/-- The fraction at the end of a time: up to six digits, which must all be digits. -/
def fraction? (followed : Bool) (cs : List Char) : Option (Nat × Bool) :=
  let count := min 6 cs.length
  (digits? count 0 cs).map fun (value, rest) =>
    let beyond := rest.dropWhile fun c => (digit? c).isSome
    (value * Nat.pow 10 (6 - count), !isEnded beyond || (beyond.isEmpty && followed))

/-- The components from the current one on, as a list of numbers of two digits, and then the
fraction. `left` counts the components that may still come, `colons` tells whether the components
are separated, and `followed` whether an offset follows the text. -/
def components? (followed : Bool) : Nat → Option Bool → List Char → Option (List Nat × Nat × Bool)
  | 0, _, cs => (fraction? followed cs).map fun (f, more) => ([], f, more)
  | left + 1, colons, cs =>
      (digits? 2 0 cs).bind fun (value, rest) =>
        match rest with
        | [] => some ([value], 0, followed)
        | c :: after =>
            let separated := colons.getD (c == ':')
            let add := fun (vs, f, more) => (value :: vs, f, more)
            if after.isEmpty && c.toNat < 128 then some ([value], 0, c != terminator)
            else if separated && c == ':' then
              (components? followed left (some separated) after).map add
            else if c == '.' || c == ',' then
              (fraction? followed after).map fun (f, more) => ([value], f, more)
            else if !separated then (components? followed left (some separated) rest).map add
            else none

/-- The components of a time without its offset. -/
def clock? (followed : Bool) (cs : List Char) : Option Clock :=
  (components? followed 3 none cs).map fun (vs, f, more) =>
    ⟨vs.getD 0 0, vs.getD 1 0, vs.getD 2 0, f, more⟩

/-- Whether a character starts an offset. -/
def startsOffset (c : Char) : Bool := c == '+' || c == '-' || c == 'Z'

/-- Read the offset that follows a time; it must be read to its end. An offset of less than one
second is no offset. -/
def offset? : List Char → Option Int
  | [] => none
  | 'Z' :: rest => if isEnded rest then some 0 else none
  | sign :: rest =>
      (clock? false rest).bind fun c =>
        if c.leftOver then none
        else
          let seconds : Int := c.hour * 3600 + c.minute * 60 + c.second
          let micros : Int := if seconds = 0 then 0 else seconds * microsPerSecond + c.microsecond
          some (if sign == '-' then -micros else micros)

/-- Read a time with its optional offset, ranges not yet checked. -/
def timeFields? (cs : List Char) : Option Time :=
  let body := cs.takeWhile fun c => !startsOffset c
  let zone := cs.dropWhile fun c => !startsOffset c
  (clock? (!zone.isEmpty) body).bind fun c =>
    if zone.isEmpty then
      if c.leftOver then none else some ⟨c.hour, c.minute, c.second, c.microsecond, none, false⟩
    else (offset? zone).map fun o =>
      ⟨c.hour, c.minute, c.second, c.microsecond, some o, false⟩

/-- The offset is checked before the fields of the time. -/
def checkTimeOffset (t : Time) : Except RangeFault Unit :=
  match t.offset with
  | none => .ok ()
  | some o => (checkOffset o).map fun _ => ()

/-! ## Dates -/

/-- The day of the week of the first day of a year, Monday being zero. -/
def firstWeekday (year : Nat) : Nat := daysBeforeYear year % 7

/-- A year has 53 weeks when it starts on a Thursday, or is a leap year that starts on a
Wednesday; every other year has 52. -/
def weeksIn (year : Nat) : Nat :=
  if year ≠ 0 && (firstWeekday year = 3 || (firstWeekday year = 2 && isLeap year)) then 53 else 52

/-- The date of a day of a week; the first week of a year is the one with its first Thursday. The
year zero has no days, and its weeks name the month zero. -/
def ofWeek? (year week weekday : Nat) : Option Date :=
  if week < 1 ∨ weeksIn year < week ∨ weekday < 1 ∨ 7 < weekday then none
  else if year = 0 then some ⟨1, 0, 0⟩
  else
    let first := firstWeekday year
    let ahead : Int := (if first ≤ 3 then 0 else 7) - first
    let n : Int := ahead + (week - 1 : Nat) * 7 + weekday
    some <|
      if n < 1 then
        dayOfYear (year - 1) ((n + daysInYear (year - 1)).toNat)
      else if daysInYear year < n then dayOfYear (year + 1) (n - daysInYear year).toNat
      else dayOfYear year n.toNat

/-- Read the day of a week date that ends the text; a missing day is the first. -/
def weekday? (dashed : Bool) : List Char → Option Nat
  | [] => some 1
  | c :: rest =>
      if dashed then (if c == '-' then (digits? 1 0 rest).map Prod.fst else none)
      else (digits? 1 0 (c :: rest)).map Prod.fst

/-- Read a date, ranges not yet checked. -/
def dateFields? (cs : List Char) : Option Date :=
  (digits? 4 0 cs).bind fun (year, rest) =>
    let dashed := rest.head? == some '-'
    let rest := if dashed then rest.tail else rest
    match rest with
    | 'W' :: week =>
        (digits? 2 0 week).bind fun (w, tail) =>
          (weekday? dashed tail).bind fun d => ofWeek? year w d
    | _ =>
        (digits? 2 0 rest).bind fun (month, tail) =>
          let day := if dashed then (if tail.head? == some '-' then some tail.tail else none)
            else some tail
          day.bind fun day =>
            (digits? 2 0 day).map fun (d, _) => ⟨year, month, d⟩

/-- Where the date ends in a text of date and time, judged by the characters after the year. A
week date with a dash and then two digits is read as a week and a time. -/
def dateLength (cs : List Char) : Nat :=
  let at? (i : Nat) : Option Char := cs[i]?
  let isDigitAt (i : Nat) : Bool := (at? i).any fun c => (digit? c).isSome
  if cs.length = 7 then 7
  else if at? 4 == some '-' then
    if at? 5 == some 'W' then
      if at? 8 == some '-' then (if isDigitAt 10 then 8 else 10) else 8
    else 10
  else if at? 4 == some 'W' then
    let stop := 7 + ((cs.drop 7).takeWhile fun c => (digit? c).isSome).length
    if stop < 9 then stop else if stop % 2 = 0 then 7 else 8
  else 8

/-- A text that is well formed when it is read at all. -/
def wellFormed {α : Type} : Option α → Except IsoFault α
  | none => .error .malformed
  | some a => .ok a

/-- A range rule as a reason. -/
def inRange {α : Type} (r : Except RangeFault α) : Except IsoFault α := r.mapError .range

/-! ## Whole texts -/

/-- Read a date: a text of seven, eight or ten bytes. What follows the day in a longer text is
passed over. -/
def date (s : String) : Except IsoFault Date := do
  let n := s.utf8ByteSize
  let d ← wellFormed (if n = 7 ∨ n = 8 ∨ n = 10 then dateFields? s.toList else none)
  inRange d.check

/-- Read a time. -/
def time (s : String) : Except IsoFault Time := do
  let cs := match s.toList with
    | 'T' :: rest => rest
    | cs => cs
  let t ← wellFormed (timeFields? cs)
  inRange (checkTimeOffset t)
  inRange t.check

/-- Read a date and a time; without a time it is midnight. -/
def dateTime (s : String) : Except IsoFault DateTime := do
  let cs := s.toList
  let n := dateLength cs
  let d ← wellFormed (if cs.length < 7 then none else dateFields? (cs.take n))
  let t ← match cs.drop n with
    | [] => .ok ⟨0, 0, 0, 0, none, false⟩
    | _ :: rest => wellFormed (timeFields? rest)
  inRange (checkTimeOffset t)
  let d ← inRange d.check
  let t ← inRange t.check
  return ⟨d, t⟩

/-- No digits are read from an empty text, unless none are asked for. -/
@[simp] theorem digits?_succ_nil (count value : Nat) : digits? (count + 1) value [] = none := rfl

/-- A text without characters is at its end. -/
@[simp] theorem isEnded_nil : isEnded [] = true := rfl

end IsoReader

end DataShape
