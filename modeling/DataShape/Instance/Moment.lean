import DataShape.Calendar.Iso
import DataShape.Calendar.Packed
import DataShape.Value.Display

/-! # Making moments

Dates and times are made from numbers, given by position or by name. The numbers are read in the
order of the parts before any of them is looked up in the calendar: what is no whole number is of
the wrong type, and one that does not fit into a word of 32 bits overflows. In place of the numbers
a packed moment can be given, as bytes or as a text of characters below 256; it is taken without
any check, and arguments by name do not count beside it.

* `makeDate`, `makeDateTime`, `makeTime` — make a moment from arguments. -/

namespace DataShape

/-- A part of a moment; one with a fallback may be left out. -/
abbrev MomentPart := String × Option Int

/-- The arguments of a moment. -/
structure MomentArguments where
  positional : List Value
  named : List (String × Value)

/-- The parts of a date. -/
def datePartNames : List MomentPart := [("year", none), ("month", none), ("day", none)]

/-- The parts of a time of day. -/
def clockPartNames : List MomentPart :=
  [("hour", some 0), ("minute", some 0), ("second", some 0), ("microsecond", some 0)]

namespace MomentArguments

/-- Take the next argument: the first one in line, or else the one of a name. -/
def take (a : MomentArguments) (name : String) : Option Value × MomentArguments :=
  match a.positional with
  | v :: rest => (some v, { a with positional := rest })
  | [] => (Table.get? a.named name, { a with named := Table.erase a.named name })

end MomentArguments

/-- A value as a number of a part. -/
def partNumber (v : Value) : Action Int :=
  match v, v.integral? with
  | _, some n => if -Int.pow 2 31 ≤ n ∧ n < Int.pow 2 31 then pure n else throw .overflow
  | .str _, none => throw (.wrongType "'str' object cannot be interpreted as an integer")
  | _, none => throw .wrongType

/-- Take the numbers of parts, in their order. -/
def takeNumbers : List MomentPart → MomentArguments → Action (List Int × MomentArguments)
  | [], a => pure ([], a)
  | (name, fallback) :: rest, a => do
      let (given, a) := a.take name
      let n ← match given, fallback with
        | some v, _ => partNumber v
        | none, some n => pure n
        | none, none => throw .wrongType
      let (ns, a) ← takeNumbers rest a
      return (n :: ns, a)

/-- Take the zone and the fold, which is only given by name. The fold must be zero or one, and a
zone cannot be given but as the empty value; whether they are in order is checked last, and gives
whether the reading is a repeated one. -/
def takeZone (a : MomentArguments) : Action (Action Bool × MomentArguments) := do
  let (zone, a) := a.take "tzinfo"
  let (fold, a) := a.take "fold"
  let n ← (fold.map partNumber).getD (pure 0)
  let check : Action Bool := do
    if n ≠ 0 ∧ n ≠ 1 then throw (.wrongValue "fold must be either 0 or 1")
    if !(zone.getD .null).isNull then throw .wrongType
    return n = 1
  return (check, a)

/-- Arguments that no part has taken. -/
def refuseRest (a : MomentArguments) : Action Unit := do
  if !a.positional.isEmpty || !a.named.isEmpty then throw .wrongType

/-- There are at most so many arguments, and so many of them by position. -/
def limitArguments (a : MomentArguments) (atMost positional : Nat) : Action Unit := do
  if atMost < a.positional.length + a.named.length || positional < a.positional.length then
    throw .wrongType

/-- A range rule that is broken. -/
def outOfRange {α : Type} (text : String) : Except Fault α := .error (.wrongValue text)

/-- A date of three numbers. -/
def dateOfNumbers (numbers : List Int) : Except Fault Date :=
  match numbers with
  | [year, month, day] =>
      if year < 1 ∨ 9999 < year then outOfRange s!"year {year} is out of range"
      else if month < 1 ∨ 12 < month then outOfRange RangeFault.month.message
      else if day < 1 ∨ Calendar.daysInMonth year.toNat month.toNat < day then
        outOfRange RangeFault.day.message
      else .ok ⟨year.toNat, month.toNat, day.toNat⟩
  | _ => .error .wrongType

/-- A time of four numbers. -/
def timeOfNumbers (numbers : List Int) : Except Fault Time :=
  match numbers with
  | [hour, minute, second, microsecond] =>
      if hour < 0 ∨ 23 < hour then outOfRange RangeFault.hour.message
      else if minute < 0 ∨ 59 < minute then outOfRange RangeFault.minute.message
      else if second < 0 ∨ 59 < second then outOfRange RangeFault.second.message
      else if microsecond < 0 ∨ 999999 < microsecond then
        outOfRange "microsecond must be in 0..999999"
      else .ok ⟨hour.toNat, minute.toNat, second.toNat, microsecond.toNat, none, false⟩
  | _ => .error .wrongType

/-! ## Packed moments -/

/-- The numbers of bytes, or of the characters of a text. -/
def unitsOf? : Value → Option (List Nat)
  | .bytes bs => some (bs.map (·.toNat))
  | .str s => some (s.toList.map Char.toNat)
  | _ => none

/-- The word for a kind of packed moment. -/
def packedWord : Packed.Kind → String
  | .date => "date"
  | .time => "time"
  | .dateTime => "datetime"

/-- The fault of a text with characters that are no units. -/
def unpackable (kind : Packed.Kind) : Fault :=
  .wrongValue (s!"Failed to encode latin1 string when unpickling a {packedWord kind} object. "
    ++ "pickle.load(data, encoding='latin1') is assumed.")

/-- The numbers of the packed moment that the first of at most `limit` arguments is, if it looks
like one. -/
def packedUnits? (kind : Packed.Kind) (limit : Nat) (a : MomentArguments) : Option (List Nat) :=
  match a.positional with
  | [] => none
  | v :: rest =>
      if rest.length < limit then (unitsOf? v).filter kind.recognises else none

/-- Unpack a moment; a second argument can only be the empty zone. -/
def unpacked {α : Type} (kind : Packed.Kind) (read? : List Nat → Option α) (a : MomentArguments)
    (units : List Nat) : Action α := do
  if units.any (256 ≤ ·) then throw (unpackable kind)
  if !(a.positional.tail.all Value.isNull) then throw .wrongType
  match read? units with
  | some moment => return moment
  | none => throw .wrongType

/-! ## Making -/

/-- Make a date of its numbers. -/
def dateFromParts (a : MomentArguments) : Action Date := do
  limitArguments a 3 3
  let (numbers, a) ← takeNumbers datePartNames a
  refuseRest a
  ofExcept (dateOfNumbers numbers)

/-- Make a time of day of its numbers. -/
def timeFromParts (a : MomentArguments) : Action Time := do
  limitArguments a 6 5
  let (numbers, a) ← takeNumbers clockPartNames a
  let (check, a) ← takeZone a
  refuseRest a
  let time ← ofExcept (timeOfNumbers numbers)
  return { time with repeated := ← check }

/-- Make a date with a time of that day of their numbers. -/
def dateTimeFromParts (a : MomentArguments) : Action DateTime := do
  limitArguments a 9 8
  let (days, a) ← takeNumbers datePartNames a
  let (numbers, a) ← takeNumbers clockPartNames a
  let (check, a) ← takeZone a
  refuseRest a
  let date ← ofExcept (dateOfNumbers days)
  let time ← ofExcept (timeOfNumbers numbers)
  return ⟨date, { time with repeated := ← check }⟩

/-- Make a date. -/
def makeDate (a : MomentArguments) : Action Value :=
  match packedUnits? .date 1 a with
  | some units => .date <$> unpacked .date Packed.date? a units
  | none => .date <$> dateFromParts a

/-- Make a time of day. -/
def makeTime (a : MomentArguments) : Action Value :=
  match packedUnits? .time 2 a with
  | some units => .time <$> unpacked .time Packed.time? a units
  | none => .time <$> timeFromParts a

/-- Make a date with a time of that day. -/
def makeDateTime (a : MomentArguments) : Action Value :=
  match packedUnits? .dateTime 2 a with
  | some units => .datetime <$> unpacked .dateTime Packed.dateTime? a units
  | none => .datetime <$> dateTimeFromParts a

/-- A made date obeys the rules of the calendar. -/
theorem check_of_dateOfNumbers {numbers : List Int} {x : Date}
    (h : dateOfNumbers numbers = .ok x) : x.check = .ok x := by
  unfold dateOfNumbers at h
  repeat' split at h
  all_goals simp only [outOfRange, reduceCtorEq, Except.ok.injEq] at h
  subst h
  rw [Date.check, if_neg (by dsimp only; omega), if_neg (by dsimp only; omega),
    if_neg (by dsimp only; omega)]

/-- A made time obeys the rules of the clock. -/
theorem check_of_timeOfNumbers {numbers : List Int} {t : Time}
    (h : timeOfNumbers numbers = .ok t) : t.check = .ok t := by
  unfold timeOfNumbers at h
  repeat' split at h
  all_goals simp only [outOfRange, reduceCtorEq, Except.ok.injEq] at h
  subst h
  rw [Time.check, if_neg (by dsimp only; omega), if_neg (by dsimp only; omega),
    if_neg (by dsimp only; omega)]

end DataShape
