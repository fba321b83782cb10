import DataShape.Calendar.IsoReader
import DataShape.Text.LetterCase
import DataShape.Value.Display

/-! # Conversions between values and texts

The catalog's conversions. A blank text stands for no value, whatever the type.

* numbers — an integer where the text is an integer numeral, otherwise a real number;
* booleans — a numeral is true unless it is zero or not a number, otherwise the words `true`,
  `yes`, `y` and `t` in any letter case are true and everything else is false;
* dates and times — ISO 8601 text; a final `Z` or `z` means universal time. -/

namespace DataShape

open DataShape.Text

/-- The name of the only parameter of a conversion. -/
def Marshaller.parameter : Marshaller → String
  | .numberFromText => "text"
  | .booleanFromText => "text"
  | .dateTimeFromText => "text"
  | .dateFromText => "text"
  | .timeFromText => "text"
  | _ => "value"

/-- The fault of a text that is no number. -/
def notNumber (s : String) : Fault :=
  .wrongValue ("could not convert string to float: " ++ quoted s)

/-- Read a number from a text without blanks at its ends. -/
def numberOfText (s : String) : Except Fault Value :=
  match Number.integer? s.toList with
  | some n => .ok (.int n)
  | none => match Number.real? s.toList with
    | some x => .ok (.float x)
    | none => .error (notNumber s)

/-- The words that mean true. -/
def truthWords : List String := ["true", "yes", "y", "t"]

/-- Read a boolean from a text without blanks at its ends. -/
def booleanOfText (s : String) : Bool :=
  match Number.real? s.toList with
  | some x => !x.isZero && !x.isNaN
  | none => truthWords.contains (lower s)

/-- Write a final letter for universal time as an offset of zero. -/
def expandZulu (s : String) : String :=
  match s.toList.reverse with
  | c :: rest =>
      if c == 'Z' || c == 'z' then String.ofList (rest.reverse ++ "+00:00".toList) else s
  | [] => s

/-- The fault of a text that names no moment. -/
def isoFault (s : String) : IsoFault → Fault
  | .malformed => .wrongValue ("Invalid isoformat string: " ++ quoted s)
  | .range fault => .wrongValue fault.message

/-- Read a moment with a given reader; values that are no texts are left alone. -/
def momentOf {α : Type} (reader : String → Except IsoFault α) (make : α → Value) :
    Value → Except Fault Value
  | .str s =>
      let trimmed := trim s
      if trimmed.isEmpty then .ok .null
      else
        let text := expandZulu trimmed
        match reader text with
        | .ok a => .ok (make a)
        | .error fault => .error (isoFault text fault)
  | v => .ok v

/-- Read a date and a time. -/
def dateTimeOf : Value → Except Fault Value := momentOf IsoReader.dateTime .datetime

/-- Read a date. -/
def dateOf : Value → Except Fault Value := momentOf IsoReader.date .date

/-- Read a time. -/
def timeOf : Value → Except Fault Value := momentOf IsoReader.time .time

/-- A number as a value of its own: one that is not a number gets a new mark. -/
def markNumber (v : Value) : Action Value :=
  match v with
  | .float (.nan _) => do return .float (.nan (← newIdentity))
  | v => pure v

/-- Whether a value is one of the native types of dates and times, which write their instances but
not themselves. -/
def Value.isMomentType : Value → Bool
  | .native t => t == .date || t == .datetime || t == .time
  | _ => false

/-- Apply a conversion. -/
def Marshaller.apply (d : Dispatch) (m : Marshaller) (v : Value) : Action Value :=
  match m with
  | .identity => pure v
  | .numberToText => do
      if v.isNull then return .null
      return .str (← textOf d v)
  | .numberFromText => do
      if v.isNull then return .null
      let s := trim (← textOf d v)
      if s.isEmpty then return .null
      markNumber (← ofExcept (numberOfText s))
  | .booleanToText => do return .str (if ← truthOf d v then "true" else "false")
  | .booleanFromText => do
      if v.isNull then return .null
      if let .bool b := v then return .bool b
      let s := trim (← textOf d v)
      if s.isEmpty then return .null
      return .bool (booleanOfText s)
  | .isoToText => match v with
    | .null => pure .null
    | .date x => pure (.str x.iso)
    | .datetime x => pure (.str x.iso)
    | .time x => pure (.str x.iso)
    | v => if v.isMomentType then throw .wrongType else callMember d v "isoformat" []
  | .dateTimeFromText => ofExcept (dateTimeOf v)
  | .dateFromText => ofExcept (dateOf v)
  | .timeFromText => ofExcept (timeOf v)

/-- A reader of moments leaves values alone that are no texts. -/
theorem momentOf_of_not_text {α : Type} (reader : String → Except IsoFault α) (make : α → Value)
    {v : Value} (h : v.text? = none) : momentOf reader make v = .ok v := by
  cases v <;> simp_all [momentOf, Value.text?]

/-- The empty text names no moment. -/
@[simp] theorem momentOf_empty {α : Type} (reader : String → Except IsoFault α)
    (make : α → Value) : momentOf reader make (.str "") = .ok .null := by
  simp [momentOf, trim, trimChars, trimStart, trimEnd]

end DataShape
