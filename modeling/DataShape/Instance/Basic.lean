import DataShape.Instance.Moment
import DataShape.Marshal
import DataShape.Text.Encoding
import DataShape.Value.Entries

/-! # Instances of native types

What a native type makes when it is called: the empty instance without arguments, or the instance
that its arguments describe.

* numbers — from other numbers, which are cut toward zero or rounded to the nearest double, and
  from numerals, integers in any base from two to thirty-six;
* texts — any value as text, or bytes read in an encoding;
* lists and tuples — from the items that a value yields;
* mappings — from the entries that a value describes;
* moments — from the numbers of their parts.

`construct` makes an instance. -/

namespace DataShape

open DataShape.Text

variable (d : Dispatch)

/-! ## Numerals -/

/-- The characters of a numeral given as text or bytes. Bytes beyond ASCII stand for a character
that occurs in no numeral. -/
def numeralChars? : Value → Option (List Char)
  | .str s => some s.toList
  | .bytes bs => some (bs.map fun b => if b < 128 then Char.ofNat b.toNat else '?')
  | _ => none

/-- How many characters a message shows of a numeral that cannot be read. -/
def shownNumeralLength : Nat := 200

/-- The fault of a numeral that cannot be read in a base. -/
def numeralFault (base : Nat) (shown : String) : Number.NumeralFault → Fault
  | .malformed =>
      .wrongValue (s!"invalid literal for int() with base {base}: "
        ++ String.ofList (shown.toList.take shownNumeralLength))
  | .tooLong digits =>
      .wrongValue (s!"Exceeds the limit ({Number.maxIntegerDigits} digits) for integer string "
        ++ s!"conversion: value has {digits} digits; use sys.set_int_max_str_digits() to increase "
        ++ "the limit")

/-- Read an integer numeral in a base. -/
def integerOfNumeral (base : Nat) (v : Value) (chars : List Char) : Action Value := do
  match Number.integerIn base (Number.trimNumeral chars) with
  | .ok n => return .int n
  | .error cause => throw (numeralFault base (← shown d v) cause)

/-- A value as an integer: numbers are cut toward zero, numerals are read. -/
def integerOf (v : Value) : Action Value :=
  match v, numeralChars? v with
  | .int n, _ => pure (.int n)
  | .bool b, _ => pure (.int (if b then 1 else 0))
  | .float x, _ => match x.truncate? with
    | some n => pure (.int n)
    | none => throw (if x.isNaN then .wrongValue "cannot convert float NaN to integer"
        else .overflow)
  | v, some chars => integerOfNumeral d 10 v chars
  | _, none => throw .wrongType

/-- A numeral as an integer in a given base. -/
def integerInBase (v base : Value) : Action Value :=
  match base.integral? with
  | none => throw .wrongType
  | some b =>
      if b ≠ 0 ∧ (b < 2 ∨ 36 < b) then
        throw (.wrongValue "int() base must be >= 2 and <= 36, or 0")
      else match numeralChars? v with
        | some chars => integerOfNumeral d b.toNat v chars
        | none => throw .wrongType

/-- An integer as a real number. -/
def realOfInt (n : Int) : Action Value :=
  match Binary64.ofInt n with
  | .infinite _ => throw .overflow
  | x => pure (.float x)

/-- A value as a real number; numerals are read. -/
def realOf (v : Value) : Action Value :=
  match v, numeralChars? v with
  | .float x, _ => pure (.float x)
  | .int n, _ => realOfInt n
  | .bool b, _ => realOfInt (if b then 1 else 0)
  | v, some chars => match Number.real? (Number.trimNumeral chars) with
    | some x => markNumber (.float x)
    | none => do throw (.wrongValue ("could not convert string to float: " ++ (← shown d v)))
  | _, none => throw .wrongType

/-! ## Texts -/

/-- The fault of bytes that spell no text. -/
def decodingFault : DecodingFault → Fault
  | .broken => .undecodable
  | .unknownRepair => .noEncoding
  | .unfitRepair => .wrongType

/-- The text of bytes in an encoding, with what becomes of bytes that spell nothing; no bytes are no
text whatever the encoding. -/
def decodeText (v : Value) (encoding repair : String) : Action Value :=
  match v with
  | .bytes [] => pure (.str "")
  | .bytes bs => match Encoding.named? encoding with
    | none => throw .noEncoding
    | some e => match e.decode repair bs with
      | .ok s => pure (.str s)
      | .error cause => throw (decodingFault cause)
  | _ => throw .wrongType

/-- Make a text: of nothing, of any value, or of bytes in an encoding. -/
def makeText (object encoding errors : Option Value) : Action Value := do
  let name (v : Option Value) : Action (Option String) := match v with
    | none => pure none
    | some (.str s) => if s.toList.contains '\x00' then throw (.wrongValue "") else pure (some s)
    | some _ => throw .wrongType
  let encoding ← name encoding
  let repair ← name errors
  match object, encoding, repair with
  | none, _, _ => return .str ""
  | some v, none, none => return .str (← textOf d v)
  | some v, encoding, repair => decodeText v (encoding.getD "utf-8") (repair.getD "strict")

/-- Arguments in the order of three names, given by position or by name. -/
def threeArguments (names : String × String × String) (arguments : List Value)
    (named : List (String × Value)) : Action (Option Value × Option Value × Option Value) := do
  let (first, a) := MomentArguments.take ⟨arguments, named⟩ names.1
  let (second, a) := a.take names.2.1
  let (third, a) := a.take names.2.2
  refuseRest a
  return (first, second, third)

/-! ## Mappings -/

/-- Make a mapping: the entries of a value, and then entries by name. -/
def makeMapping (arguments : List Value) (named : List (String × Value)) : Action Value := do
  let entries ← match arguments with
    | [] => pure []
    | [v] => entriesFrom d v
    | _ => throw .wrongType
  return .freshDict (Table.update entries (named.map fun e => (.str e.1, e.2)))

/-! ## Construction -/

/-- Make an instance of a native type from arguments by position. -/
def constructFrom (t : NativeType) (arguments : List Value) : Action Value := do
  match t, arguments with
  | .int, [] => return .int 0
  | .int, [v] => integerOf d v
  | .int, [v, base] => integerInBase d v base
  | .float, [] => return .float (.finite false 0 0)
  | .float, [v] => realOf d v
  | .bool, [] => return .bool false
  | .bool, [v] => return .bool (← truthOf d v)
  | .list, [] => return .fresh []
  | .list, [v] => return .fresh (← iterate d v)
  | .tuple, [] => return .tuple []
  | .tuple, [v] => return .tuple (← iterate d v)
  | .object, [] => return .record (← newIdentity) []
  | .object, _ => throw (.wrongType "object() takes no arguments")
  | _, _ => throw .wrongType

/-- Make an instance of a native type. -/
def construct (t : NativeType) (arguments : List Value) (named : List (String × Value)) :
    Action Value := do
  match t, arguments, named with
  | .str, arguments, named =>
      let a ← threeArguments ("object", "encoding", "errors") arguments named
      makeText d a.1 a.2.1 a.2.2
  | .dict, arguments, named => makeMapping d arguments named
  | .date, arguments, named => makeDate ⟨arguments, named⟩
  | .time, arguments, named => makeTime ⟨arguments, named⟩
  | .datetime, arguments, named => makeDateTime ⟨arguments, named⟩
  | .int, [v], [("base", base)] => integerInBase d v base
  | t, arguments, [] => constructFrom d t arguments
  | _, _, _ => throw .wrongType

/-- A text is its own text. -/
theorem construct_str (s : String) : construct d .str [.str s] [] = pure (.str s) := rfl

/-- Without arguments the empty list is made. -/
theorem construct_list_nil : construct d .list [] [] = pure (.fresh []) := rfl

end DataShape
