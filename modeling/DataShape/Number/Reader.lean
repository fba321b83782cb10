import DataShape.Number.Binary64
import DataShape.Text.Blank
import DataShape.Text.Digit

/-! # Reading numerals

An integer numeral is an optional sign and digits of its base, single underscores being allowed
between digits. Digits are decimal digits of any script and the Latin letters. A base of two, eight
or sixteen may be marked in front of the digits, and base zero stands for the marked base, or for
ten where there is no mark. A numeral may have only so many digits, unless its base is a power of
two.

A real numeral is an optional sign and either digits with an optional point (at least one digit on
one side of it) and an optional exponent, or one of the words `inf`, `infinity`, `nan` in any
letter case; underscores stand between digits only.

* `integerIn` — read an integer numeral in a base, or say what is wrong with it.
* `integer?`, `real?` — read a decimal integer and a real numeral. -/

namespace DataShape.Number

open DataShape.Text

/-- The longest an integer numeral may be, in digits. -/
def maxIntegerDigits : Nat := 4300

/-- Digits with single underscores between them, as values; the flag tells that the last character
was a digit. `none` when another character occurs or an underscore is out of place. -/
def digitsAfter : Bool → List Char → Option (List Nat)
  | true, [] => some []
  | false, [] => none
  | afterDigit, c :: rest =>
      if c == '_' then (if afterDigit then digitsAfter false rest else none)
      else match digitValue? c with
        | some d => (digitsAfter true rest).map (d :: ·)
        | none => none

/-- A nonempty run of digits, underscores allowed between digits. -/
def digits? (cs : List Char) : Option (List Nat) := digitsAfter false cs

/-- The natural written by digits of a base, most significant first. -/
def ofDigitsIn (base : Nat) (ds : List Nat) : Nat := ds.foldl (fun n d => base * n + d) 0

/-- The natural written by decimal digits, most significant first. -/
def ofDigits (ds : List Nat) : Nat := ofDigitsIn 10 ds

/-- Split an optional sign off; `true` means negative. -/
def splitSign : List Char → Bool × List Char
  | '-' :: rest => (true, rest)
  | '+' :: rest => (false, rest)
  | cs => (false, cs)

/-- A natural with a sign. -/
def withSign (negative : Bool) (n : Nat) : Int := if negative then -(n : Int) else n

/-! ## Blanks -/

/-- Whether a character is a blank that may stand around a numeral: all blanks but the four
separators of the control characters. -/
def isNumeralBlank (c : Char) : Bool := isBlank c && !(0x1C ≤ c.toNat && c.toNat ≤ 0x1F)

/-- A text without the blanks around the numeral in it. -/
def trimNumeral (cs : List Char) : List Char :=
  (((cs.dropWhile isNumeralBlank).reverse).dropWhile isNumeralBlank).reverse

/-! ## Integers -/

/-- Why a text is no integer numeral. -/
inductive NumeralFault where
  | malformed
  /-- The numeral has more digits than one may have. -/
  | tooLong (digits : Nat)
deriving DecidableEq, Repr

/-- The value of a Latin letter as a digit. -/
def letterValue? (c : Char) : Option Nat :=
  if 'a' ≤ c && c ≤ 'z' then some (c.toNat - 87)
  else if 'A' ≤ c && c ≤ 'Z' then some (c.toNat - 55)
  else none

/-- The value of a character as a digit of a base. -/
def digitIn? (base : Nat) (c : Char) : Option Nat :=
  (digitValue? c <|> letterValue? c).filter (· < base)

/-- The digits at the head of a text, single underscores being allowed between them, and the rest
of the text; the flag tells that the last character was a digit. -/
def digitRun? (base : Nat) : Bool → List Char → Option (List Nat × List Char)
  | true, [] => some ([], [])
  | false, [] => none
  | afterDigit, c :: rest =>
      if c == '_' then (if afterDigit then digitRun? base false rest else none)
      else match digitIn? base c with
        | some d => (digitRun? base true rest).map fun r => (d :: r.1, r.2)
        | none => if afterDigit then some ([], c :: rest) else none

/-- The base that a letter behind a zero marks. -/
def markedBase? (c : Char) : Option Nat :=
  if c == 'x' || c == 'X' then some 16
  else if c == 'o' || c == 'O' then some 8
  else if c == 'b' || c == 'B' then some 2
  else none

/-- A text without one underscore at its head. -/
def dropUnderscore : List Char → List Char
  | '_' :: rest => rest
  | cs => cs

/-- The base in which the digits of a numeral are read, the digits, and whether their value must be
zero: without a mark, base zero reads no other numeral that starts with a zero. -/
def splitMark (base : Nat) (cs : List Char) : Nat × List Char × Bool :=
  let plain := if base = 0 then 10 else base
  let startsWithZero := (cs.head?.bind digitValue?) == some 0
  match startsWithZero, cs.tail with
  | true, c :: rest => match markedBase? c with
    | some marked =>
        if base = 0 ∨ base = marked then (marked, dropUnderscore rest, false)
        else (plain, cs, base = 0)
    | none => (plain, cs, base = 0)
  | zero, _ => (plain, cs, zero && base = 0)

/-- Whether a base is a power of two. -/
def isPowerOfTwo (base : Nat) : Bool := [2, 4, 8, 16, 32].contains base

/-- Read an integer numeral in a base from two to thirty-six, or in base zero. -/
def integerIn (base : Nat) (cs : List Char) : Except NumeralFault Int :=
  let (negative, body) := splitSign cs
  let (base, body, mustBeZero) := splitMark base body
  match digitRun? base false body with
  | none => .error .malformed
  | some (digits, rest) =>
      let value := ofDigitsIn base digits
      if !isPowerOfTwo base && maxIntegerDigits < digits.length then
        .error (.tooLong digits.length)
      else if !rest.isEmpty || (mustBeZero && value != 0) then .error .malformed
      else .ok (withSign negative value)

/-- Read a decimal integer numeral. -/
def integer? (cs : List Char) : Option Int :=
  let (negative, body) := splitSign cs
  (digits? body).bind fun ds =>
    if ds.length ≤ maxIntegerDigits then some (withSign negative (ofDigits ds)) else none

/-! ## Real numbers -/

/-- A possibly empty run of digits. -/
def optionalDigits? : List Char → Option (List Nat)
  | [] => some []
  | cs => digits? cs

/-- Read an exponent: a sign and digits. -/
def exponent? (cs : List Char) : Option Int :=
  let (negative, body) := splitSign cs
  (digits? body).map fun ds => withSign negative (ofDigits ds)

/-- Split at the first character that satisfies a test, which is dropped. -/
def splitAtFirst (p : Char → Bool) (cs : List Char) : List Char × Option (List Char) :=
  match cs.dropWhile (fun c => !p c) with
  | [] => (cs, none)
  | _ :: rest => (cs.takeWhile (fun c => !p c), some rest)

/-- Read an unsigned decimal with an optional fraction and exponent as digits and a power of ten. -/
def decimal? (cs : List Char) : Option (Nat × Int) :=
  let (mantissa, exponent) := splitAtFirst (fun c => c == 'e' || c == 'E') cs
  let (whole, fraction) := splitAtFirst (· == '.') mantissa
  let power : Option Int := match exponent with
    | none => some 0
    | some e => exponent? e
  match optionalDigits? whole, fraction.elim (some []) optionalDigits?, power with
  | some w, some f, some p =>
      if w.isEmpty && f.isEmpty then none else some (ofDigits (w ++ f), p - f.length)
  | _, _, _ => none

/-- Read a real numeral. -/
def real? (cs : List Char) : Option Binary64 :=
  let (negative, body) := splitSign cs
  let word := String.ofList (body.map Char.toLower)
  if word == "inf" || word == "infinity" then some (.infinite negative)
  else if word == "nan" then some (.nan 0)
  else (decimal? body).map fun (n, p) => Binary64.ofDecimal negative n p

/-- A digit run has at least one digit. -/
@[simp] theorem digits?_nil : digits? [] = none := rfl

/-- The empty text is no integer. -/
@[simp] theorem integer?_nil : integer? [] = none := rfl

/-- The value of digits grows by one place per digit. -/
theorem ofDigits_append_singleton (ds : List Nat) (d : Nat) :
    ofDigits (ds ++ [d]) = 10 * ofDigits ds + d := by simp [ofDigits, ofDigitsIn]

end DataShape.Number
