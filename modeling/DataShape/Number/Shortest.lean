import DataShape.Number.Binary64

/-! # Shortest decimal text of a double

A double is written with the fewest decimal digits that still read back to it; of several such
decimals the nearest to the double is taken, a tie going to the even last digit.

The decimals that read back to a double form an interval around it: half a unit of the mantissa to
both sides, a quarter unit below when the mantissa is the least of its exponent, the ends included
when the mantissa is even. For one digit, two digits and so on the two neighbours of the value on
that decimal grid are tested; seventeen digits are always enough. All arithmetic is on naturals.

`Layout` holds the decisions of the written form; `toText` writes with the layout of this
library: positional notation for exponents from -4 to 15, a point with at least one digit after
it, and a sign and two digits in the exponent. -/

namespace DataShape

namespace Binary64

/-- A positive decimal `digits · 10^exponent`. -/
structure Decimal where
  digits : Nat
  exponent : Int
deriving DecidableEq, Repr, Inhabited

/-- The quotient `num / den` on a grid of powers of ten, as a quotient of naturals. -/
def overPower (num den : Nat) (exponent : Int) : Nat × Nat :=
  if 0 ≤ exponent then (num, den * Nat.pow 10 exponent.toNat)
  else (num * Nat.pow 10 (-exponent).toNat, den)

/-- Compare `digits · 10^exponent` with `num / den`. -/
def compareDecimal (digits : Nat) (exponent : Int) (num den : Nat) : Ordering :=
  let (n, d) := overPower num den exponent
  compare (digits * d) n

/-- The interval of reals that round to a double, over the denominator `4 · 2^1074`. -/
structure Interval where
  low : Nat
  high : Nat
  closed : Bool

/-- The rounding interval of `mantissa · 2^(exponent - 1074)`. -/
def interval (m q : Nat) : Interval where
  low := if m = Nat.pow 2 52 ∧ q ≠ 0 then (4 * m - 1) * Nat.pow 2 q else (4 * m - 2) * Nat.pow 2 q
  high := (4 * m + 2) * Nat.pow 2 q
  closed := m % 2 = 0

/-- The common denominator of interval ends. -/
def intervalDenominator : Nat := 4 * Nat.pow 2 1074

/-- Whether a decimal lies in a rounding interval. -/
def Interval.holds (i : Interval) (digits : Nat) (exponent : Int) : Bool :=
  match compareDecimal digits exponent i.low intervalDenominator,
    compareDecimal digits exponent i.high intervalDenominator with
  | .gt, .lt => true
  | .eq, _ => i.closed
  | _, .eq => i.closed
  | _, _ => false

/-- The number of decimal digits of a natural, by trial of growing powers; `fuel` bounds it. -/
def digitCount : Nat → Nat → Nat
  | 0, _ => 0
  | fuel + 1, n => if n < 10 then 1 else digitCount fuel (n / 10) + 1

/-- The decimal exponent of the leading digit of `m · 2^(q - 1074)`. -/
def leadingExponent (m q : Nat) : Int :=
  (digitCount 800 (m * Nat.pow 2 q * Nat.pow 10 400 / Nat.pow 2 1074) : Int) - 401

/-- The candidate with the given grid exponent, if one of the two neighbours of the value lies in
the interval: the nearer one, a tie going to the even digit. -/
def onGrid (m q : Nat) (exponent : Int) : Option Decimal :=
  let i := interval m q
  let (n, d) := overPower (m * Nat.pow 2 q) (Nat.pow 2 1074) exponent
  let below := n / d
  match i.holds below exponent && below != 0, i.holds (below + 1) exponent with
  | true, true =>
      let r := n % d
      if 2 * r < d ∨ (2 * r = d ∧ below % 2 = 0) then some ⟨below, exponent⟩
      else some ⟨below + 1, exponent⟩
  | true, false => some ⟨below, exponent⟩
  | false, true => some ⟨below + 1, exponent⟩
  | false, false => none

/-- Try grids of more and more digits. -/
def firstOnGrid (m q : Nat) (leading : Int) : Nat → Nat → Decimal
  | 0, count => ⟨m, count⟩
  | tries + 1, count =>
      match onGrid m q (leading + 1 - count) with
      | some d => d
      | none => firstOnGrid m q leading tries (count + 1)

/-- The shortest decimal that reads back to a positive finite double. -/
def shortest (m q : Nat) : Decimal := firstOnGrid m q (leadingExponent m q) 17 1

/-- The decisions of the written form of a double. -/
structure Layout where
  /-- Least exponent of the leading digit that is written positionally. -/
  leastPositional : Int
  /-- Greatest exponent of the leading digit that is written positionally. -/
  greatestPositional : Int
  /-- Least number of digits of an exponent. -/
  exponentWidth : Nat
  infinityText : String
  nanText : String

/-- The layout of this library. -/
def layout : Layout := ⟨-4, 15, 2, "inf", "nan"⟩

/-- Digits with the point after the first one, and the exponent. -/
def scientific (l : Layout) (digits : List Char) (exponent : Int) : List Char :=
  let fraction := match digits.tail with
    | [] => []
    | rest => '.' :: rest
  let e := (toString exponent.natAbs).toList
  digits.take 1 ++ fraction ++ ['e', if exponent < 0 then '-' else '+']
    ++ List.replicate (l.exponentWidth - e.length) '0' ++ e

/-- Digits with the point where it belongs, and at least one digit after it. -/
def positional (digits : List Char) (leading : Int) : List Char :=
  if leading < 0 then
    ['0', '.'] ++ List.replicate ((-leading).toNat - 1) '0' ++ digits
  else
    let whole := leading.toNat + 1
    let padded := digits ++ List.replicate (whole - digits.length) '0'
    let fraction := padded.drop whole
    padded.take whole ++ '.' :: (if fraction.isEmpty then ['0'] else fraction)

/-- Remove the zeros at the end of a decimal's digits. -/
def dropTrailingZeros (cs : List Char) : List Char :=
  (cs.reverse.dropWhile (· == '0')).reverse

/-- The written form of a decimal. -/
def Decimal.text (l : Layout) (d : Decimal) : List Char :=
  let all := (toString d.digits).toList
  let digits := dropTrailingZeros all
  let leading : Int := d.exponent + all.length - 1
  if l.leastPositional ≤ leading ∧ leading ≤ l.greatestPositional then positional digits leading
  else scientific l digits leading

/-- The text of a double under a layout. -/
def format (l : Layout) : Binary64 → String
  | nan _ => l.nanText
  | infinite negative => (if negative then "-" else "") ++ l.infinityText
  | finite negative m q =>
      let body := if m = 0 then ['0', '.', '0'] else (shortest m q).text l
      String.ofList ((if negative then ['-'] else []) ++ body)

/-- The text of a double. -/
def toText (x : Binary64) : String := x.format layout

end Binary64

end DataShape
