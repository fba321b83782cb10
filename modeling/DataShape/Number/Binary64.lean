/-! # Double-precision numbers

The 64-bit binary floating-point numbers as exact values. A finite number is a sign, a mantissa
and an exponent and stands for `± mantissa · 2^(exponent - 1074)`. In canonical form the mantissa
is below `2^53`, and it is at least `2^52` unless the exponent is zero; every function here gives
canonical numbers.

* `ofRatio` — the nearest double to a quotient of naturals, ties to the even mantissa.
* `ofDecimal` — the nearest double to `digits · 10^exponent`.
* `equalsInt`, `lessInt` — comparison with integers, exact.

A number that is not one carries a mark, by which two of them are told apart where they are looked
for rather than compared: as keys, and as items of containers. Zero is the mark of those that are
never looked for. -/

namespace DataShape

/-- A double-precision number. -/
inductive Binary64 where
  /-- The number `± mantissa · 2^(exponent - 1074)`. -/
  | finite (negative : Bool) (mantissa exponent : Nat)
  | infinite (negative : Bool)
  /-- Not a number. -/
  | nan (mark : Nat)
deriving DecidableEq, Repr, Inhabited

namespace Binary64

/-- The canonical form: the mantissa fills its 53 bits unless the exponent is zero. -/
def Canonical : Binary64 → Prop
  | finite _ m q => m < Nat.pow 2 53 ∧ (q = 0 ∨ Nat.pow 2 52 ≤ m) ∧ q ≤ 2045
  | _ => True

/-- The quotient rounded to the nearest natural, ties to even. -/
def roundHalfEven (num den : Nat) : Nat :=
  let q := num / den
  let r := num % den
  if 2 * r < den then q
  else if den < 2 * r then q + 1
  else if q % 2 = 0 then q else q + 1

/-- Close a rounding: a mantissa of `2^53` moves to the next exponent, and an exponent beyond the
largest gives an infinity. -/
def normalize (negative : Bool) (m q : Nat) : Binary64 :=
  let (m, q) := if m = Nat.pow 2 53 then (Nat.pow 2 52, q + 1) else (m, q)
  if 2045 < q then infinite negative else finite negative m q

/-- The double nearest to `num / den`. -/
def ofRatio (negative : Bool) (num den : Nat) : Binary64 :=
  let scaled := num * Nat.pow 2 1074
  let q := (scaled / den).log2 - 52
  normalize negative (roundHalfEven scaled (den * Nat.pow 2 q)) q

/-- The double nearest to `digits · 10^exponent`. Beyond 400 decimal places on either side of the
point the result is an infinity or zero, which spares huge powers of ten. -/
def ofDecimal (negative : Bool) (digits : Nat) (exponent : Int) : Binary64 :=
  let magnitude : Int := (digits.log2 : Int) * 30103 / 100000 + exponent
  if digits = 0 then finite negative 0 0
  else if 400 < magnitude then infinite negative
  else if magnitude < -400 then finite negative 0 0
  else if 0 ≤ exponent then ofRatio negative (digits * Nat.pow 10 exponent.toNat) 1
  else ofRatio negative digits (Nat.pow 10 (-exponent).toNat)

/-- The double nearest to an integer. -/
def ofInt (n : Int) : Binary64 := ofRatio (n < 0) n.natAbs 1

/-- Whether the number is not one. -/
def isNaN : Binary64 → Bool
  | nan _ => true
  | _ => false

/-- Positive and negative zero. -/
def isZero : Binary64 → Bool
  | finite _ m _ => m == 0
  | _ => false

/-- The number as an integer over `2^1074`, for finite numbers. -/
def scaled? : Binary64 → Option Int
  | finite negative m q =>
      some (if negative then -(m * Nat.pow 2 q : Nat) else (m * Nat.pow 2 q : Nat))
  | _ => none

/-- The integer value of a finite number without a fraction. -/
def toInt? (x : Binary64) : Option Int :=
  x.scaled?.bind fun n => if n % Int.pow 2 1074 = 0 then some (n / Int.pow 2 1074) else none

/-- The integer part of a finite number, cut toward zero. -/
def truncate? (x : Binary64) : Option Int := x.scaled?.map fun n => n.tdiv (Int.pow 2 1074)

/-- Numeric equality: zeros of both signs are equal, and a number that is not one equals nothing. -/
def eq : Binary64 → Binary64 → Bool
  | nan _, _ => false
  | _, nan _ => false
  | infinite a, infinite b => a == b
  | finite a m q, finite b n r => (m == 0 && n == 0) || (a == b && m == n && q == r)
  | _, _ => false

/-- Numeric order. -/
def lt : Binary64 → Binary64 → Bool
  | nan _, _ => false
  | _, nan _ => false
  | infinite a, infinite b => a && !b
  | infinite a, finite .. => a
  | finite .., infinite b => !b
  | x@(finite ..), y@(finite ..) =>
      match x.scaled?, y.scaled? with
      | some a, some b => a < b
      | _, _ => false

/-- Whether the number has exactly the value of an integer. -/
def equalsInt (x : Binary64) (n : Int) : Bool := x.scaled? == some (n * Int.pow 2 1074)

/-- Whether the number lies below an integer. -/
def lessInt : Binary64 → Int → Bool
  | nan _, _ => false
  | infinite a, _ => a
  | x@(finite ..), n => x.scaled?.any (· < n * Int.pow 2 1074)

/-- Whether an integer lies below the number. -/
def intLess : Int → Binary64 → Bool
  | _, nan _ => false
  | _, infinite a => !a
  | n, x@(finite ..) => x.scaled?.any (n * Int.pow 2 1074 < ·)

/-- Equality is reflexive away from the number that is not one. -/
theorem eq_self {x : Binary64} (h : x.isNaN = false) : x.eq x = true := by
  cases x <;> simp_all [eq, isNaN]

/-- A number that is not one differs from everything. -/
@[simp] theorem nan_eq (mark : Nat) (x : Binary64) : (nan mark).eq x = false := by
  cases x <;> rfl

@[simp] theorem eq_nan (mark : Nat) (x : Binary64) : x.eq (nan mark) = false := by
  cases x <;> rfl

/-- Zeros of both signs are equal. -/
example : (finite false 0 0).eq (finite true 0 0) = true := by decide

end Binary64

end DataShape
