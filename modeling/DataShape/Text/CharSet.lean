/-! # Sets of characters given by their boundaries

A large set of characters is written as the increasing list of the code points at which membership
changes: the set starts at the first boundary, ends before the second, starts again at the third,
and so on. A code point is in the set when the number of boundaries up to it is odd. -/

namespace DataShape.Text

/-- Membership of a code point in the set with the given boundaries, which must be increasing. -/
def inBoundaries : List Nat → Nat → Bool
  | [], _ => false
  | b :: rest, c => if c < b then false else !inBoundaries rest c

@[simp] theorem inBoundaries_nil (c : Nat) : inBoundaries [] c = false := rfl

@[simp] theorem inBoundaries_cons (b : Nat) (rest : List Nat) (c : Nat) :
    inBoundaries (b :: rest) c = if c < b then false else !inBoundaries rest c := rfl

/-- Below the first boundary nothing is in the set. -/
theorem inBoundaries_of_lt {b c : Nat} (rest : List Nat) (h : c < b) :
    inBoundaries (b :: rest) c = false := by simp [h]

/-- Two boundaries with an increasing rest: the half-open interval belongs to the set. -/
theorem inBoundaries_interval {lo hi c : Nat} (rest : List Nat) (h : lo ≤ c) (h' : c < hi) :
    inBoundaries (lo :: hi :: rest) c = true := by
  simp [Nat.not_lt.2 h, h']

end DataShape.Text
