import DataShape.Sorting.Merge
import DataShape.Sorting.Run

/-! # Sorting

A stable sort that makes use of runs. The list is cut into runs from the left, short ones brought
to a least length, and the runs are merged in an order that keeps the merges balanced: between two
neighbouring runs lies a boundary, whose *power* is the depth at which a balanced halving of the
whole list would separate the middles of the two runs, and boundaries of greater power are merged
away first.

Sorting fails when two items that are compared cannot be compared.

* `sort?` — the sorted list. -/

namespace DataShape.Sorting

universe u

variable {α : Type u} (less? : α → α → Option Bool)

/-- Halve a number until it is small, rounding up at the end; `lost` tells whether a binary digit
was lost. -/
def leadingPart : Nat → Nat → Nat → Nat
  | 0, n, lost => n + lost
  | fuel + 1, n, lost =>
      if n < 64 then n + lost else leadingPart fuel (n / 2) (max lost (n % 2))

/-- The least length of runs for a number of items: the number itself when it is small, and else
its leading binary digits, rounded up. -/
def leastRun (count : Nat) : Nat := leadingPart count count 0

/-- The number of halvings of a list of `count` items after which two places, given as twice their
distance from the start, lie in different halves. -/
def depthOf (count : Nat) : Nat → Nat → Nat → Nat
  | 0, _, _ => 0
  | fuel + 1, a, b =>
      if count ≤ a then depthOf count fuel (2 * (a - count)) (2 * (b - count)) + 1
      else if count ≤ b then 1
      else depthOf count fuel (2 * a) (2 * b) + 1

/-- The power of the boundary between a run and the one behind it. -/
def boundaryPower (count start first second : Nat) : Nat :=
  let a := 2 * start + first
  depthOf count count a (a + first + second)

/-- A run that waits to be merged: where it starts, its items, and the power of the boundary behind
it. -/
structure Pending (α : Type u) where
  start : Nat
  items : List α
  power : Nat

/-- The runs found so far, the last one first, and the patience of the merges. -/
structure Progress (α : Type u) where
  runs : List (Pending α)
  patience : Nat

/-- Merge a run with the one behind it; the boundary behind the first one is left. -/
def mergePending? (first second : Pending α) (patience : Nat) :
    Option (Pending α × Nat) :=
  (mergeRuns? less? first.items second.items patience).map fun r =>
    ({ first with items := r.1 }, r.2)

/-- Merge the last runs as long as the boundary in front of them has more power than a new one. -/
def collapse? (power : Nat) : Nat → Progress α → Option (Progress α)
  | 0, p => some p
  | fuel + 1, p => match p.runs with
    | second :: first :: rest =>
        if power < first.power then
          (mergePending? less? first second p.patience).bind fun r =>
            collapse? power fuel ⟨r.1 :: rest, r.2⟩
        else some p
    | _ => some p

/-- Make ready for a new run: its boundary with the last one gets its power, after what has more
power has been merged. -/
def makeReady? (count length : Nat) (p : Progress α) : Option (Progress α) :=
  match p.runs with
  | [] => some p
  | last :: _ =>
      let power := boundaryPower count last.start last.items.length length
      (collapse? less? power p.runs.length p).map fun p => match p.runs with
        | [] => p
        | last :: rest => { p with runs := { last with power := power } :: rest }

/-- Find all runs, merging on the way. -/
def collect? (count : Nat) : Nat → Nat → List α → Progress α → Option (Progress α)
  | _, _, [], p => some p
  | 0, _, _ :: _, p => some p
  | fuel + 1, start, items, p => (nextRun? less? (leastRun count) items).bind fun r =>
      (makeReady? less? count r.1.length p).bind fun p =>
        collect? count fuel (start + r.1.length) r.2
          { p with runs := ⟨start, r.1, 0⟩ :: p.runs }

/-- Merge the runs that are left, the shorter neighbours of the last but one run first. -/
def finish? : Nat → Progress α → Option (Progress α)
  | 0, p => some p
  | fuel + 1, p => match p.runs with
    | third :: second :: first :: rest =>
        if first.items.length < third.items.length then
          (mergePending? less? first second p.patience).bind fun r =>
            finish? fuel ⟨third :: r.1 :: rest, r.2⟩
        else
          (mergePending? less? second third p.patience).bind fun r =>
            finish? fuel ⟨r.1 :: first :: rest, r.2⟩
    | [second, first] =>
        (mergePending? less? first second p.patience).map fun r => ⟨[r.1], r.2⟩
    | _ => some p

/-- Sort a list. -/
def sort? (items : List α) : Option (List α) :=
  (collect? less? items.length items.length 0 items ⟨[], longJump⟩).bind fun p =>
    (finish? less? p.runs.length p).map fun p => p.runs.flatMap Pending.items

@[simp] theorem sort?_nil : sort? less? [] = some [] := rfl

@[simp] theorem sort?_singleton (a : α) : sort? less? [a] = some [a] := by
  simp [sort?, collect?, finish?, makeReady?]

/-- Few items are a single run. -/
theorem leastRun_of_lt {count : Nat} (h : count < 64) : leastRun count = count := by
  cases count <;> simp [leastRun, leadingPart, h]

end DataShape.Sorting
