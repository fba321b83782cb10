import DataShape.Sorting.Place

/-! # Runs

A run is a stretch of a list that is sorted already. One that descends strictly is turned round,
which keeps the order of items that are not told apart, since there are none. A short run is made
longer by putting the items behind it into their places.

* `firstRun?` — the run at the head of a list, and the rest.
* `insertSorted?` — put an item into its place.
* `nextRun?` — the run at the head of a list, brought to a least length. -/

namespace DataShape.Sorting

universe u

variable {α : Type u} (less? : α → α → Option Bool)

/-- The items at the head, after a first one, that go on with a run: each comes before the one in
front of it in a descending run, and none does in an ascending one. The result is the run, last
item first, and the rest. -/
def runOf? (descending : Bool) : List α → α → List α → Option (List α × List α)
  | run, last, [] => some (last :: run, [])
  | run, last, a :: rest => (less? a last).bind fun less =>
      if less == descending then runOf? descending (last :: run) a rest
      else some (last :: run, a :: rest)

/-- The run at the head of a list in ascending order, and the rest. -/
def firstRun? : List α → Option (List α × List α)
  | a :: b :: rest => (less? b a).bind fun descending =>
      (runOf? less? descending [a] b rest).map fun r =>
        (if descending then r.1 else r.1.reverse, r.2)
  | items => some (items, [])

/-- Put an item into its place among sorted ones, behind all items that it does not come before. -/
def insertSorted? (item : α) (sorted : List α) : Option (List α) :=
  let places := sorted.toArray
  (halve? (isNotAbove? less? item places) (places.size + 1) 0 places.size).map fun place =>
    sorted.take place ++ item :: sorted.drop place

/-- The run at the head of a list, brought to a least length as far as there are items, and the
rest. -/
def nextRun? (least : Nat) (items : List α) : Option (List α × List α) :=
  (firstRun? less? items).bind fun r =>
    let more := least - r.1.length
    ((r.2.take more).foldl (fun run item => run.bind (insertSorted? less? item)) (some r.1)).map
      fun run => (run, r.2.drop more)

@[simp] theorem firstRun?_nil : firstRun? less? [] = some ([], []) := rfl

@[simp] theorem firstRun?_singleton (a : α) : firstRun? less? [a] = some ([a], []) := rfl

/-- A run of one item has nothing behind it that could be inserted. -/
@[simp] theorem nextRun?_singleton (least : Nat) (a : α) :
    nextRun? less? least [a] = some ([a], []) := by
  simp [nextRun?]

end DataShape.Sorting
