/-! # Places in sorted lists

The place of an item in a sorted list is the number of items that go in front of it. It is found by
halving, or, where it is expected near a known place, by steps of growing width away from that
place and then by halving.

Items are compared by a function that gives nothing for two items that cannot be compared; then
there is no place.

* `halve?` — the place between two bounds, by halving.
* `placeNear?` — the place, sought from a place nearby.
* `below?`, `notAbove?` — how many items come before an item, and how many it does not come
  before. -/

namespace DataShape.Sorting

universe u

variable {α : Type u}

/-- The first place between two bounds that a test does not hold of, where the test holds of all
places up to some place and of none from there on. `fuel` bounds the number of steps. -/
def halve? (ahead? : Nat → Option Bool) : Nat → Nat → Nat → Option Nat
  | 0, low, _ => some low
  | fuel + 1, low, high =>
      if low < high then
        let middle := low + (high - low) / 2
        (ahead? middle).bind fun ahead =>
          if ahead then halve? ahead? fuel (middle + 1) high else halve? ahead? fuel low middle
      else some low

/-- Steps of the widths 1, 3, 7, … below a limit, as long as a test holds: the widest step of which
it holds, and a wider one at which the search ends. -/
def widen? (holds? : Nat → Option Bool) (limit : Nat) : Nat → Nat → Nat → Option (Nat × Nat)
  | 0, near, step => some (near, min step limit)
  | fuel + 1, near, step =>
      if step < limit then
        (holds? step).bind fun holds =>
          if holds then widen? holds? limit fuel step (2 * step + 1) else some (near, step)
      else some (near, min step limit)

/-- The first place that a test does not hold of, sought from a place nearby. -/
def placeNear? (ahead? : Nat → Option Bool) (length hint : Nat) : Option Nat :=
  (ahead? hint).bind fun ahead =>
    if ahead then
      (widen? (fun step => ahead? (hint + step)) (length - hint) length 0 1).bind fun r =>
        halve? ahead? length (hint + r.1 + 1) (hint + r.2)
    else
      (widen? (fun step => (ahead? (hint - step)).map not) (hint + 1) length 0 1).bind fun r =>
        halve? ahead? length (hint + 1 - r.2) (hint - r.1)

section Items

variable (less? : α → α → Option Bool) (key : α) (items : Array α)

/-- Whether the item at a place comes before the key. -/
def isBelow? (place : Nat) : Option Bool := items[place]?.bind fun item => less? item key

/-- Whether the key does not come before the item at a place. -/
def isNotAbove? (place : Nat) : Option Bool :=
  items[place]?.bind fun item => (less? key item).map not

/-- How many sorted items come before a key, sought from a place nearby. -/
def below? (hint : Nat) : Option Nat := placeNear? (isBelow? less? key items) items.size hint

/-- How many sorted items a key does not come before, sought from a place nearby. -/
def notAbove? (hint : Nat) : Option Nat := placeNear? (isNotAbove? less? key items) items.size hint

end Items

/-- Between equal bounds there is one place. -/
@[simp] theorem halve?_self (ahead? : Nat → Option Bool) (fuel low : Nat) :
    halve? ahead? fuel low low = some low := by
  cases fuel <;> simp [halve?]

/-- A place found by halving lies between the bounds. -/
theorem le_of_halve? {ahead? : Nat → Option Bool} {fuel low high place : Nat} (h : low ≤ high)
    (hp : halve? ahead? fuel low high = some place) : low ≤ place ∧ place ≤ high := by
  induction fuel generalizing low high with
  | zero => simp [halve?] at hp; omega
  | succ fuel ih =>
    simp only [halve?] at hp
    split at hp
    · obtain ⟨b, -, hb⟩ := Option.bind_eq_some_iff.1 hp
      split at hb
      · have := ih (by omega) hb; omega
      · have := ih (by omega) hb; omega
    · have := Option.some.inj hp; omega

end DataShape.Sorting
