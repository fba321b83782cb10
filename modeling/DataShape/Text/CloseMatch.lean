/-! # Close matches

Suggestions for a misspelt name. Two sequences are as alike as twice the number of elements in
their matching blocks over the sum of their lengths. The matching blocks are found greedily: the
longest common block (of several, the one that starts first in the candidate, then first in the
word), then the blocks to its left and to its right.

In a word of 200 elements or more, elements that fill over one percent of it are too frequent to
start a block; they only extend one.

A word may be a sequence that can only be walked. Then the longest block is found, but not what lies
beside it; where anything would have to be looked up there, no likeness is found.

* `matched` — the number of elements in matching blocks.
* `closeMatches` — the candidates that are at least 60 percent alike, best first, ties by
  descending order of their texts.
* `closeToWalk?` — the same for a word that can only be walked. -/

namespace DataShape.Text

universe u

variable {α : Type u} [BEq α]

/-- A common block: where it starts in the candidate and in the word, and its length. -/
structure Block where
  inCandidate : Nat
  inWord : Nat
  size : Nat
deriving DecidableEq, Repr

/-- For every position of the word, the length of the common run that ends there and at the
current element of the candidate, from the lengths of the element before. -/
def runLengths (starts : α → Bool) (x : α) : List α → List Nat → List Nat
  | [], _ => []
  | y :: ys, previous =>
      (if x == y && starts y then previous.headD 0 + 1 else 0)
        :: runLengths starts x ys previous.tail

/-- Keep the first of the longest blocks that end at one element of the candidate. -/
def improve (i : Nat) : Nat → List Nat → Block → Block
  | _, [], best => best
  | j, k :: ks, best =>
      improve i (j + 1) ks (if best.size < k then ⟨i + 1 - k, j + 1 - k, k⟩ else best)

/-- The first longest block of elements that may start one. -/
def longestRun (starts : α → Bool) (word : List α) : Nat → List α → List Nat → Block → Block
  | _, [], _, best => best
  | i, x :: xs, previous, best =>
      let row := runLengths starts x word (0 :: previous)
      longestRun starts word (i + 1) xs row (improve i 0 row best)

/-- The length of the longest common beginning. -/
def commonStart : List α → List α → Nat
  | x :: xs, y :: ys => if x == y then commonStart xs ys + 1 else 0
  | _, _ => 0

/-- The longest block, extended to both sides by equal elements of any kind. -/
def longestBlock (starts : α → Bool) (candidate word : List α) : Block :=
  let best := longestRun starts word 0 candidate [] ⟨0, 0, 0⟩
  let left := commonStart (candidate.take best.inCandidate).reverse (word.take best.inWord).reverse
  let right := commonStart (candidate.drop (best.inCandidate + best.size))
    (word.drop (best.inWord + best.size))
  ⟨best.inCandidate - left, best.inWord - left, left + best.size + right⟩

/-- The number of elements in matching blocks; every block takes at least one element of the
candidate, so its length bounds the depth of the search. -/
def matchedWithin (starts : α → Bool) : Nat → List α → List α → Nat
  | 0, _, _ => 0
  | depth + 1, candidate, word =>
      let b := longestBlock starts candidate word
      if b.size = 0 then 0
      else b.size
        + matchedWithin starts depth (candidate.take b.inCandidate) (word.take b.inWord)
        + matchedWithin starts depth (candidate.drop (b.inCandidate + b.size))
            (word.drop (b.inWord + b.size))

/-- Whether an element of the word is rare enough to start a block. -/
def mayStart (word : List α) (x : α) : Bool :=
  word.length < 200 || word.countP (· == x) ≤ word.length / 100 + 1

/-- The number of elements of a candidate and a word that lie in matching blocks. -/
def matched (candidate word : List α) : Nat :=
  matchedWithin (mayStart word) candidate.length candidate word

/-- How alike a candidate is to a word: matched elements out of the sum of both lengths. -/
structure Likeness where
  matchedCount : Nat
  total : Nat
deriving DecidableEq, Repr

/-- Twice the matched share is at least three fifths; two empty sequences are alike. -/
def Likeness.isClose (l : Likeness) : Bool := l.total = 0 || 3 * l.total ≤ 10 * l.matchedCount

/-- One share exceeds the other. -/
def Likeness.exceeds (l r : Likeness) : Bool :=
  r.matchedCount * l.total < l.matchedCount * r.total

/-- The likeness of a candidate to a word. -/
def likeness (candidate word : List α) : Likeness :=
  ⟨matched candidate word, candidate.length + word.length⟩

/-- At most `limit` of the names of close candidates, best first. -/
def bestNames (limit : Nat) (scored : List (Likeness × String)) : List String :=
  let before (x y : Likeness × String) : Bool :=
    x.1.exceeds y.1 || (!y.1.exceeds x.1 && y.2 ≤ x.2)
  (((scored.filter (·.1.isClose)).mergeSort before).take limit).map Prod.snd

/-- At most `limit` of the named candidates that are close to a word, best first. -/
def closeMatches (limit : Nat) (word : List α) (candidates : List (String × List α)) :
    List String :=
  bestNames limit (candidates.map fun c => (likeness c.2 word, c.1))

/-! ## Words that can only be walked -/

/-- The number of elements that two sequences have in common, each counted as often as it is in
both. -/
def shared : List α → List α → Nat
  | [], _ => 0
  | x :: xs, ys => if ys.contains x then shared xs (ys.erase x) + 1 else shared xs ys

/-- A bound on the likeness of a candidate to a word. -/
def likenessBound (candidate word : List α) : Likeness :=
  ⟨shared candidate word, candidate.length + word.length⟩

/-- The number of elements in matching blocks, where nothing beside the longest block has to be
looked at. -/
def matchedAtOnce? (candidate word : List α) : Option Nat :=
  let b := longestRun (mayStart word) word 0 candidate [] ⟨0, 0, 0⟩
  let openBefore := 0 < b.inCandidate && 0 < b.inWord
  let openBehind := b.inCandidate + b.size < candidate.length && b.inWord + b.size < word.length
  if openBefore || openBehind then none else some b.size

/-- The likeness of a candidate to a word that can only be walked. A candidate that is not close by
the bound is not looked at any further. -/
def walkLikeness? (candidate word : List α) : Option Likeness :=
  let bound := likenessBound candidate word
  if bound.isClose then (matchedAtOnce? candidate word).map (⟨·, bound.total⟩) else some bound

/-- At most `limit` of the named candidates that are close to a word that can only be walked, best
first; none where a likeness cannot be found. -/
def closeToWalk? (limit : Nat) (word : List α) (candidates : List (String × List α)) :
    Option (List String) :=
  (candidates.mapM fun c => (walkLikeness? c.2 word).map (·, c.1)).map (bestNames limit)

/-- No more names than asked for. -/
theorem length_bestNames_le (limit : Nat) (scored : List (Likeness × String)) :
    (bestNames limit scored).length ≤ limit := by
  rw [bestNames, List.length_map]
  exact List.length_take_le _ _

/-- No more suggestions than asked for. -/
theorem length_closeMatches_le (limit : Nat) (word : List α)
    (candidates : List (String × List α)) :
    (closeMatches limit word candidates).length ≤ limit :=
  length_bestNames_le limit _

end DataShape.Text
