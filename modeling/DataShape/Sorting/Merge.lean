import DataShape.Sorting.Place

/-! # Merging two runs

Two sorted runs, one behind the other in a list, become one. Items at the front of the first run
that are in place already, and items at the end of the second run, are left where they are; of what
remains the shorter run is set aside, and both are merged from the end where the room is.

Items are taken one by one, the lesser first, of equal ones that of the first run. When one run
wins as often in a row as the *patience* says, the merge jumps: the place of the head of each run
in the other run is sought, and all items up to it are taken at once. It goes on jumping as long as
the jumps are long; each round of jumps makes it more willing to jump again, and each return to
single steps less.

Where the order is an order, all this gives the one merge that keeps equal items in order. Where it
is none, because some items lie on neither side of others, the way of searching decides, so it is
part of the definition.

* `mergeRuns?` — the merged run, and the patience that is left. -/

namespace DataShape.Sorting

universe u

variable {α : Type u}

/-! ## The state of a merge -/

/-- Two runs on their way into one: the run that was set aside and the other one, both with the
next item first, and what was merged, last item first. -/
structure Merge (α : Type u) where
  kept : List α
  other : List α
  merged : List α
  patience : Nat

namespace Merge

/-- Whether the rest needs no comparison: one run is used up, or of the run that was set aside the
last item is left, which goes behind everything. -/
def isDone (m : Merge α) : Bool :=
  match m.kept, m.other with
  | [], _ => true
  | [_], _ => true
  | _, [] => true
  | _, _ => false

/-- The merged items in order, with the rest of both runs. -/
def result (m : Merge α) : List α :=
  m.merged.reverse ++ match m.kept with
    | [last] => m.other ++ [last]
    | kept => kept ++ m.other

/-- Take items of the run that was set aside. -/
def takeKept (m : Merge α) (count : Nat) : Merge α :=
  { m with kept := m.kept.drop count, merged := (m.kept.take count).reverse ++ m.merged }

/-- Take items of the other run. -/
def takeOther (m : Merge α) (count : Nat) : Merge α :=
  { m with other := m.other.drop count, merged := (m.other.take count).reverse ++ m.merged }

/-- The number of items that are still to be taken. -/
def remaining (m : Merge α) : Nat := m.kept.length + m.other.length

end Merge

/-- The end from which two runs are merged. -/
structure Side (α : Type u) where
  /-- Whether the next item of the other run goes before the one of the run set aside. -/
  otherWins? : α → α → Option Bool
  /-- How many items of the run set aside go before the next item of the other run. -/
  keptAhead? : α → List α → Option Nat
  /-- How many items of the other run go before the next item of the run set aside. -/
  otherAhead? : α → List α → Option Nat
  /-- Whether a round of jumps starts with the run set aside. -/
  keptFirst : Bool

namespace Side

variable (less? : α → α → Option Bool)

/-- From the front, with the first run set aside. -/
def front : Side α where
  otherWins? other kept := less? other kept
  keptAhead? other kept := notAbove? less? other kept.toArray 0
  otherAhead? kept other := below? less? kept other.toArray 0
  keptFirst := true

/-- From the back, with the second run set aside; the runs are given with the last item first. -/
def back : Side α where
  otherWins? other kept := less? kept other
  keptAhead? other kept :=
    (below? less? other kept.reverse.toArray (kept.length - 1)).map (kept.length - ·)
  otherAhead? kept other :=
    (notAbove? less? kept other.reverse.toArray (other.length - 1)).map (other.length - ·)
  keptFirst := false

end Side

/-! ## Single steps and jumps -/

variable (s : Side α)

/-- Take items one by one until the merge is done or a run has won often enough in a row; the
numbers tell how often each run has just won. -/
def singleSteps? : Nat → Nat → Nat → Merge α → Option (Merge α)
  | 0, _, _, m => some m
  | fuel + 1, keptWins, otherWins, m =>
      match m.kept, m.other with
      | x :: _, y :: _ => (s.otherWins? y x).bind fun wins =>
          if wins then
            let m := m.takeOther 1
            if m.isDone || m.patience ≤ otherWins + 1 then some m
            else singleSteps? fuel 0 (otherWins + 1) m
          else
            let m := m.takeKept 1
            if m.isDone || m.patience ≤ keptWins + 1 then some m
            else singleSteps? fuel (keptWins + 1) 0 m
      | _, _ => some m

/-- Take the items of the run set aside that go before the next item of the other run, and then
that item; the number tells how many they were. -/
def jumpKept? (m : Merge α) : Option (Nat × Merge α) :=
  match m.other with
  | [] => some (0, m)
  | y :: _ => (s.keptAhead? y m.kept).map fun count =>
      let m := m.takeKept count
      (count, if m.isDone then m else m.takeOther 1)

/-- Take the items of the other run that go before the next item of the run set aside, and then
that item; the number tells how many they were. -/
def jumpOther? (m : Merge α) : Option (Nat × Merge α) :=
  match m.kept with
  | [] => some (0, m)
  | x :: _ => (s.otherAhead? x m.other).map fun count =>
      let m := m.takeOther count
      (count, if m.isDone then m else m.takeKept 1)

/-- A jump over fewer items is not worth its search. -/
def longJump : Nat := 7

/-- One jump in each run, and whether one of them was long. -/
def jumpRound? (m : Merge α) : Option (Bool × Merge α) :=
  let m := { m with patience := max 1 (m.patience - 1) }
  (if s.keptFirst then jumpKept? s m else jumpOther? s m).bind fun first =>
    if first.2.isDone then some (false, first.2)
    else (if s.keptFirst then jumpOther? s first.2 else jumpKept? s first.2).map fun second =>
      (longJump ≤ first.1 || longJump ≤ second.1, second.2)

/-- Jump as long as the jumps are long. -/
def jumps? : Nat → Merge α → Option (Merge α)
  | 0, m => some m
  | fuel + 1, m => (jumpRound? s m).bind fun r =>
      if r.2.isDone then some r.2
      else if r.1 then jumps? fuel r.2
      else some { r.2 with patience := r.2.patience + 1 }

/-- Merge to the end, in single steps and jumps by turns. -/
def mergeWithin? : Nat → Merge α → Option (Merge α)
  | 0, m => some m
  | fuel + 1, m =>
      if m.isDone then some m
      else (singleSteps? s m.remaining 0 0 m).bind fun m =>
        if m.isDone then some m
        else (jumps? s m.remaining { m with patience := m.patience + 1 }).bind (mergeWithin? fuel)

/-- Merge two runs from one end; the other run is known to have the first item. -/
def mergeFrom? (kept other : List α) (patience : Nat) : Option (List α × Nat) :=
  let m : Merge α := (Merge.mk kept other [] patience).takeOther 1
  (mergeWithin? s m.remaining m).map fun m => (m.result, m.patience)

/-! ## Whole runs -/

/-- Merge two runs that overlap to their ends. -/
def mergeOverlap? (less? : α → α → Option Bool) (first second : List α) (patience : Nat) :
    Option (List α × Nat) :=
  if first.length ≤ second.length then mergeFrom? (Side.front less?) first second patience
  else (mergeFrom? (Side.back less?) second.reverse first.reverse patience).map fun r =>
    (r.1.reverse, r.2)

/-- Merge two runs, the second of which stands behind the first; the patience before and after is
given beside them. -/
def mergeRuns? (less? : α → α → Option Bool) (first second : List α) (patience : Nat) :
    Option (List α × Nat) :=
  match second with
  | [] => some (first, patience)
  | head :: _ => (notAbove? less? head first.toArray 0).bind fun placed =>
      match (first.drop placed).getLast? with
      | none => some (first ++ second, patience)
      | some last => (below? less? last second.toArray (second.length - 1)).bind fun count =>
          if count = 0 then some (first ++ second, patience)
          else (mergeOverlap? less? (first.drop placed) (second.take count) patience).map fun r =>
            (first.take placed ++ r.1 ++ second.drop count, r.2)

/-- Nothing is merged with nothing behind it. -/
@[simp] theorem mergeRuns?_nil (less? : α → α → Option Bool) (first : List α) (patience : Nat) :
    mergeRuns? less? first [] patience = some (first, patience) := rfl

/-- Taking items loses none of them. -/
theorem Merge.perm_takeKept (m : Merge α) (count : Nat) :
    ((m.takeKept count).merged ++ (m.takeKept count).kept).Perm (m.merged ++ m.kept) := by
  have h : ((m.kept.take count).reverse ++ m.merged).Perm (m.merged ++ m.kept.take count) :=
    List.perm_append_comm.trans ((List.reverse_perm _).append_left _)
  have h' := h.append_right (m.kept.drop count)
  rwa [List.append_assoc m.merged, List.take_append_drop] at h'

end DataShape.Sorting
