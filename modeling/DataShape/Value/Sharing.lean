import DataShape.Value.Basic

/-! # Shared containers

A value is a tree, but a list or mapping that is kept somewhere may also occur inside other values,
and a change to it must be seen at all of its occurrences. The share of a container is what its
occurrences have in common.

* `Value.withShares` — give a share to every container that has none yet.
* `Value.replaceShared` — put a changed container in the place of all occurrences of a share; what
  a structural predicate expects is shared under the predicate's identity.
* `Value.depth` — how deep containers and records are nested. -/

namespace DataShape

mutual

/-- Give a new share to every container without one; the counter holds the next share. -/
def Value.withShares : Value → Nat → Value × Nat
  | .list share items, n =>
      let r := sharedItems items n
      if share = 0 then (.list r.2 r.1, r.2 + 1) else (.list share r.1, r.2)
  | .tuple items, n =>
      let r := sharedItems items n
      (.tuple r.1, r.2)
  | .dict share entries, n =>
      let r := sharedEntries entries n
      if share = 0 then (.dict r.2 r.1, r.2 + 1) else (.dict share r.1, r.2)
  | v, n => (v, n)
termination_by structural v => v

/-- `withShares` for every item. -/
def sharedItems : List Value → Nat → List Value × Nat
  | [], n => ([], n)
  | v :: vs, n =>
      let r := v.withShares n
      let rs := sharedItems vs r.2
      (r.1 :: rs.1, rs.2)
termination_by structural vs => vs

/-- `withShares` for every entry. -/
def sharedEntries : List (Value × Value) → Nat → List (Value × Value) × Nat
  | [], n => ([], n)
  | e :: es, n =>
      let r := sharedEntry e n
      let rs := sharedEntries es r.2
      (r.1 :: rs.1, rs.2)
termination_by structural es => es

/-- `withShares` for the value of an entry. -/
def sharedEntry : Value × Value → Nat → (Value × Value) × Nat
  | (k, v), n =>
      let r := v.withShares n
      ((k, r.1), r.2)
termination_by structural e => e

end

mutual

/-- Put a container in the place of every occurrence of a share. -/
def Value.replaceShared (target : Nat) (new : Value) : Value → Value
  | .list share items =>
      if share = target then new else .list share (replaceItems target new items)
  | .tuple items => .tuple (replaceItems target new items)
  | .dict share entries =>
      if share = target then new else .dict share (replaceEntries target new entries)
  | .record id attributes => .record id (replaceEntries target new attributes)
  | .function id name routine captured =>
      .function id name routine (replaceItems target new captured)
  | .static id name f => .static id name (Value.replaceShared target new f)
  | .bound f r => .bound (Value.replaceShared target new f) (Value.replaceShared target new r)
  | .method r name => .method (Value.replaceShared target new r) name
  | .capability name f g s =>
      .capability (Value.replaceShared target new name) (Value.replaceShared target new f)
        (Value.replaceShared target new g) (Value.replaceShared target new s)
  | .predicate p => .predicate (Predicate.replaceShared target new p)
  | v => v
termination_by structural v => v

/-- `replaceShared` for every item. -/
def replaceItems (target : Nat) (new : Value) : List Value → List Value
  | [] => []
  | v :: vs => Value.replaceShared target new v :: replaceItems target new vs
termination_by structural vs => vs

/-- `replaceShared` for every entry. -/
def replaceEntries (target : Nat) (new : Value) : List (Value × Value) → List (Value × Value)
  | [] => []
  | e :: es => replaceEntry target new e :: replaceEntries target new es
termination_by structural es => es

/-- `replaceShared` for the value of an entry. -/
def replaceEntry (target : Nat) (new : Value) : Value × Value → Value × Value
  | (k, v) => (k, Value.replaceShared target new v)
termination_by structural e => e

/-- `replaceShared` inside a predicate. -/
def Predicate.replaceShared (target : Nat) (new : Value) : Predicate → Predicate
  | .present path => .present path
  | .all ps => .all (replaceParts target new ps)
  | .any ps => .any (replaceParts target new ps)
  | .negation p => .negation (Predicate.replaceShared target new p)
  | .structural id expected =>
      match new with
      | .dict _ entries =>
          if id = target then .structural id entries
          else .structural id (replaceEntries target new expected)
      | new => .structural id (replaceEntries target new expected)
  | .test f => .test (Value.replaceShared target new f)
termination_by structural p => p

/-- `replaceShared` inside every part. -/
def replaceParts (target : Nat) (new : Value) : List Predicate → List Predicate
  | [] => []
  | p :: ps => Predicate.replaceShared target new p :: replaceParts target new ps
termination_by structural ps => ps

end

mutual

/-- The nesting depth of containers and records. -/
def Value.depth : Value → Nat
  | .list _ items => depthItems items + 1
  | .tuple items => depthItems items + 1
  | .dict _ entries => depthEntries entries + 1
  | .record _ attributes => depthEntries attributes + 1
  | _ => 0
termination_by structural v => v

/-- The greatest depth of an item. -/
def depthItems : List Value → Nat
  | [] => 0
  | v :: vs => max v.depth (depthItems vs)
termination_by structural vs => vs

/-- The greatest depth of the value of an entry. -/
def depthEntries : List (Value × Value) → Nat
  | [] => 0
  | e :: es => max (depthEntry e) (depthEntries es)
termination_by structural es => es

/-- The depth of the value of an entry. -/
def depthEntry : Value × Value → Nat
  | (_, v) => v.depth
termination_by structural e => e

end

/-- The share of a container. -/
def Value.share? : Value → Option Nat
  | .list share _ => some share
  | .dict share _ => some share
  | _ => none

/-- Items are nested one level less deep than the list that holds them. -/
theorem depth_lt_of_mem {v : Value} {vs : List Value} (h : v ∈ vs) : v.depth ≤ depthItems vs := by
  induction vs with
  | nil => cases h
  | cons w ws ih =>
    rw [depthItems]
    rcases List.mem_cons.1 h with rfl | h
    · exact Nat.le_max_left _ _
    · exact Nat.le_trans (ih h) (Nat.le_max_right _ _)

end DataShape
