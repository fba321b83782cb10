import DataShape.Dispatch
import DataShape.Value.Live

/-! # Copies

A copy of a value is made of new objects throughout: containers get new shares, and plain records,
callable objects and structural predicates new identities. An object that occurs several times in a
value occurs as often, as one new object, in its copy. A record may say itself what its copy is.
Plain functions and engine types stand for themselves. Registries, schemas, fields, read-only views
and static functions cannot be copied, nor can anything that contains one.

The copy follows the value and renames every identity that it meets through a table, which keeps
the new name of each old one.

* `copyOf` — the copy of a value. -/

namespace DataShape

variable (d : Dispatch)

/-- What a copy has met so far: the new identities by the old ones, and the copies that records gave
of themselves. -/
structure Renaming where
  renamed : List (Nat × Nat)
  answered : List (Nat × Value)

/-- A step of a copy. -/
abbrev Copying (α : Type) := StateT Renaming Action α

/-- The new identity of an old one, given out at its first occurrence. -/
def renameIdentity (old : Nat) : Copying Nat := do
  let r ← get
  match r.renamed.lookup old with
  | some new => return new
  | none =>
      let new ← newIdentity
      set { r with renamed := (old, new) :: r.renamed }
      return new

/-- The new share of a container; one that nothing else refers to has no share. -/
def renameShare (share : Nat) : Copying Nat :=
  if share = 0 then pure 0 else renameIdentity share

/-- There is no copy. -/
def noCopy {α : Type} : Copying α := throwThe Fault .wrongType

/-- The member by which a record says what its copy is. -/
def copyMember : String := "__deepcopy__"

/-- The copy that a record gives of itself, which is asked for once. -/
def answeredCopy (id : Nat) (hook : Value) : Copying Value := do
  match (← get).answered.lookup id with
  | some v => return v
  | none =>
      let v ← d.call hook [.freshDict []] []
      modify fun r => { r with answered := (id, v) :: r.answered }
      return v

mutual

/-- The copy of a value. -/
def Value.copied : Value → Copying Value
  | .list share items => do return .list (← renameShare share) (← copiedItems items)
  | .tuple items => do return .tuple (← copiedItems items)
  | .dict share entries => do return .dict (← renameShare share) (← copiedEntries entries)
  | .record id attributes =>
      match Table.get? attributes (.str copyMember) with
      | none => do return .record (← renameIdentity id) (← copiedEntries attributes)
      | some .null => do return .record (← renameIdentity id) (← copiedEntries attributes)
      | some hook => answeredCopy d id hook
  | .function id name .forward captured => do
      return .function (← renameIdentity id) name .forward (← copiedItems captured)
  | .bound f receiver => do return .bound f (← receiver.copied)
  | .method receiver name => do return .method (← receiver.copied) name
  | .capability name f g s => do
      return .capability (← name.copied) (← f.copied) (← g.copied) (← s.copied)
  | .predicate p => do return .predicate (← p.copied)
  | .live .. => noCopy
  | .static .. => noCopy
  | .schema _ => noCopy
  | .field _ => noCopy
  | .registry _ => noCopy
  | .table _ => noCopy
  | v => pure v
termination_by structural v => v

/-- The copy of every item. -/
def copiedItems : List Value → Copying (List Value)
  | [] => pure []
  | v :: vs => do return (← v.copied) :: (← copiedItems vs)
termination_by structural vs => vs

/-- The copy of every entry. -/
def copiedEntries : List (Value × Value) → Copying (List (Value × Value))
  | [] => pure []
  | e :: es => do return (← copiedEntry e) :: (← copiedEntries es)
termination_by structural es => es

/-- The copy of a key and its value. -/
def copiedEntry : Value × Value → Copying (Value × Value)
  | (k, v) => do return (← k.copied, ← v.copied)
termination_by structural e => e

/-- The copy of a predicate. -/
def Predicate.copied : Predicate → Copying Predicate
  | .present path => pure (.present path)
  | .all ps => do return .all (← copiedParts ps)
  | .any ps => do return .any (← copiedParts ps)
  | .negation p => do return .negation (← p.copied)
  | .structural id expected => do
      return .structural (← renameIdentity id) (← copiedEntries expected)
  | .test f => do return .test (← f.copied)
termination_by structural p => p

/-- The copy of every part. -/
def copiedParts : List Predicate → Copying (List Predicate)
  | [] => pure []
  | p :: ps => do return (← p.copied) :: (← copiedParts ps)
termination_by structural ps => ps

end

/-- A deep copy of a value; it shares nothing with the first one. -/
def copyOf (v : Value) : Action Value := do
  let r ← ((← get).settled false v).copied d |>.run ⟨[], []⟩
  return r.1

/-- An identity that was renamed keeps its new name. -/
theorem renameIdentity_of_mem {old new : Nat} {r : Renaming} (h : r.renamed.lookup old = some new) :
    (renameIdentity old).run r = pure (new, r) := by
  simp [renameIdentity, h]

/-- A text is its own copy. -/
@[simp] theorem copied_str (s : String) : (Value.str s).copied d = pure (.str s) := by
  rw [Value.copied]
  all_goals simp

end DataShape
