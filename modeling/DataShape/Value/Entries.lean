import DataShape.Traversal

/-! # Entries that a value describes

A mapping is made from other values in three ways: from a mapping, entry by entry; from an object
that lists its keys, by asking the object for the item under each of them; and from pairs, which any
value can yield. Entries are written one after the other, so those in front of a faulty one stay
written.

* `writeEntries` — write the entries that a value describes.
* `entriesFrom` — the entries that a value describes, as a mapping of their own.
* `spreadEntries` — the same for a value that must be a mapping or list its keys. -/

namespace DataShape

variable (d : Dispatch)

section Write

variable {σ : Type} (write : σ → Value → Value → Action σ)

/-! ## Objects that list their keys -/

/-- The item of an object under a key: that of a schema is its field of the name, and other objects
have no items. -/
def itemUnder (obj key : Value) : Action Value :=
  match obj with
  | .schema _ => d.call (.method obj "__getitem__") [key] []
  | _ => throw .wrongType

/-- The keys that an object lists. -/
def listedKeys (obj : Value) : Action (List Value) := do d.items (← callMember d obj "keys" [])

/-- Write the items of an object under some keys. -/
def writeListed (obj : Value) : List Value → σ → Action σ
  | [], s => pure s
  | key :: rest, s => do writeListed obj rest (← write s key (← itemUnder d obj key))

/-! ## Pairs -/

/-- The fault of something in the place of a pair. -/
def pairFault (place length : Nat) : Fault :=
  .wrongValue (s!"dictionary update sequence element #{place} has length {length}; "
    ++ "2 is required")

/-- Write pairs, which are counted from a place. -/
def writePairs : Nat → List Value → σ → Action σ
  | _, [], s => pure s
  | place, pair :: rest, s => do
      match ← iterate d pair with
      | [key, value] => writePairs (place + 1) rest (← write s key value)
      | items => throw (pairFault place items.length)

/-! ## Any value -/

/-- Write the entries of a mapping. -/
def writeMapping : Entries → σ → Action σ
  | [], s => pure s
  | e :: rest, s => do writeMapping rest (← write s e.1 e.2)

/-- Write the entries that a value describes. -/
def writeEntries (v : Value) (s : σ) : Action σ := do
  match ← mappingOf? v with
  | some entries => writeMapping write entries s
  | none =>
      if (← memberOrMissing d v "keys").isMissing then writePairs d write 0 (← iterate d v) s
      else writeListed d write v (← listedKeys d v) s

end Write

/-- Put an entry into a mapping. -/
def putEntry (entries : Entries) (key value : Value) : Action Entries :=
  if key.hashable then pure (Table.insert entries key value) else throw .wrongType

/-- The entries that a value describes. -/
def entriesFrom (v : Value) : Action Entries := writeEntries d putEntry v []

/-- Some entries, with those of a mapping or of an object that lists its keys behind them. An object
that lacks anything that is asked for is of the wrong type. -/
def spreadEntries (entries : Entries) (v : Value) : Action Entries := do
  match ← mappingOf? v with
  | some more => return Table.update entries more
  | none =>
      orElseOn Fault.isAbsence (do writeListed d putEntry v (← listedKeys d v) entries)
        fun _ => throw .wrongType

/-- Nothing is written for no pairs. -/
@[simp] theorem writePairs_nil {σ : Type} (write : σ → Value → Value → Action σ) (place : Nat)
    (s : σ) : writePairs d write place [] s = pure s := rfl

/-- Nothing is written for no keys. -/
@[simp] theorem writeListed_nil {σ : Type} (write : σ → Value → Value → Action σ) (obj : Value)
    (s : σ) : writeListed d write obj [] s = pure s := rfl

/-- A text is put under its key. -/
@[simp] theorem putEntry_str (entries : Entries) (key : String) (value : Value) :
    putEntry entries (.str key) value = pure (Table.insert entries (.str key) value) := by
  simp [putEntry, Value.hashable]

end DataShape
