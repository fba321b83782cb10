import DataShape.Function

/-! # Sessions

A session works on a registry of its own, seeded in one of three ways, or on the shared one. It
keeps results under handles, so that later operations can refer to them and entries of kept
containers can be changed in place.

* `openSession` — make the registry of a session.
* `keep`, `keptValue` — keep a result and find it again.
* `changeKept` — change one entry inside a kept value; every place that holds the same container
  sees the change. -/

namespace DataShape

/-! ## Opening -/

/-- What a new registry holds. -/
inductive Seed where
  /-- The whole catalog. -/
  | full
  /-- The primitive types only. -/
  | primitives
  | empty
deriving DecidableEq, Repr, Inhabited

/-- Make a registry. -/
def seededRegistry (d : Dispatch) (seed : Seed) : Action Nat := do
  let registry ← newRegistry
  match seed with
  | .full => seedCatalog d registry true
  | .primitives => seedCatalog d registry false
  | .empty => pure ()
  return registry

/-- Open a session on a registry of its own, or on the shared one, which is made on first use. -/
def openSession (d : Dispatch) (seed : Option Seed) : Action Unit := do
  match seed with
  | some seed =>
      let registry ← seededRegistry d seed
      modify fun w => { w with homeRegistry := some registry }
  | none => modify fun w => { w with homeRegistry := none }

/-! ## Kept results -/

/-- Keep a result under a handle; its containers can be changed from now on. -/
def keep (handle : String) (v : Value) : Action Unit := do
  let w ← get
  let r := v.withShares w.nextIdentity
  set { w with nextIdentity := r.2, kept := w.kept.insert handle r.1 }

/-- The result kept under a handle. -/
def keptValue (handle : String) : Action Value := do
  match (← get).kept.get? handle with
  | some v => return v
  | none => throw .noEntry

/-! ## Changes in place -/

section Changes

variable (d : Dispatch)

/-- The place of an item counted from the start, or from the end for a negative index. -/
def placeOf? (length : Nat) (index : Int) : Option Nat :=
  let place := if index < 0 then index + length else index
  if 0 ≤ place then some place.toNat else none

/-- The item at an index of a sequence, a text or bytes. -/
def itemAtIndex (container : Value) (index : Int) : Action Value :=
  let find (items : List Value) : Action Value :=
    match (placeOf? items.length index).bind (items[·]?) with
    | some v => pure v
    | none => throw .noItem
  match container with
  | .list _ items => find items
  | .tuple items => find items
  | .str s => find (s.toList.map fun c => .str (String.singleton c))
  | .bytes bs => find (bs.map fun b => .int b.toNat)
  | _ => throw .wrongType

/-- The item of a container under a key or at an index; that of a schema is its field of a name. -/
def itemAt (container key : Value) : Action Value := do
  match container, ← mappingOf? container, key.integral? with
  | _, some entries, _ =>
      if !key.hashable then throw .wrongType
      match Table.get? entries key with
      | some v => return v
      | none => throw .noEntry
  | .schema id, none, _ => fieldNamed d id key
  | container, none, some index => itemAtIndex container index
  | _, none, none => throw .wrongType

/-- The value inside a container that keys lead to. -/
def itemAlong : Value → List Value → Action Value
  | v, [] => pure v
  | v, key :: rest => do itemAlong (← itemAt d v key) rest

/-- A list with one item changed; the index behind the last item appends. -/
def setItem? (items : List Value) (index : Int) (v : Value) : Option (List Value) :=
  (placeOf? items.length index).bind fun place =>
    if place < items.length then some (items.set place v)
    else if place = items.length then some (items ++ [v])
    else none

/-- A container with one entry changed. -/
def withEntry (container key v : Value) : Action Value :=
  match container, key.integral? with
  | .dict share entries, _ =>
      if key.hashable then pure (.dict share (Table.insert entries key v)) else throw .wrongType
  | .list share items, some index => match setItem? items index v with
    | some items => pure (.list share items)
    | none => throw .noItem
  | _, _ => throw .wrongType

/-- Set an entry of a part of an engine object. -/
def setPartEntry (part : Part) (key v : Value) : Action Unit :=
  match part, key, v with
  | .tableEntries owner, key, v => modifyTable owner fun table => Table.insert table key v
  | .fieldLists id, key, v => match World.fieldListOf? (key, v) with
    | some (projection, names) => keepNames id projection names
    | none => throw .wrongType
  | .registryTypes id, .str name, .type t =>
      modify fun w => w.modifyRegistry id fun r => { r with types := r.types.insert name t }
  | .registryTypes _, _, _ => throw .wrongType
  | part, key, v => modify fun w => w.changePart part fun entries => Table.insert entries key v

/-- Change one entry of a container wherever the container occurs; a part that is only to be read
cannot be changed. -/
def changeEntry (container key v : Value) : Action Unit := do
  match container with
  | .live part false =>
      if key.hashable then setPartEntry part key v else throw .wrongType
  | container =>
      let changed ← withEntry container key v
      match container.share? with
      | some share => modify fun w => w.replaceShared share changed
      | none => pure ()

/-- Change the entry of a kept value that a path of keys leads to, and give the value after the
change. -/
def changeKept (handle : String) (path : List Value) (v : Value) : Action Value := do
  match path.getLast? with
  | none => throw .wrongType
  | some key =>
      changeEntry (← itemAlong d (← keptValue handle) path.dropLast) key v
      keptValue handle

end Changes

/-! ## Conversion by type -/

/-- Convert values as a field of a given type would. -/
def convertAs (d : Dispatch) (registry : Nat) (type : Value) (values : List Value) :
    Action Value := do
  let key := Value.str "f"
  let schema ← compileSchema d (.freshDict [(key, type)]) .null .null (.registry registry)
  let converted ← values.mapM fun v => do
    itemAt d (← convert d schema (.freshDict [(key, v)]) false) key
  return .fresh converted

/-- A changed list keeps its length or grows by one. -/
theorem length_setItem? {items changed : List Value} {index : Int} {v : Value}
    (h : setItem? items index v = some changed) :
    changed.length = items.length ∨ changed.length = items.length + 1 := by
  obtain ⟨place, _, hp⟩ := Option.bind_eq_some_iff.1 h
  split at hp
  · simp_all [← Option.some.inj hp]
  · split at hp
    · simp [← Option.some.inj hp]
    · simp at hp

end DataShape
