import DataShape.Fault
import DataShape.Table
import DataShape.Value.Equality

/-! # The state of a session

Types, schemas, fields and registries have an identity and change in place, so they live in a
`World` and are referred to by their number. Objects are only ever added; a number, once given out,
keeps its object. An `Action` reads and changes the world and may end in a fault; what it changed
before the fault stays changed.

* `ancestry` — an object followed by the objects it derives from, as many as there can be.
* `World.lineage`, `World.schemaChain` — the base chain of a type and the parent chain of a
  schema.
* `World.mapping?` — the entries of a mapping, looked up where it is a live part of an object. -/

namespace DataShape

/-! ## Objects -/

/-- A named function, or a named pair of a getter and a setter; an absent part is `null`. -/
structure Capability where
  name : Value
  function : Value
  getter : Value
  setter : Value
deriving Inhabited

/-- A capability as a value. -/
def Capability.toValue (c : Capability) : Value :=
  .capability c.name c.function c.getter c.setter

/-- The capability that a value is. -/
def Value.capability? : Value → Option Capability
  | .capability name f g s => some ⟨name, f, g, s⟩
  | _ => none

@[simp] theorem Capability.capability?_toValue (c : Capability) : c.toValue.capability? = some c :=
  rfl

/-- What was installed on an object, by name, in the order of the first installation of a name:
capabilities, or other objects that have a name. -/
abbrev CapabilityTable := Table Value Value

/-- Install a capability under its name; the last installation of a name wins. -/
def CapabilityTable.install (t : CapabilityTable) (c : Capability) : CapabilityTable :=
  Table.insert t c.name c.toValue

/-- A data type: its own attributes and capabilities, and at most one base. `stored` holds values
that were set on the object itself; one under the name of a method stands in for the method. -/
structure TypeNode where
  name : String
  base : Option Nat
  attributes : Entries
  capabilities : CapabilityTable
  stored : Table String Value
deriving Inhabited

/-- What a field holds: a data type, or a record of another schema. -/
inductive FieldType where
  | type (id : Nat)
  | schema (id : Nat)
deriving DecidableEq, Repr, Inhabited

/-- A field of a schema. -/
structure FieldNode where
  schema : Value
  name : String
  type : FieldType
  isArray : Bool
  label : Value
  attributes : Entries
  stored : Table String Value
deriving Inhabited

/-- Which fields a list of field names covers. -/
structure Projection where
  uiOnly : Bool
  ownOnly : Bool
deriving DecidableEq, Repr, Inhabited

/-- The key under which the field list of a projection is kept. -/
def Projection.toKey (p : Projection) : Value := .tuple [.bool p.uiOnly, .bool p.ownOnly]

/-- A schema: its own fields in order, at most one parent, and the field lists computed so far. The
registry may be any object that is used like one, and a field any object that was added as one. -/
structure SchemaNode where
  registry : Value
  collectionName : Value
  parent : Option Nat
  fields : Table Value Value
  hasChildren : Bool
  fieldLists : Table Projection (List Value)
  stored : Table String Value
deriving Inhabited

/-- A registry: types by name, and the capabilities of all schemas and fields made with it. -/
structure RegistryNode where
  types : Table String Nat
  schemaCapabilities : CapabilityTable
  fieldCapabilities : CapabilityTable
deriving Inhabited

/-! ## Log -/

/-- The part of the engine that a log record comes from. -/
inductive LogOrigin where
  | registry | compiler | schema
deriving DecidableEq, Repr, Inhabited

/-- The two levels at which the engine writes records. -/
inductive LogLevel where
  | debug | warning
deriving DecidableEq, Repr, Inhabited

/-- How records are written. -/
inductive LogFormat where
  | text | json
deriving DecidableEq, Repr, Inhabited

/-- A record of the log, in the format in force when it was written. -/
structure LogRecord where
  format : LogFormat
  origin : LogOrigin
  level : LogLevel
  text : String
deriving DecidableEq, Repr, Inhabited

/-- The logging in force: a numeric level, a format, and the number of attached handlers. -/
structure LogSetup where
  level : Nat
  format : LogFormat
  handlers : Nat
deriving DecidableEq, Repr, Inhabited

/-! ## Links between objects -/

/-- An optional object as a value. -/
def objectOrNull (make : Nat → Value) (id : Option Nat) : Value := id.elim .null make

/-- What a field holds, as a value. -/
def FieldType.toValue : FieldType → Value
  | .type id => .type id
  | .schema id => .schema id

/-! ## World and actions -/

/-- Everything that operations can see and change. -/
structure World where
  types : Array TypeNode
  fields : Array FieldNode
  schemas : Array SchemaNode
  registries : Array RegistryNode
  /-- The registry that is used where none is given. -/
  sharedRegistry : Option Nat
  /-- The registry that functions of providers work on; without one it is the shared registry. -/
  homeRegistry : Option Nat
  /-- How the names of environment variables of this engine begin. -/
  variableStart : String
  environment : List (String × String)
  logging : Option LogSetup
  log : Array LogRecord
  /-- How often each counting function was called. -/
  counters : Table Nat Nat
  /-- What functions have stored by name. -/
  store : Entries
  /-- Results kept by the caller. -/
  kept : Table String Value
  /-- The next unused identity. -/
  nextIdentity : Nat
  /-- Parts of objects that are containers with a share. -/
  sharedParts : List (Nat × Part)
deriving Inhabited

/-- The world before anything was defined. -/
def World.empty (variableStart : String) (environment : List (String × String)) : World :=
  ⟨#[], #[], #[], #[], none, none, variableStart, environment, none, #[], [], [], [], 1,
    []⟩

/-- An operation on the world that gives a result or a fault. -/
abbrev Action := ExceptT Fault (StateM World)

namespace World

/-- The type of a number. -/
def type (w : World) (id : Nat) : TypeNode := w.types.getD id default

/-- The field of a number. -/
def field (w : World) (id : Nat) : FieldNode := w.fields.getD id default

/-- The schema of a number. -/
def schema (w : World) (id : Nat) : SchemaNode := w.schemas.getD id default

/-- The registry of a number. -/
def registry (w : World) (id : Nat) : RegistryNode := w.registries.getD id default

/-- The capability table that a value stands for. -/
def capabilityTable (w : World) : TableOwner → CapabilityTable
  | .type id => (w.type id).capabilities
  | .registrySchemas id => (w.registry id).schemaCapabilities
  | .registryFields id => (w.registry id).fieldCapabilities

/-- The values that were set on a host itself. -/
def storedOn (w : World) : Value → Table String Value
  | .type id => (w.type id).stored
  | .field id => (w.field id).stored
  | .schema id => (w.schema id).stored
  | _ => []

/-- A value that was set on a host under a private name, or what the host was made with. -/
def setOr (w : World) (host : Value) (name : String) (made : Value) : Value :=
  ((w.storedOn host).get? name).getD made

/-- The base of a type. -/
def baseOf (w : World) (id : Nat) : Value :=
  w.setOr (.type id) "_base_type" (objectOrNull .type (w.type id).base)

/-- The parent of a schema. -/
def parentOf (w : World) (id : Nat) : Value :=
  w.setOr (.schema id) "_parent_schema" (objectOrNull .schema (w.schema id).parent)

/-- What a field holds. -/
def fieldType (w : World) (id : Nat) : Value := w.setOr (.field id) "_type" (w.field id).type.toValue

/-- A kept field list with the projection it is kept under. -/
def fieldListEntry (e : Projection × List Value) : Value × Value := (e.1.toKey, .tuple e.2)

/-- The entries of a part of an object. -/
def partEntries (w : World) : Part → Entries
  | .typeAttributes id => (w.type id).attributes
  | .fieldAttributes id => (w.field id).attributes
  | .schemaFields id => (w.schema id).fields
  | .fieldLists id => (w.schema id).fieldLists.map fieldListEntry
  | .registryTypes id => (w.registry id).types.map fun e => (.str e.1, .type e.2)
  | .tableEntries owner => w.capabilityTable owner

/-- The entries of a mapping. -/
def mapping? (w : World) : Value → Option Entries
  | .dict _ entries => some entries
  | .live part _ => some (w.partEntries part)
  | _ => none

/-- Change one type. -/
def modifyType (w : World) (id : Nat) (f : TypeNode → TypeNode) : World :=
  { w with types := w.types.modify id f }

/-- Change one field. -/
def modifyField (w : World) (id : Nat) (f : FieldNode → FieldNode) : World :=
  { w with fields := w.fields.modify id f }

/-- Change one schema. -/
def modifySchema (w : World) (id : Nat) (f : SchemaNode → SchemaNode) : World :=
  { w with schemas := w.schemas.modify id f }

/-- Change one registry. -/
def modifyRegistry (w : World) (id : Nat) (f : RegistryNode → RegistryNode) : World :=
  { w with registries := w.registries.modify id f }

end World

/-- Add a type and give its number. -/
def newType (node : TypeNode) : Action Nat := do
  let w ← get
  set { w with types := w.types.push node }
  return w.types.size

/-- Add a field and give its number. -/
def newField (node : FieldNode) : Action Nat := do
  let w ← get
  set { w with fields := w.fields.push node }
  return w.fields.size

/-- Add a schema and give its number. -/
def newSchema (node : SchemaNode) : Action Nat := do
  let w ← get
  set { w with schemas := w.schemas.push node }
  return w.schemas.size

/-- Add an empty registry and give its number. -/
def newRegistry : Action Nat := do
  let w ← get
  set { w with registries := w.registries.push ⟨[], [], []⟩ }
  return w.registries.size

/-- An identity that was never given out before. -/
def newIdentity : Action Nat := do
  let w ← get
  set { w with nextIdentity := w.nextIdentity + 1 }
  return w.nextIdentity

/-- Run an action and, where it ends in a fault that a test accepts, go on with a second one. -/
def orElseOn {α : Type} (accept : Fault → Bool) (first : Action α) (second : Fault → Action α) :
    Action α :=
  tryCatch first fun fault => if accept fault then second fault else throw fault

/-- The least level that is written when the configured level is zero. -/
def defaultLogLevel : Nat := 30

/-- The number of a level. -/
def LogLevel.number : LogLevel → Nat
  | .debug => 10
  | .warning => 30

/-- Whether a record of a level is written. -/
def LogSetup.writes (s : LogSetup) (level : LogLevel) : Bool :=
  (if s.level = 0 then defaultLogLevel else s.level) ≤ level.number

/-- Write a log record, if logging is set up and its level is not below the configured one. -/
def writeLog (origin : LogOrigin) (level : LogLevel) (text : String) : Action Unit :=
  modify fun w => match w.logging with
    | some s =>
        if s.writes level then { w with log := w.log.push ⟨s.format, origin, level, text⟩ } else w
    | none => w

/-- The entries of a mapping in the present world. -/
def mappingOf? (v : Value) : Action (Option Entries) := return (← get).mapping? v

/-! ## Chains -/

/-- An object followed by its chain of parents, at most `fuel` of them. -/
def ancestry (parent : Nat → Option Nat) : Nat → Nat → List Nat
  | 0, id => [id]
  | fuel + 1, id => id :: (parent id).elim [] (ancestry parent fuel)

/-- A chain starts with the object itself. -/
theorem ancestry_head (parent : Nat → Option Nat) (fuel id : Nat) :
    ∃ rest, ancestry parent fuel id = id :: rest := by
  cases fuel <;> exact ⟨_, rfl⟩

/-- Without a parent the chain is the object alone. -/
theorem ancestry_of_none {parent : Nat → Option Nat} {id : Nat} (h : parent id = none)
    (fuel : Nat) : ancestry parent fuel id = [id] := by
  cases fuel <;> simp [ancestry, h]

/-- Where parents are older than their children, a chain ends within as many steps as the number
of its start. -/
theorem ancestry_stable {parent : Nat → Option Nat} (older : ∀ i p, parent i = some p → p < i)
    (id : Nat) : ∀ fuel fuel' : Nat, id ≤ fuel → id ≤ fuel' →
      ancestry parent fuel id = ancestry parent fuel' id := by
  induction id using Nat.strongRecOn with
  | _ id ih =>
    intro fuel fuel' h h'
    cases hp : parent id with
    | none => rw [ancestry_of_none hp, ancestry_of_none hp]
    | some p =>
      have hlt := older id p hp
      obtain ⟨n, rfl⟩ : ∃ n, fuel = n + 1 := ⟨fuel - 1, by omega⟩
      obtain ⟨m, rfl⟩ : ∃ m, fuel' = m + 1 := ⟨fuel' - 1, by omega⟩
      simp [ancestry, hp, ih p hlt n m (by omega) (by omega)]

/-- Where parents are older than their children, every member of a chain is at most as young as its
start. -/
theorem le_of_mem_ancestry {parent : Nat → Option Nat} (older : ∀ i p, parent i = some p → p < i)
    (fuel : Nat) : ∀ {id m : Nat}, m ∈ ancestry parent fuel id → m ≤ id := by
  induction fuel with
  | zero => intro id m h; simp_all [ancestry]
  | succ fuel ih =>
    intro id m h
    cases hp : parent id with
    | none => simp_all [ancestry]
    | some p =>
      have hlt := older id p hp
      simp only [ancestry, hp, Option.elim_some, List.mem_cons] at h
      rcases h with rfl | h
      · exact Nat.le_refl _
      · exact Nat.le_trans (ih h) (Nat.le_of_lt hlt)

namespace World

/-- A type followed by its base chain. -/
def lineage (w : World) (id : Nat) : List Nat :=
  ancestry (fun i => (w.type i).base) w.types.size id

/-- A schema followed by its parent chain. -/
def schemaChain (w : World) (id : Nat) : List Nat :=
  ancestry (fun i => (w.schema i).parent) w.schemas.size id

end World

/-- A mapping of its own is not looked up. -/
@[simp] theorem World.mapping?_dict (w : World) (share : Nat) (entries : Entries) :
    w.mapping? (.dict share entries) = some entries := rfl

end DataShape
