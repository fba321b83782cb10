import DataShape.Occurrence
import DataShape.Value.Copy
import DataShape.Value.Display
import DataShape.Value.Live
import DataShape.Value.Order

/-! # Data types

A data type has attributes and capabilities of its own and at most one base, whose members it
inherits. A member is searched on the type and then along its base chain; on each type a
capability of the name comes before an attribute of the name. Reserved attributes name the native
representation (`py_type`), the options (`enum_values`) and the default (`default_value`).

* `World.memberAlong?`, `World.attributeAlong?` — the member or attribute of a name along a chain.
* `typeMember`, `typeAttribute`, `isA` — what a type says about itself and its base chain.
* `makeType`, `mergeTypeAttributes`, `installOnType` — create a type, and extend it.
* `isNative` — whether a value has the native representation already.
* `typeDefault` — the default: what a producer gives, or a copy of a plain value. -/

namespace DataShape

namespace TypeNode

/-- The member of a name on the type itself: a capability first, then an attribute. -/
def ownMember? (node : TypeNode) (name : Value) : Option Value :=
  match node.capabilities.get? name with
  | some c => some c
  | none => Table.get? node.attributes name

end TypeNode

namespace World

/-- The member of a name along a chain of types. -/
def memberAlong? (w : World) (chain : List Nat) (name : Value) : Option Value :=
  chain.findSome? fun t => (w.type t).ownMember? name

/-- The attribute of a name along a chain of types. -/
def attributeAlong? (w : World) (chain : List Nat) (name : Value) : Option Value :=
  chain.findSome? fun t => Table.get? (w.type t).attributes name

/-- The name of the type that ends the base chain. -/
def className (w : World) (id : Nat) : Value := w.typeName ((w.lineage id).getLastD id)

/-- The parts of a type that can be set to values of other kinds. -/
def looseParts : List String := ["_base_type", "_attributes", "_capabilities"]

/-- Whether a type and its base chain are made of what types are made of. -/
def isPlainChain (w : World) (id : Nat) : Bool :=
  (w.lineage id).all fun t => looseParts.all fun part => ((w.type t).stored.get? part).isNone

end World

variable (d : Dispatch)

/-! ## Base chains

The nodes of a base chain are types, unless a part of a type was set to something else, or something
stands in for the chain; then any object can be a node. It is asked for its parts. -/

/-- The answer of the first node of a list that has one. -/
def askNodes {α : Type} (ask : Value → Action (Option α)) : List Value → Action (Option α)
  | [] => pure none
  | node :: rest => do
      match ← ask node with
      | some a => return some a
      | none => askNodes ask rest

/-- The answer of the first node of a base chain that has one. -/
def askChain {α : Type} (ask : Value → Action (Option α)) : Nat → Value → Action (Option α)
  | _, .null => pure none
  | 0, _ => throw .tooDeep
  | fuel + 1, node => do
      match ← ask node with
      | some a => return some a
      | none => askChain ask fuel (← d.member node "_base_type")

/-- What the first node of the lineage of a type that has an answer says; `own` is the answer of a
chain of plain types. -/
def searchLineage {α : Type} (id : Nat) (ask : Value → Action (Option α))
    (own : World → List Nat → Option α) : Action (Option α) :=
  orStandIn d (.type id) "lineage" [] (fun v => do askNodes ask (← d.items v)) do
    let w ← get
    if w.isPlainChain id then return own w (w.lineage id)
    else askChain d ask w.chainBound (.type id)

/-- A type followed by its base chain. -/
def lineageOf (id : Nat) : Action (List Value) := do
  let w ← get
  if w.isPlainChain id then return (w.lineage id).map .type
  else chainFrom d "_base_type" w.chainBound (.type id)

/-- The name of the node that ends the base chain. -/
def classNameOf (id : Nat) : Action Value := do
  let w ← get
  if w.isPlainChain id then return w.className id
  else d.member ((← lineageOf d id).getLastD (.type id)) "_name"

/-! ## Inherited members -/

/-- What a container holds under a name. Only mappings hold anything under a name; an item of
another container is found, but cannot be looked up. -/
def heldUnder? (container name : Value) : Action (Option Value) := do
  match ← mappingOf? container with
  | some entries => return Table.get? entries name
  | none => if name.isIn (← iterate d container) then throw .wrongType else return none

/-- The attribute of a name on a node. -/
def nodeAttribute? (name node : Value) : Action (Option Value) := do
  heldUnder? d (← d.member node "_attributes") name

/-- The member of a name on a node: a capability first, then an attribute. -/
def nodeMember? (name node : Value) : Action (Option Value) := do
  let found ← callMember d (← d.member node "_capabilities") "get" [name]
  if found.isNull then nodeAttribute? d name node else return some found

/-- The attribute of a name, searched along the base chain; `missing` when there is none. -/
def inheritedAttribute (id : Nat) (name : Value) : Action Value := do
  if !name.hashable then throw .wrongType
  let found ← searchLineage d id (nodeAttribute? d name) (·.attributeAlong? · name)
  return found.getD .missing

/-- The attribute of a name, as far as the type says. -/
def typeAttribute (id : Nat) (name : Value) : Action Value :=
  orStandIn d (.type id) "_inherited_attribute" [name] pure (inheritedAttribute d id name)

/-- The member of a name, searched along the base chain; `missing` when there is none. -/
def typeMember (id : Nat) (name : Value) : Action Value := do
  if !name.hashable then throw .wrongType
  let found ← searchLineage d id (nodeMember? d name) (·.memberAlong? · name)
  return found.getD .missing

/-- Whether a name, or another type's name, occurs in the base chain. -/
def isA (id : Nat) (other : Value) : Action Bool := do
  let name ← match other with
    | .type o => do pure ((← get).typeName o)
    | other => pure other
  let found ← searchLineage d id
    (fun node => do return if ← areEqual (← d.member node "_name") name then some () else none)
    (fun w chain => if chain.any fun t => w.equal (w.typeName t) name then some () else none)
  return found.isSome

/-- The native representation of a type, empty when there is none. -/
def nativeType (id : Nat) : Action Value := do
  match ← typeAttribute d id (.str "py_type") with
  | .missing => return .null
  | v => return v

/-- The options of a type as a tuple; a type without options has the empty value. -/
def typeOptions (id : Nat) : Action Value := do
  match ← typeAttribute d id (.str "enum_values") with
  | .missing => return .null
  | .null => return .null
  | v => return .tuple (← iterate d v)

/-- Whether a type has options. -/
def isEnumeration (id : Nat) : Action Bool := do truthOf d (← typeOptions d id)

/-- What a declared default gives: the result of a producer, or a copy of a plain value. -/
def produceDefault (v : Value) : Action Value :=
  if v.isCallable then d.call v [] []
  else if v.isMissing then pure v
  else copyOf d v

/-- The default of a type. -/
def typeDefault (id : Nat) : Action Value := do
  produceDefault d (← typeAttribute d id (.str "default_value"))

/-! ## Native representation -/

/-- Whether a value is an instance of a native type. -/
def NativeType.holds : NativeType → Value → Bool
  | .object, _ => true
  | .str, .str _ => true
  | .int, .int _ => true
  | .int, .bool _ => true
  | .float, .float _ => true
  | .bool, .bool _ => true
  | .list, .list .. => true
  | .dict, .dict .. => true
  | .dict, .live _ readOnly => !readOnly
  | .tuple, .tuple _ => true
  | .date, .date _ => true
  | .date, .datetime _ => true
  | .datetime, .datetime _ => true
  | .time, .time _ => true
  | _, _ => false

mutual

/-- Whether a value is an instance of a native type or of one in a tuple, tested in order. A class
that is neither makes the test impossible, unless an earlier one holds. -/
def instanceOf? (v : Value) : Value → Option Bool
  | .native t => some (t.holds v)
  | .tuple classes => instanceOfAny? v classes
  | _ => none
termination_by structural c => c

/-- Whether a value is an instance of one of several classes. -/
def instanceOfAny? (v : Value) : List Value → Option Bool
  | [] => some false
  | c :: cs => (instanceOf? v c).bind fun b => if b then some true else instanceOfAny? v cs
termination_by structural cs => cs

end

/-- Whether a value has a native representation, given as a class or a tuple of classes. A boolean
counts only where the boolean type is named itself. -/
def hasRepresentation? (representation v : Value) : Option Bool :=
  match representation with
  | .null => some false
  | representation =>
      let classes := match representation with
        | .tuple classes => classes
        | c => [c]
      match v with
      | .bool _ =>
          if (Value.native .bool).isIn classes then instanceOfAny? v classes else some false
      | _ => instanceOfAny? v classes

/-- Whether a value has the native representation of a type. -/
def isNative (id : Nat) (v : Value) : Action Bool := do
  match hasRepresentation? (← nativeType d id) v with
  | some b => return b
  | none => throw .wrongType

/-! ## Creating and extending types -/

/-- The attributes of a type, to be read only. -/
def viewAttributes (id : Nat) : Action Value := do
  match ← standIn? (.type id) "_attributes" with
  | none => return .live (.typeAttributes id) true
  | some (.live part _) => return .live part true
  | some _ => throw .wrongType

/-- Add attributes to a type; they must be a mapping. -/
def mergeTypeAttributes (id : Nat) (attributes : Value) : Action Unit := do
  match ← mappingOf? attributes with
  | some entries => match ← standIn? (.type id) "_attributes" with
    | some held => discard (callMember d held "update" [attributes])
    | none =>
        modify fun w => w.changePart (.typeAttributes id) fun own => Table.update own entries
  | none =>
      let name ← textOf d ((← get).typeName id)
      throw (.definition (.attributesNotMapping name (← shown d attributes)))

/-- Create a type that no registry knows yet. -/
def makeType (name attributes base : Value) : Action Nat := do
  match name with
  | .str s =>
      if s.isEmpty then throw (.definition (.typeName (← shown d name)))
      let parent ← match base with
        | .null => pure none
        | .type id => pure (some id)
        | other => throw (.definition (.baseNotType s (← shown d other)))
      if ← truthOf d attributes then
        match ← mappingOf? attributes with
        | some entries => newType ⟨s, parent, Table.update [] entries, [], []⟩
        | none => throw (.definition (.attributesNotMapping s (← shown d attributes)))
      else newType ⟨s, parent, [], [], []⟩
  | other => throw (.definition (.typeName (← shown d other)))

/-- Change the capability table that a value stands for. -/
def modifyTable (owner : TableOwner) (change : CapabilityTable → CapabilityTable) : Action Unit :=
  modify fun w => match owner with
    | .type id => w.modifyType id fun t => { t with capabilities := change t.capabilities }
    | .registrySchemas id =>
        w.modifyRegistry id fun r => { r with schemaCapabilities := change r.schemaCapabilities }
    | .registryFields id =>
        w.modifyRegistry id fun r => { r with fieldCapabilities := change r.fieldCapabilities }

/-- Put any object that has a name, such as a capability, into a table under its name. -/
def installNamed (owner : TableOwner) (v : Value) : Action Unit := do
  let name ← d.member v "name"
  if !name.hashable then throw .wrongType
  modifyTable owner fun table => Table.insert table name v

/-- Install a capability on one type; a table of another kind that was set on the type is asked to
take it. -/
def installOnType (id : Nat) (v : Value) : Action Unit := do
  match ← standIn? (.type id) "_capabilities" with
  | some table => discard (callMember d table "install" [v])
  | none => installNamed d (.type id) v

/-- The capability table of a type. -/
def capabilitiesOf (id : Nat) : Action Value := do
  return (← get).setOr (.type id) "_capabilities" (.table (.type id))

/-- The values of a list in order. -/
def sortValues (vs : List Value) : Action (List Value) :=
  match sorted? vs with
  | some sorted => pure sorted
  | none => throw .wrongType

/-- The names of the capabilities of a type. -/
def capabilityNamesOf (id : Nat) : Action (List Value) := do
  match ← standIn? (.type id) "_capabilities" with
  | some table => d.items (← callMember d table "names" [])
  | none => return ((← get).type id).capabilities.keys

/-- The description of a type: names only, the options in full. -/
def describeType (id : Nat) : Action Value := do
  let name := (← get).typeName id
  let base ← baseName? d id
  let attributes ← iterate d
    ((← get).setOr (.type id) "_attributes" (.live (.typeAttributes id) true))
  let attributes ← sortValues attributes
  let capabilities ← sortValues (← capabilityNamesOf d id)
  let common : List (String × Value) :=
    [("name", name), ("base_type", base.getD .null), ("attributes", .fresh attributes),
      ("capabilities", .fresh capabilities)]
  let options ← typeOptions d id
  if ← truthOf d options then
    let items ← (options.sequence?.getD []).mapM fun o => callMember d o "to_dict" []
    return .ofFields (common ++ [("enum_values", .fresh items)])
  else return .ofFields common

/-- The first type of a chain is the first to be asked. -/
theorem World.memberAlong?_own {w : World} {id : Nat} {name v : Value} (rest : List Nat)
    (h : (w.type id).ownMember? name = some v) : w.memberAlong? (id :: rest) name = some v := by
  simp [World.memberAlong?, h]

/-- A chain without types answers nothing. -/
@[simp] theorem World.memberAlong?_nil (w : World) (name : Value) : w.memberAlong? [] name = none :=
  rfl

/-- No value is native to a type without a native representation. -/
@[simp] theorem hasRepresentation?_null (v : Value) : hasRepresentation? .null v = some false := rfl

/-- Everything but a boolean is native to the type of all objects. -/
theorem hasRepresentation?_object {v : Value} (h : ∀ b, v ≠ .bool b) :
    hasRepresentation? (.native .object) v = some true := by
  cases v <;> simp_all [hasRepresentation?, instanceOfAny?, instanceOf?, NativeType.holds]

end DataShape
