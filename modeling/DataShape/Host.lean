import DataShape.Capability.Basic
import DataShape.DataType
import DataShape.Schema.Field

/-! # Hosts of capabilities

Types, fields and schemas are hosts: beside the members that every host of the kind has, they have
dynamic members, which are installed capabilities and attributes.

* a type searches its base chain, capabilities before attributes on each type;
* a field searches its own attributes, then the field capabilities of its schema's registry;
* a schema searches the schema capabilities of its registry.

A name that leads to no member is answered with the name of the host.

* `findMember` — the dynamic member of a name.
* `capabilityOn`, `invoke` — the capability of a name, and a call of its function.
* `dynamicMember` — a dynamic member as it is read on the host. -/

namespace DataShape

variable (d : Dispatch)

/-! ## Search -/

/-- What a registry shares under a name, `missing` when there is nothing; an object that is used as
a registry is asked through its members. -/
def sharedMember (registry : Value) (part : String) (table : RegistryNode → CapabilityTable)
    (name : Value) : Action Value := do
  match registry with
  | .registry r =>
      if !name.hashable then throw .wrongType
      return ((table ((← get).registry r)).get? name).getD .missing
  | other =>
      let found ← callMember d (← d.member other part) "get" [name]
      return if found.isNull then .missing else found

/-- The registry of a schema; an object that is used as a schema is asked. -/
def registryOfSchema (schema : Value) : Action Value := do
  match schema with
  | .schema s => return ((← get).schema s).registry
  | other => d.member other "registry"

/-- The dynamic member of a field. -/
def fieldMember (id : Nat) (name : Value) : Action Value := do
  let w ← get
  if !name.hashable then throw .wrongType
  match ← heldUnder? d (w.fieldAttributes id) name with
  | some v => return v
  | none =>
      let registry ← registryOfSchema d (w.field id).schema
      sharedMember d registry "field_capabilities" (·.fieldCapabilities) name

/-- The dynamic member of a schema. -/
def schemaMember (id : Nat) (name : Value) : Action Value := do
  sharedMember d ((← get).schema id).registry "schema_capabilities" (·.schemaCapabilities) name

/-- The dynamic member of a host that its kind finds, `missing` when there is none. -/
def ownSearch (host name : Value) : Action Value :=
  match host with
  | .type id => typeMember d id name
  | .field id => fieldMember d id name
  | .schema id => schemaMember d id name
  | _ => throw (.access .plain)

/-- The dynamic member of a host, `missing` when there is none. -/
def findMember (host name : Value) : Action Value :=
  orStandIn d host "_find_member" [name] pure (ownSearch d host name)

/-! ## Missing capabilities -/

/-- The name by which a host of a kind is reported. -/
def ownHostName (host : Value) : Action Value := do
  match host with
  | .type id => return (← get).typeName id
  | .field id => heldName d id
  | .schema id => schemaName d id
  | _ => return .null

/-- The name by which a host is reported. -/
def hostName (host : Value) : Action Value :=
  orStandIn d host "_dispatch_name" [] pure (ownHostName d host)

/-- The fault of a capability that a host does not have. -/
def capabilityMissing {α : Type} (host name : Value) : Action α := do
  let hostName ← hostName d host
  throw (.notImplemented name (← textOf d name) hostName (← textOf d hostName))

/-! ## Capabilities of a host -/

/-- The capability of a name that a host finds; any other member is none. -/
def ownCapability (host name : Value) : Action Value := do
  let member ← findMember d host name
  return if member.capability?.isSome then member else .null

/-- The capability of a name on a host, `null` when there is none. -/
def capabilityOn (host name : Value) : Action Value :=
  orStandIn d host "get_capability" [name] pure (ownCapability d host name)

/-- Whether a host finds a capability of a name. -/
def hasOwnCapability (host name : Value) : Action Bool := do
  return !(← capabilityOn d host name).isNull

/-- Whether a host has a capability of a name. -/
def hasCapability (host name : Value) : Action Bool :=
  orStandIn d host "has_capability" [name] (truthOf d) (hasOwnCapability d host name)

/-- The function of what a host answered as a capability, bound to the host; `none` where it has no
function. -/
def boundFunction (host capability : Value) : Action (Option Value) := do
  match capability with
  | .null => return none
  | .capability name f g s =>
      if f.isNull then return none else some <$> Capability.bind d ⟨name, f, g, s⟩ host
  | other =>
      if (← d.member other "func").isNull then return none
      else some <$> callMember d other "bind" [host]

/-- Call a function capability of a host by name. -/
def invokeOwn (host name : Value) (arguments : List Value) (named : List (String × Value)) :
    Action Value := do
  match ← boundFunction d host (← capabilityOn d host name) with
  | some f => d.call f arguments named
  | none => capabilityMissing d host name

/-- Call a function capability of a host, in the way of the host. -/
def invoke (host name : Value) (arguments : List Value) : Action Value :=
  orStandIn d host "invoke" (name :: arguments) pure (invokeOwn d host name arguments [])

/-! ## Reading -/

/-- Whether a name is private; private names have no dynamic member. -/
def isPrivateName (name : String) : Bool := name.toList.head? == some '_'

/-- Read a dynamic member: a capability is read on the host, any other value is itself. -/
def dynamicMember (host : Value) (name : String) : Action Value := do
  if isPrivateName name then throw (.access .plain)
  match ← findMember d host (.str name) with
  | .missing => capabilityMissing d host (.str name)
  | v => match v.capability? with
    | some c => c.read d host
    | none => return v

/-- Read a member that is computed; where it fails as if it were not there, the dynamic member of
its name is read instead. -/
def computedMember (host : Value) (name : String) (compute : Action Value) : Action Value :=
  orElseOn Fault.isAbsence compute fun _ => dynamicMember d host name

/-! ## A host without members

A bare host has the operations of all hosts but nothing to search; every search that reaches it is
an operation it does not provide. -/

/-- What a host searches with. -/
def hostSearches : List String := ["_find_member", "_dispatch_name"]

/-- What a host reads and sets members with. -/
def hostAccesses : List String := ["__getattr__", "__setattr__"]

/-- Whether a bare host has a member of a name; a name that it would have to search for is an
operation it does not provide. -/
def bareHas (name : String) : Action Bool :=
  if (hostOperations ++ hostSearches ++ hostAccesses ++ universalNames).contains name then
    pure true
  else if isPrivateName name then pure false
  else throw .notProvided

/-- The value at a dotted path of a bare host. -/
def bareLookup (path : String) (fallback : Value) : Action Value := do
  let names := Text.splitText '.' path
  let found ← bareHas (names.headD "")
  return if found && names.length == 1 then .method .null path else fallback

/-- Call an operation of a bare host. -/
def bareHostCall (operation : String) (arguments : List Value) : Action Value := do
  match operation, arguments with
  | "_find_member", [_] => throw .notProvided
  | "_dispatch_name", [] => throw .notProvided
  | "get_capability", [_] => throw .notProvided
  | "has_capability", [_] => throw .notProvided
  | "invoke", _ :: _ => throw .notProvided
  | "lookup", [.str path] => bareLookup path .missing
  | "lookup", [.str path, fallback] => bareLookup path fallback
  | "lookup", [_] => throw (.access .plain)
  | "lookup", [_, _] => throw (.access .plain)
  | "__getattr__", [.str name] =>
      if isPrivateName name then throw (.access .plain) else throw .notProvided
  | "__setattr__", [.str name, _] =>
      if isPrivateName name then return .null else throw .notProvided
  | operation, _ =>
      if ← bareHas operation then throw .wrongType else throw (.access .plain)

end DataShape
