import DataShape.Instance.Basic
import DataShape.Member.Part
import DataShape.Member.Signature
import DataShape.Schema.Fingerprint
import DataShape.Schema.Record

/-! # Members

A member of a host is read in a fixed order: members that every host of its kind computes, values
that were set on the host itself, its private parts, the methods of its kind, and then its dynamic
members. Installed capabilities therefore never hide a member of the kind. A computed member that
fails as if it were not there gives way to the dynamic member of its name.

* `computedMember?` — the computed members of every value.
* `readMember`, `memberOr`, `hasMember`, `setMember` — read, read with a default, test and set. -/

namespace DataShape

variable (d : Dispatch)

/-! ## Computed members -/

/-- The computed members of a type. -/
def typeComputed? (id : Nat) (name : String) : Option (Action Value) :=
  match name with
  | "name" => some do return (← get).typeName id
  | "base_type" => some do return (← get).baseOf id
  | "attributes" => some (viewAttributes id)
  | "capabilities" => some (capabilitiesOf id)
  | "class_name" => some (classNameOf d id)
  | "py_type" => some (nativeType d id)
  | "enum_values" => some (typeOptions d id)
  | "is_enumeration" => some do return .bool (← isEnumeration d id)
  | "default_value" => some (typeDefault d id)
  | _ => none

/-- Whether a value is a schema. -/
def Value.isSchema : Value → Bool
  | .schema _ => true
  | _ => false

/-- The flag of a field as it is stored. -/
def World.arrayFlag (w : World) (id : Nat) : Value :=
  ((w.field id).stored.get? "_is_array").getD (.bool (w.field id).isArray)

/-- The computed members of a field. -/
def fieldComputed? (id : Nat) (name : String) : Option (Action Value) :=
  match name with
  | "schema" => some do return ((← get).field id).schema
  | "name" => some do return (← get).fieldName id
  | "type" => some do return (← get).fieldType id
  | "is_array" => some do return (← get).arrayFlag id
  | "label" => some (fieldLabel d id)
  | "attributes" => some do return .freshDict (← entriesFrom d ((← get).fieldAttributes id))
  | "is_schema_reference" => some do return .bool ((← get).fieldType id).isSchema
  | "is_required" => some do return .bool (← isRequired d id)
  | "min_val" => some (fieldAttribute d id "validation.min" .null)
  | "max_val" => some (fieldAttribute d id "validation.max" .null)
  | "ui_exclude" => some do return .bool (← uiExclude d id)
  | "has_default" => some do return .bool (← hasDefault d id)
  | "default" => some (fieldDefault d id)
  | _ => none

/-- Whether a schema was extended, as it is stored. -/
def World.childrenFlag (w : World) (id : Nat) : Value :=
  ((w.schema id).stored.get? "_has_children").getD (.bool (w.schema id).hasChildren)

/-- The computed members of a schema. -/
def schemaComputed? (id : Nat) (name : String) : Option (Action Value) :=
  match name with
  | "name" => some (schemaName d id)
  | "collection_name" => some do return ((← get).schema id).collectionName
  | "parent_schema" => some do return (← get).parentOf id
  | "registry" => some do return ((← get).schema id).registry
  | "fields" => some do return .freshDict (← entriesFrom d (← heldFields id))
  | "has_children" => some do return (← get).childrenFlag id
  | "is_subclass" => some do return .bool !((← get).parentOf id).isNull
  | "root_schema" => some (rootOf d id)
  | "fingerprint" => some do return .str (← fingerprint d id)
  | _ => none

/-- The members of a capability. -/
def Capability.memberNamed? (c : Capability) (name : String) : Option Value :=
  match name with
  | "name" => some c.name
  | "func" => some c.function
  | "fget" => some c.getter
  | "fset" => some c.setter
  | "is_accessor" => some (.bool c.isAccessor)
  | _ => none

/-- The members of a predicate. -/
def Predicate.memberNamed? (p : Predicate) (name : String) : Option Value :=
  match p, name with
  | .present path, "path" => some (.str path)
  | .all parts, "predicates" => some (.tuple (parts.map .predicate))
  | .any parts, "predicates" => some (.tuple (parts.map .predicate))
  | .negation part, "predicate" => some (.predicate part)
  | .structural id expected, "expected" => some (.dict id expected)
  | .test f, "func" => some f
  | _, _ => none

/-- The members of a callable: its names, and the function and the receiver that it joins. -/
def Value.callableMember? (v : Value) (name : String) : Option Value :=
  match name, v with
  | "__name__", v => v.functionName?.map .str
  | "__qualname__", v => v.qualifiedName?.map .str
  | "__func__", .bound f _ => some f
  | "__func__", .static _ _ f => some f
  | "__wrapped__", .static _ _ f => some f
  | "__self__", .bound _ r => some r
  | "__self__", .method r _ => some r
  | _, _ => none

/-- The members of a value that is no host. -/
def Value.memberNamed? (v : Value) (name : String) : Option Value :=
  match v, name with
  | .registry id, "schema_capabilities" => some (.table (.registrySchemas id))
  | .registry id, "field_capabilities" => some (.table (.registryFields id))
  | .capability n f g s, name => Capability.memberNamed? ⟨n, f, g, s⟩ name
  | .predicate p, name => p.memberNamed? name
  | .option o, "label" => some (.str o.label)
  | .option o, "value" => some (.str o.value)
  | .target t, "name" => some (.str t.label)
  | .target t, "value" => some (.str t.name)
  | .record _ attributes, name => Table.get? attributes (.str name)
  | v, name => v.callableMember? name

/-- The computed members of a value; absent for a name that is not computed. -/
def computedMember? (v : Value) (name : String) : Option (Action Value) :=
  match v with
  | .type id => typeComputed? d id name
  | .field id => fieldComputed? d id name
  | .schema id => schemaComputed? d id name
  | v => (v.memberNamed? name).map pure

/-! ## Reading -/

/-- What an object holds under a name: all its own values together, one that was set, or a part. -/
def World.heldUnder? (w : World) (v : Value) (name : String) : Option Value :=
  if name == "__dict__" then w.ownValues? v
  else (w.storedOn v).get? name <|> w.partNamed? v name

/-- Whether an object provides an operation: a method of its kind, or one that belongs to every
object. -/
def Value.provides (v : Value) (name : String) : Bool :=
  (signatureOf? v name).isSome || universalNames.contains name

/-- Read a member that is not computed. -/
def plainMember (v : Value) (name : String) : Action Value := do
  match (← get).heldUnder? v name with
  | some found => return found
  | none =>
      if v.provides name then return .method v name
      else if v.isHost then dynamicMember d v name
      else throw (.access .plain)

/-- Read a member. -/
def readMember (v : Value) (name : String) : Action Value :=
  match computedMember? d v name with
  | some compute => if v.isHost then computedMember d v name compute else compute
  | none => plainMember d v name

/-- Read a member, or give a default where there is none. -/
def memberOr (v : Value) (name : String) (fallback : Value) : Action Value :=
  orElseOn Fault.isAbsence (readMember d v name) fun _ => pure fallback

/-- Whether reading a member gives a value. -/
def hasMember (v : Value) (name : String) : Action Bool :=
  orElseOn Fault.isAbsence ((fun _ => true) <$> readMember d v name) fun _ => pure false

/-! ## Setting -/

/-- Set a value on a host itself. -/
def storeOn (host : Value) (name : String) (value : Value) : Action Unit :=
  match host with
  | .type id =>
      modify fun w => w.modifyType id fun t => { t with stored := t.stored.insert name value }
  | .field id =>
      modify fun w => w.modifyField id fun f => { f with stored := f.stored.insert name value }
  | .schema id =>
      modify fun w => w.modifySchema id fun s => { s with stored := s.stored.insert name value }
  | _ => throw (.access .plain)

/-- Names that belong to every object and can be set to nothing that a caller could give. -/
def reservedNames : List String := ["__class__", "__dict__"]

/-- Set a name on a host itself: its private parts are changed, computed members cannot be set, and
any other name is stored. -/
def assignOn (host : Value) (name : String) (value : Value) : Action Unit := do
  if reservedNames.contains name then throw .wrongType
  if name == "__weakref__" || (computedMember? d host name).isSome then throw (.access .plain)
  match (← get).withPart? host name value with
  | some w => set w
  | none => storeOn host name value

/-- Write what a host answered as a capability, if it is an accessor; the result tells whether it
is one. -/
def writeAccessor (host capability value : Value) : Action Bool := do
  match capability with
  | .null => return false
  | .capability name f g s =>
      let c : Capability := ⟨name, f, g, s⟩
      if c.isAccessor then c.write d host value
      return c.isAccessor
  | other =>
      let accessor ← truthOf d (← d.member other "is_accessor")
      if accessor then discard (callMember d other "write" [host, value])
      return accessor

/-- Set a member: an accessor is written, and any other name is set on the host itself. -/
def setMember (host : Value) (name : String) (value : Value) : Action Unit := do
  let written ← if isPrivateName name then pure false
    else do writeAccessor d host (← capabilityOn d host (.str name)) value
  if !written then assignOn d host name value

/-- A computed member of a value that is no host is read as it is. -/
theorem readMember_of_not_host {v : Value} (h : v.isHost = false) {name : String}
    {compute : Action Value} (hc : computedMember? d v name = some compute) :
    readMember d v name = compute := by
  simp [readMember, hc, h]

/-- The attributes of a record are its members. -/
theorem readMember_record {id : Nat} {attributes : Entries} {name : String} {v : Value}
    (h : Table.get? attributes (.str name) = some v) :
    readMember d (.record id attributes) name = pure v := by
  simp [readMember, computedMember?, Value.memberNamed?, h, Value.isHost]

end DataShape
