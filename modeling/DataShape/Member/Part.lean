import DataShape.Host
import DataShape.Schema.Basic

/-! # Private parts

What an object is made of can be read under private names, and the parts of a host can be set. A
part that is set to a value of its kind changes the object; any other value is only stored under
the name, in front of the part.

* `World.partNamed?` — the part of a name.
* `World.ownValues?` — all that an object holds under names of its own.
* `World.withPart?` — the world in which a part of a host has another value. -/

namespace DataShape

namespace World

/-! ## Reading -/

/-- A part of a type. -/
def typePart? (w : World) (id : Nat) (name : String) : Option Value :=
  match name with
  | "_name" => some (.str (w.type id).name)
  | "_base_type" => some (objectOrNull .type (w.type id).base)
  | "_attributes" => some (.live (.typeAttributes id) false)
  | "_capabilities" => some (.table (.type id))
  | _ => none

/-- A part of a field. -/
def fieldPart? (w : World) (id : Nat) (name : String) : Option Value :=
  let f := w.field id
  match name with
  | "_schema" => some f.schema
  | "_name" => some (.str f.name)
  | "_type" => some f.type.toValue
  | "_is_array" => some (.bool f.isArray)
  | "_label" => some f.label
  | "_attributes" => some (.live (.fieldAttributes id) false)
  | _ => none

/-- A part of a schema. -/
def schemaPart? (w : World) (id : Nat) (name : String) : Option Value :=
  let s := w.schema id
  match name with
  | "_registry" => some s.registry
  | "_collection_name" => some s.collectionName
  | "_parent_schema" => some (objectOrNull .schema s.parent)
  | "_fields" => some (.live (.schemaFields id) false)
  | "_has_children" => some (.bool s.hasChildren)
  | "_field_lists" => some (.live (.fieldLists id) false)
  | _ => none

/-- A part of a registry. -/
def registryPart? (id : Nat) (name : String) : Option Value :=
  match name with
  | "_types" => some (.live (.registryTypes id) false)
  | "_schema_capabilities" => some (.table (.registrySchemas id))
  | "_field_capabilities" => some (.table (.registryFields id))
  | _ => none

/-- The part of an object under a private name. -/
def partNamed? (w : World) (v : Value) (name : String) : Option Value :=
  match v with
  | .type id => w.typePart? id name
  | .field id => w.fieldPart? id name
  | .schema id => w.schemaPart? id name
  | .registry id => registryPart? id name
  | .table owner => if name == "_entries" then some (.live (.tableEntries owner) false) else none
  | _ => none

/-! ## Own values -/

/-- The names of the private parts of a host, in their order. -/
def partNames : Value → List String
  | .type _ => ["_name", "_base_type", "_attributes", "_capabilities"]
  | .field _ => ["_schema", "_name", "_type", "_is_array", "_label", "_attributes"]
  | .schema _ => ["_registry", "_collection_name", "_parent_schema", "_fields", "_has_children",
      "_field_lists"]
  | _ => []

/-- The values that a host holds under names of its own: its parts, and what was set on it. -/
def hostValues (w : World) (host : Value) : Table String Value :=
  let parts := (partNames host).filterMap fun n => (w.partNamed? host n).map fun v => (n, v)
  Table.update parts (w.storedOn host)

/-- The values that an object holds under names of its own, as a mapping. -/
def ownValues? (w : World) : Value → Option Value
  | .missing => some (.ofFields [])
  | .function .. => some (.ofFields [])
  | .record _ attributes => some (.freshDict attributes)
  | .option o => some (.ofFields [("label", .str o.label), ("value", .str o.value)])
  | .capability name f g s =>
      some (.ofFields [("name", name), ("func", f), ("fget", g), ("fset", s)])
  | v => if v.isHost then some (.ofFields (w.hostValues v)) else none

/-! ## Setting -/

/-- The entries of a mapping that can be changed. -/
def ownEntries? (w : World) : Value → Option Entries
  | .dict _ entries => some entries
  | .live part false => some (w.partEntries part)
  | _ => none

/-- The projection that a key of kept field lists names. -/
def projectionOf? : Value → Option Projection
  | .tuple [uiOnly, ownOnly] => match uiOnly.integral?, ownOnly.integral? with
    | some 0, some 0 => some ⟨false, false⟩
    | some 0, some 1 => some ⟨false, true⟩
    | some 1, some 0 => some ⟨true, false⟩
    | some 1, some 1 => some ⟨true, true⟩
    | _, _ => none
  | _ => none

/-- An entry of kept field lists, whose value is a sequence of names. -/
def fieldListOf? : Value × Value → Option (Projection × List Value)
  | (key, names) => match projectionOf? key, names.sequence? with
    | some projection, some names => some (projection, names)
    | _, _ => none

/-- A type with another value of a part. -/
def typeWithPart? (w : World) (name : String) (v : Value) (t : TypeNode) : Option TypeNode :=
  match name, v with
  | "_name", .str s => some { t with name := s }
  | "_base_type", .null => some { t with base := none }
  | "_base_type", .type b => some { t with base := some b }
  | "_attributes", v => (w.ownEntries? v).map fun entries => { t with attributes := entries }
  | _, _ => none

/-- A field with another value of a part. -/
def fieldWithPart? (w : World) (name : String) (v : Value) (f : FieldNode) : Option FieldNode :=
  match name, v with
  | "_schema", v => some { f with schema := v }
  | "_name", .str s => some { f with name := s }
  | "_type", .type t => some { f with type := .type t }
  | "_type", .schema s => some { f with type := .schema s }
  | "_is_array", .bool b => some { f with isArray := b }
  | "_label", v => some { f with label := v }
  | "_attributes", v => (w.ownEntries? v).map fun entries => { f with attributes := entries }
  | _, _ => none

/-- A schema with another value of a part. -/
def schemaWithPart? (w : World) (name : String) (v : Value) (s : SchemaNode) : Option SchemaNode :=
  match name, v with
  | "_registry", v => some { s with registry := v }
  | "_collection_name", v => some { s with collectionName := v }
  | "_parent_schema", .null => some { s with parent := none }
  | "_parent_schema", .schema p => some { s with parent := some p }
  | "_fields", v => (w.ownEntries? v).map fun entries => { s with fields := entries }
  | "_has_children", .bool b => some { s with hasChildren := b }
  | "_field_lists", v =>
      ((w.ownEntries? v).bind (·.mapM fieldListOf?)).map fun lists => { s with fieldLists := lists }
  | _, _ => none

/-- The part under whose name a host holds a mapping. -/
def mappingPart? (host : Value) (name : String) : Option Part :=
  match host, name with
  | .type id, "_attributes" => some (.typeAttributes id)
  | .field id, "_attributes" => some (.fieldAttributes id)
  | .schema id, "_fields" => some (.schemaFields id)
  | _, _ => none

/-- The world in which a part of a host is made from another value, which must be of the part's
kind. -/
def withOwnPart? (w : World) (host : Value) (name : String) (v : Value) : Option World :=
  match host with
  | .type id => (w.typeWithPart? name v (w.type id)).map fun t =>
      w.modifyType id fun _ => { t with stored := t.stored.erase name }
  | .field id => (w.fieldWithPart? name v (w.field id)).map fun f =>
      w.modifyField id fun _ => { f with stored := f.stored.erase name }
  | .schema id => (w.schemaWithPart? name v (w.schema id)).map fun s =>
      w.modifySchema id fun _ => { s with stored := s.stored.erase name }
  | _ => none

/-- The world in which a part of a host has another value; a mapping is from then on the same as the
part. -/
def withPart? (w : World) (host : Value) (name : String) (v : Value) : Option World :=
  (w.withOwnPart? host name v).map fun w =>
    (mappingPart? host name).elim w fun part => w.linkPart part v

/-- A name that is no part cannot be set as one. -/
theorem withPart?_of_not_host {w : World} {v : Value} (h : v.isHost = false) (name : String)
    (value : Value) : w.withPart? v name value = none := by
  cases v <;> simp_all [withPart?, withOwnPart?, Value.isHost]

end World

end DataShape
