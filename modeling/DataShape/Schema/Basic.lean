import DataShape.Catalog
import DataShape.Schema.Field

/-! # Schemas

A schema has fields of its own, in order, and at most one parent, whose fields it inherits. A name
declared again keeps its inherited place and stands for the declaration nearest to the schema.
Field lists are computed once for each projection and then kept.

Usually the fields of a schema are fields that were made for it. Any other object that says that it
belongs to the schema can be added as well; it is listed and found by its name, and is asked
through its members.

* `makeSchema` — create a schema without fields.
* `addField` — add a field that was made for the schema.
* `findField` — the field of a name.
* `fieldList` — the names of the fields, of all or of the own ones, with or without those that are
  left out of user interfaces.
* `visitFields` — walk the fields of a list in order. -/

namespace DataShape

variable (d : Dispatch)

/-! ## Making schemas -/

/-- The parent that a schema is made with. -/
def parentOf (parent : Value) : Action (Option Nat) := do
  match parent with
  | .null => return none
  | .schema id => return some id
  | other => throw (.definition (.parentSchema (← shown d other)))

/-- The registry of a new schema: a given one, its parent's, or the shared one. -/
def registryForSchema (given : Value) (parent : Option Nat) : Action Value := do
  if !given.isNull then return given
  match parent with
  | some p => return ((← get).schema p).registry
  | none => return .registry (← sharedRegistry d)

/-- Create a schema. Without a registry it takes its parent's, or the shared one. -/
def makeSchema (collectionName parent registry : Value) : Action Nat := do
  let parentId ← parentOf d parent
  let home ← registryForSchema d registry parentId
  let id ← newSchema ⟨home, collectionName, parentId, [], false, [], []⟩
  match parentId with
  | some p => modify fun w => w.modifySchema p fun s =>
      { s with hasChildren := true, stored := s.stored.erase "_has_children" }
  | none => pure ()
  return id

/-! ## Adding fields -/

/-- Put a field among the own fields of a schema, which must be its own mapping. -/
def placeField (schema : Nat) (name field : Value) : Action Unit := do
  if (← standIn? (.schema schema) "_fields").isSome then throw .wrongType
  modify fun w => w.changePart (.schemaFields schema) fun own => Table.insert own name field

/-- Add an object to the own fields of the schema that it belongs to. -/
def addObject (schema : Nat) (object : Value) : Action Unit := do
  let owner ← d.member object "schema"
  let name ← d.member object "name"
  if owner.identical (.schema schema) then
    if !name.hashable then throw .wrongType
    placeField schema name object
  else throw (.definition (.foreignField (← textOf d name)))

/-- Add a field to the schema it was made for. -/
def addField (schema : Nat) (field : Value) : Action Unit := do
  match field with
  | .field id =>
      let name := (← get).fieldName id
      if ((← get).field id).schema.identical (.schema schema) then placeField schema name field
      else throw (.definition (.foreignField (← textOf d name)))
  | other => addObject d schema other

/-! ## Finding fields -/

/-- The own field of a name, `null` when there is none. A name that cannot be a key is of the wrong
type. -/
def ownField (schema : Nat) (name : Value) : Action Value := do
  match ← standIn? (.schema schema) "_fields" with
  | some held => callMember d held "get" [name]
  | none =>
      if !name.hashable then throw .wrongType
      return (((← get).schema schema).fields.get? name).getD .null

/-- The own field of a name, or what a further search gives. -/
def ownFieldOr (schema : Nat) (name : Value) (further : Action Value) : Action Value := do
  let field ← ownField d schema name
  if field.isNull then further else return field

/-- Ask the object that was set in the place of a parent for the field of a name; without one the
search goes on along the chain. -/
def parentFieldOr (schema : Nat) (name : Value) (along : Action Value) : Action Value := do
  match ← foreignParent? schema with
  | some parent => callMember d parent "get_field" [name]
  | none => along

/-- The field of a name along a chain of schemas, `null` when there is none. -/
def fieldAlong (name : Value) : List Nat → Action Value
  | [] => pure .null
  | id :: rest =>
      orStandIn d (.schema id) "get_field" [name] pure
        (ownFieldOr d id name (parentFieldOr d id name (fieldAlong name rest)))

/-- The field of a name that a schema itself or one of its parents declares, `null` when there is
none. -/
def declaredField (schema : Nat) (name : Value) : Action Value := do
  ownFieldOr d schema name <| parentFieldOr d schema name
    (fieldAlong d name ((← get).schemaChain schema).tail)

/-- The field of a name, as far as the schema says. -/
def findField (schema : Nat) (name : Value) : Action Value := do
  fieldAlong d name ((← get).schemaChain schema)

/-- The field of a name, which must be there. -/
def fieldNamed (schema : Nat) (name : Value) : Action Value := do
  match ← findField d schema name with
  | .null => throw .noEntry
  | field => return field

/-- Whether a schema has a field of a name; only texts are names. -/
def hasField (schema : Nat) (name : Value) : Action Bool := do
  match name with
  | .str _ => return !(← findField d schema name).isNull
  | _ => return false

/-- The schema that ends the parent chain. -/
def World.rootSchema (w : World) (id : Nat) : Nat := (w.schemaChain id).getLastD id

/-- The object that ends the parent chain, in which other objects may take part. -/
def rootOf (id : Nat) : Action Value := do
  let w ← get
  if (w.schemaChain id).all fun s => ((w.schema s).stored.get? "_parent_schema").isNone then
    return .schema (w.rootSchema id)
  else return (← chainFrom d "_parent_schema" w.chainBound (.schema id)).getLastD (.schema id)

/-! ## What a field says -/

/-- Whether a field holds a list. -/
def holdsArray (field : Value) : Action Bool := do
  match field with
  | .field id => fieldIsArray d id
  | other => truthOf d (← d.member other "is_array")

/-- What a field holds. -/
def heldType (field : Value) : Action Value := do
  match field with
  | .field id => return (← get).fieldType id
  | other => d.member other "type"

/-- Whether a field is left out of user interfaces. -/
def isExcluded (field : Value) : Action Bool := do
  match field with
  | .field id => uiExclude d id
  | other => truthOf d (← d.member other "ui_exclude")

/-! ## Field lists -/

/-- The projection that flags choose, which are given by position: whether fields that are left out
of user interfaces are dropped, and whether only own fields count. Flags that are not given are not
set. -/
def Projection.ofFlags (flags : List Value) : Action Projection := do
  let flag (place : Nat) : Action Bool := truthOf d ((flags[place]?).getD (.bool false))
  return ⟨← flag 0, ← flag 1⟩

/-- The names that a schema inherits. -/
def inheritedNames (schema : Nat) : Action (List Value) := do
  match (← get).parentOf schema with
  | .null => return []
  | .schema p => allFieldNames d p
  | other => d.items (← callMember d other "get_field_list" [])

/-- The inherited names and the own names, or the own names alone. -/
def declaredNames (schema : Nat) (ownOnly : Bool) : Action (List Value) := do
  let inherited ← if ownOnly then pure [] else inheritedNames d schema
  return mergeNames inherited (← ownFieldNames d schema)

/-- Whether the field of a name is shown in user interfaces. -/
def isShown (schema : Nat) (name : Value) : Action Bool := do
  return !(← isExcluded d (← findField d schema name))

/-- The names of the fields of a schema under a projection; the list is computed once. -/
def fieldList (schema : Nat) (projection : Projection) : Action (List Value) :=
  listedNames d schema projection do
    let declared ← declaredNames d schema projection.ownOnly
    if projection.uiOnly then declared.filterM (isShown d schema) else return declared

/-- The names of the fields that flags choose, as far as the schema says. -/
def fieldNames (schema : Nat) (flags : List Value) : Action (List Value) :=
  orStandIn d (.schema schema) "get_field_list" flags d.items do
    fieldList d schema (← Projection.ofFlags d flags)

/-! ## Walking fields -/

/-- Visit the fields that names stand for; fields left out of user interfaces by now are passed
over, even when their names are still in the list, and so are objects that are no fields. -/
def visitNames {σ : Type} (schema : Nat) (uiOnly : Bool) (visit : σ → Value → Action σ) :
    List Value → σ → Action σ
  | [], state => pure state
  | name :: rest, state => do
      match ← findField d schema name with
      | .field id =>
          let skipped ← if uiOnly then uiExclude d id else pure false
          if skipped then visitNames schema uiOnly visit rest state
          else do visitNames schema uiOnly visit rest (← visit state (.field id))
      | _ => visitNames schema uiOnly visit rest state

/-- Both flags of a projection, given some of them by position. -/
def bothFlags (flags : List Value) : List Value :=
  let flag (place : Nat) : Value := (flags[place]?).getD (.bool false)
  [flag 0, flag 1]

/-- Visit the fields of a schema that flags choose, in the order of its field list. -/
def visitOwn {σ : Type} (schema : Nat) (flags : List Value) (start : σ)
    (visit : σ → Value → Action σ) : Action σ := do
  let names ← fieldNames d schema (bothFlags flags)
  let projection ← Projection.ofFlags d flags
  visitNames d schema projection.uiOnly visit names start

/-- Visit the fields of a schema that flags choose, as far as the schema says. -/
def visitFields {σ : Type} (schema : Nat) (flags : List Value) (start : σ)
    (visit : σ → Value → Action σ) : Action σ := do
  match ← standIn? (.schema schema) "iter_fields" with
  | some f => (← d.items (← d.call f flags [])).foldlM visit start
  | none => visitOwn d schema flags start visit

/-- The fields of a schema that flags choose. -/
def fieldsOf (schema : Nat) (flags : List Value) : Action (List Value) :=
  visitOwn d schema flags [] fun fields field => pure (fields ++ [field])

/-! ## Description -/

/-- The description of a field of a schema, as far as the field says. -/
def describeMember (field : Value) : Action Value :=
  match field with
  | .field id => orStandIn d field "to_dict" [] pure (describeField d id)
  | other => callMember d other "to_dict" []

/-- What is held as the own fields of a schema. -/
def heldFields (id : Nat) : Action Value :=
  return (← get).setOr (.schema id) "_fields" (.live (.schemaFields id) false)

/-- The own fields of a schema. -/
def ownFields (id : Nat) : Action (List Value) := do
  let held ← heldFields id
  match ← mappingOf? held with
  | some entries => return Table.values entries
  | none => d.items (← callMember d held "values" [])

/-- The description of a schema. -/
def describeSchema (id : Nat) : Action Value := do
  let collectionName := ((← get).schema id).collectionName
  let parent ← parentName? d id
  let fields ← (← ownFields d id).mapM (describeMember d)
  return .ofFields
    [("collection_name", collectionName), ("parent_schema", parent.getD .null),
     ("fields", .fresh fields)]

/-- A name is not searched in an empty chain. -/
@[simp] theorem fieldAlong_nil (name : Value) : fieldAlong d name [] = pure .null := rfl

/-- Without names there is nothing to visit. -/
@[simp] theorem visitNames_nil {σ : Type} (schema : Nat) (uiOnly : Bool)
    (visit : σ → Value → Action σ) (state : σ) :
    visitNames d schema uiOnly visit [] state = pure state := rfl

end DataShape
