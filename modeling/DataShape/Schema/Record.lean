import DataShape.Host
import DataShape.Schema.Basic
import DataShape.Value.Sharing

/-! # Records

What a schema does with records.

* `sanitize` — project a record onto the declared fields: names that are not declared are dropped,
  nested records are projected by the schema of their field. A value that is no record projects to
  nothing.
* `convert` — bring the values of a record toward the native representation of their fields'
  types, through the types' `from_string`; a value that cannot be read stays as it is.
* `defaultRecord` — the record of all defaults. -/

namespace DataShape

variable (d : Dispatch)

/-! ## Projection -/

/-- Whether a value has members that a projection can look up: mappings and all objects that carry
state of their own, but no plain data. -/
def Value.isRecordLike : Value → Bool
  | .dict .. => true
  | .live .. => true
  | .record .. => true
  | .missing => true
  | .option _ => true
  | .target _ => true
  | .type _ => true
  | .schema _ => true
  | .field _ => true
  | .registry _ => true
  | .table _ => true
  | .function .. => true
  | .static .. => true
  | .bound .. => true
  | .method (.dict ..) _ => false
  | .method (.live ..) _ => false
  | .method .. => true
  | .capability .. => true
  | .predicate _ => true
  | _ => false

/-- Project the value of a field; `nested` projects a nested record by its schema. -/
def projectValue (nested : Nat → Value → Action Value) (field value : Value) : Action Value := do
  match ← heldType d field with
  | .schema inner =>
      match ← holdsArray d field, value.sequence? with
      | true, some items => return .fresh (← items.mapM (nested inner))
      | _, _ => nested inner value
  | _ => return value

/-- Project the values of a record under the names of a field list. -/
def projectNames (nested : Nat → Value → Action Value) (schema : Nat) (record : Value) :
    List Value → Entries → Action Entries
  | [], entries => pure entries
  | name :: rest, entries => do
      let value ← lookupKey d record name
      if value.isMissing then projectNames nested schema record rest entries
      else
        let field ← findField d schema name
        let projected ← projectValue d nested field value
        projectNames nested schema record rest (Table.insert entries name projected)

/-- Project a record, down to a depth of nested records. -/
def sanitizeWithin (uiOnly : Value) : Nat → Nat → Value → Action Value
  | 0, _, _ => throw .tooDeep
  | depth + 1, schema, record => do
      if !record.isRecordLike then return .null
      let names ← fieldNames d schema [uiOnly]
      let nested (inner : Nat) (value : Value) : Action Value :=
        orStandIn d (.schema inner) "sanitize" [value, uiOnly] pure
          (sanitizeWithin uiOnly depth inner value)
      return .freshDict (← projectNames d nested schema record names [])

/-- How deep records can be nested in which objects take part that make further records when they
are read. -/
def objectDepth : Nat := 1000

/-- Project a record onto the fields of a schema. Without objects in it a record is at most as deep
as its containers. -/
def sanitize (schema : Nat) (record uiOnly : Value) : Action Value := do
  let w ← get
  sanitizeWithin d uiOnly (w.schemas.size + w.types.size + record.depth + objectDepth) schema record

/-! ## Coercion -/

/-- Read a text through the `from_string` of a type. -/
def readText (type : Value) (text : String) : Action Value := do
  match type with
  | .type _ => invoke d type (.str "from_string") [.str text]
  | other => callMember d other "invoke" [.str "from_string", .str text]

/-- Read a value through the `from_string` of a type; a value it cannot read stays as it is. -/
def readThrough (field : Nat) (type value : Value) : Action Value :=
  orElseOn Fault.isCoercionFault (do readText d type (← textOf d value))
    fun fault => do
      let text ← shown d value
      let name ← textOf d ((← get).fieldName field)
      let typeName ← textOf d (← nameOf d type)
      writeLog .schema .debug
        s!"Leaving {text} unconverted for field '{name}' ({typeName}): {fault.message}"
      return value

/-- Whether a value is native to a type, as far as the type says. -/
def countsAsNative (type value : Value) : Action Bool := do
  match type with
  | .type id => orStandIn d type "is_native" [value] (truthOf d) (isNative d id value)
  | other => truthOf d (← callMember d other "is_native" [value])

/-- Whether a type reads values from texts. -/
def canRead (type : Value) : Action Bool := do
  match type with
  | .type _ => hasCapability d type (.str "from_string")
  | other => truthOf d (← callMember d other "has_capability" [.str "from_string"])

/-- Bring a value toward the native representation of a field's type. -/
def convertValue (field : Nat) (value : Value) : Action Value := do
  if value.isNull then return .null
  match (← get).fieldType field with
  | .schema _ => return value
  | type =>
      if ← countsAsNative d type value then return value
      if ← canRead d type then readThrough d field type value else return value

/-- Bring a value toward the representation of a field, as far as the field says. -/
def convertBy (field value : Value) : Action Value :=
  match field with
  | .field id => orStandIn d field "convert_value" [value] pure (convertValue d id value)
  | other => callMember d other "convert_value" [value]

/-- The converted value of a field, `none` where the value is dropped: a single value of an array
field becomes a list of one, or is dropped when the record is sanitized. -/
def convertField (sanitizing : Bool) (field value : Value) : Action (Option Value) := do
  if !(← holdsArray d field) then return some (← convertBy d field value)
  match value.sequence? with
  | some items => return some (.fresh (← items.mapM (convertBy d field)))
  | none =>
      if sanitizing then return none else return some (.fresh [← convertBy d field value])

/-- Convert an entry of a record, and put it behind the entries that were converted before it. An
entry without a field is kept, or dropped when the record is sanitized. -/
def convertEntry (schema : Nat) (sanitizing : Bool) (converted : Entries) (entry : Value × Value) :
    Action Entries := do
  let field ← findField d schema entry.1
  let value ← if field.isNull then pure (if sanitizing then none else some entry.2)
    else convertField d sanitizing field entry.2
  return converted ++ (value.map fun v => (entry.1, v)).toList

/-- Convert the entries of a record. -/
def convertEntries (schema : Nat) (sanitizing : Bool) (entries : Entries) : Action Entries :=
  entries.foldlM (convertEntry d schema sanitizing) []

/-- Convert a record; a value that is no mapping converts to nothing. -/
def convert (schema : Nat) (record : Value) (sanitizing : Bool) : Action Value := do
  match record with
  | .dict _ entries => return .freshDict (← convertEntries d schema sanitizing entries)
  | .live part _ =>
      return .freshDict (← walkPart part (fun converted entry => do
        return (← convertEntry d schema sanitizing converted entry, true)) [])
  | _ => return .null

/-! ## Defaults -/

/-- The default that a type gives to a record, if any; of a list an empty one is made. -/
def typeRecordDefault (type : Value) : Action (Option Value) := do
  let default ← match type with
    | .schema _ => return none
    | .type id => computedMember d type "default_value" (typeDefault d id)
    | other => d.member other "default_value"
  match default with
  | .missing => return none
  | .list .. => return some (.fresh [])
  | v => return some v

/-- The default that goes into a record for a field, if any: an empty list for an array, the
declared default, or the default of the type. -/
def recordDefault (field : Value) : Action (Option Value) := do
  if ← holdsArray d field then return some (.fresh [])
  match field with
  | .field id =>
      if ← hasDefault d id then
        return some (← computedMember d field "default" (fieldDefault d id))
      typeRecordDefault d ((← get).fieldType id)
  | other =>
      if ← truthOf d (← d.member other "has_default") then
        return some (← d.member other "default")
      typeRecordDefault d (← d.member other "type")

/-- The name of a field. -/
def nameOfField (field : Value) : Action Value := do
  match field with
  | .field id => return (← get).fieldName id
  | other => d.member other "name"

/-- The record of all defaults. -/
def defaultRecord (schema : Nat) (uiOnly : Value) : Action Value := do
  let entries ← visitFields d schema [uiOnly] [] fun entries field => do
    match ← recordDefault d field with
    | some v =>
        let name ← nameOfField d field
        if !name.hashable then throw .wrongType
        return Table.insert entries name v
    | none => return entries
  return .freshDict entries

/-- The empty value converts to itself. -/
@[simp] theorem convertValue_null (field : Nat) : convertValue d field .null = pure .null := rfl

/-- A value that is no record projects to nothing. -/
theorem sanitizeWithin_of_not_record {record : Value} (h : record.isRecordLike = false)
    (uiOnly : Value) (depth schema : Nat) :
    sanitizeWithin d uiOnly (depth + 1) schema record = pure .null := by
  simp [sanitizeWithin, h]

end DataShape
