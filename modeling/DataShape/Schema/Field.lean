import DataShape.Registry.Basic
import DataShape.Text.Label
import DataShape.Value.Entries

/-! # Fields

A field belongs to a schema and has a name, a type (a data type, or a schema for a nested record),
a flag for arrays, a label and further attributes. Some attributes have a meaning: `required`,
`validation.required`, `validation.min`, `validation.max`, `ui.exclude` and `default`.

* `makeField` — create a field of a schema; it is not yet among the schema's fields.
* `fieldLabel` — the given label, or one made from the name.
* `fieldDefault` — the declared default: what a producer gives, or a copy of a plain value.
* `mergeFieldAttributes` — add the attributes that a value describes.
* `plainData` — a value as data that has a JSON text. -/

namespace DataShape

variable (d : Dispatch)

/-- Create a field. -/
def makeField (schema name type isArray label : Value) : Action Nat := do
  match name with
  | .str s =>
      if s.isEmpty then throw (.definition (.fieldName (← shown d name)))
      let held ← match type with
        | .type id => pure (FieldType.type id)
        | .schema id => pure (FieldType.schema id)
        | other => throw (.definition (.fieldType s (← shown d other)))
      newField ⟨schema, s, held, ← truthOf d isArray, label, [], []⟩
  | other => throw (.definition (.fieldName (← shown d other)))

namespace World

/-- The name of a field. -/
def fieldName (w : World) (id : Nat) : Value :=
  ((w.field id).stored.get? "_name").getD (.str (w.field id).name)

/-- The declared default of a field, `missing` when there is none. -/
def declaredDefault (w : World) (id : Nat) : Value :=
  (Table.get? (w.field id).attributes (.str "default")).getD .missing

/-- The attributes of a field as a mapping of their own. -/
def fieldAttributes (w : World) (id : Nat) : Value :=
  w.setOr (.field id) "_attributes" (.freshDict (w.field id).attributes)

end World

/-- What a field gives as its declared default; attributes of another kind that were set on the
field are asked. -/
def givenDefault (id : Nat) : Action Value := do
  match (← get).storedOn (.field id) |>.get? "_attributes" with
  | some attributes => callMember d attributes "get" [.str "default", .missing]
  | none => return (← get).declaredDefault id

/-- Whether a field declares a default. -/
def hasDefault (id : Nat) : Action Bool := do return !(← givenDefault d id).isMissing

/-- The label that is made from a name. -/
def labelFrom (name : Value) : Action Value :=
  match name with
  | .str s => pure (.str (Text.labelOf s))
  | _ => throw .wrongType

/-- The label of a field. -/
def fieldLabel (id : Nat) : Action Value := do
  let given := ((← get).field id).label
  if ← truthOf d given then return given else labelFrom ((← get).fieldName id)

/-- The value at a dotted path among the attributes of a field. -/
def fieldAttribute (id : Nat) (path : String) (fallback : Value) : Action Value := do
  resolvePath d ((← get).fieldAttributes id) path fallback

/-- Whether a value is required, by either of two attributes. -/
def isRequired (id : Nat) : Action Bool := do
  if ← truthOf d (← fieldAttribute d id "required" (.bool false)) then return true
  truthOf d (← fieldAttribute d id "validation.required" (.bool false))

/-- Whether the field is left out of user interfaces. -/
def uiExclude (id : Nat) : Action Bool := do
  truthOf d (← fieldAttribute d id "ui.exclude" (.bool false))

/-- The default that a field declares. -/
def fieldDefault (id : Nat) : Action Value := do
  produceDefault d (← givenDefault d id)

/-! ## Adding attributes -/

/-- Set one attribute of a field. -/
def setFieldAttribute (id : Nat) (key value : Value) : Action Unit := do
  if !key.hashable then throw .wrongType
  modify fun w => w.changePart (.fieldAttributes id) fun own => Table.insert own key value

/-- Add attributes to a field: the entries that a value describes, in order; a faulty one ends the
run. -/
def addFieldAttributes (id : Nat) (attributes : Value) : Action Unit := do
  match ← mappingOf? attributes with
  | some entries =>
      modify fun w => w.changePart (.fieldAttributes id) fun own => Table.update own entries
  | none => writeEntries d (fun _ => setFieldAttribute id) attributes ()

/-- Add attributes to a field; attributes of another kind that were set on the field are asked to
take them. -/
def mergeFieldAttributes (id : Nat) (attributes : Value) : Action Unit := do
  match ← standIn? (.field id) "_attributes" with
  | some held => discard (callMember d held "update" [attributes])
  | none => addFieldAttributes d id attributes

/-! ## Description -/

/-- A single value as data: types and schemas by name, plain scalars as they are, functions by the
word that describes them and all other objects as texts. -/
def plainScalar (v : Value) : Action Value :=
  match v with
  | .type id => return (← get).typeName id
  | .schema id => schemaName d id
  | .null => pure .null
  | .bool b => pure (.bool b)
  | .int n => pure (.int n)
  | .float x => pure (.float x)
  | .str s => pure (.str s)
  | v => do
      if v.isCallable then return .str ("<callable " ++ v.callableName ++ ">")
      else return .str (← textOf d v)

mutual

/-- A value as data, mappings and sequences entry by entry; keys become texts. -/
def plainTree : Value → Action Value
  | .dict _ entries => do return .freshDict (Table.ofEntries (← plainEntries entries))
  | .list _ items => do return .fresh (← plainItems items)
  | .tuple items => do return .fresh (← plainItems items)
  | v => plainScalar d v
termination_by structural v => v

/-- Items as data. -/
def plainItems : List Value → Action (List Value)
  | [] => pure []
  | v :: vs => do return (← plainTree v) :: (← plainItems vs)
termination_by structural vs => vs

/-- Entries as data. -/
def plainEntries : List (Value × Value) → Action (List (Value × Value))
  | [] => pure []
  | e :: es => do return (← plainEntry e) :: (← plainEntries es)
termination_by structural es => es

/-- An entry as data, its key as text. -/
def plainEntry : Value × Value → Action (Value × Value)
  | (k, v) => do return (.str (← textOf d k), ← plainTree v)
termination_by structural e => e

end

/-- A value as data that has a JSON text; live parts are mappings like any other. -/
def plainData (v : Value) : Action Value := do plainTree d ((← get).settled true v)

/-- The description of a field; flags that are not set and attributes that are not there are left
out. -/
def describeField (id : Nat) : Action Value := do
  let w ← get
  let held ← heldName d id
  let label ← fieldLabel d id
  let array := if ← fieldIsArray d id then [("is_array", Value.bool true)] else []
  let nested := match w.fieldType id with
    | .schema _ => [("is_schema_reference", Value.bool true)]
    | _ => []
  let attributes ← if ← truthOf d (w.fieldAttributes id) then
      do pure [("attributes", ← plainData d (w.fieldAttributes id))]
    else pure []
  return .ofFields ([("name", (← get).fieldName id), ("type", held), ("label", label)] ++ array
    ++ nested ++ attributes)

/-- A mapping never fails to be added. -/
theorem addFieldAttributes_dict (id share : Nat) (entries : Entries) :
    addFieldAttributes d id (.dict share entries)
      = modify fun w =>
          w.changePart (.fieldAttributes id) fun own => Table.update own entries := rfl

/-- A text is its own data. -/
theorem plainData_str (s : String) : plainData d (.str s) = pure (.str s) := by
  funext w
  simp [plainData]
  rfl

end DataShape
