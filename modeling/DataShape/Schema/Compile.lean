import DataShape.Schema.Basic

/-! # Compiling templates

A template maps field names to field specifications. A specification is a type (by name, or a type
or schema itself), or a mapping with a `type`, an optional `label` and further attributes; a
specification alone in a list or tuple makes an array field. Names are resolved in the registry of
the schema. -/

namespace DataShape

variable (d : Dispatch)

/-- The keys of a specification that are not attributes. -/
def reservedKeys : List Value := [.str "type", .str "label"]

/-- The type that a registry has under a name, which is used for a field; an object that is used as
a registry is asked. -/
def typeRequired (registry : Value) (name field : String) : Action Value := do
  match registry with
  | .registry r => return .type (← requireType d r (.str name) (.str field))
  | other => d.call (← d.member other "require") [.str name] [("field_name", .str field)]

/-- The type that a specification refers to. -/
def resolveReference (schema : Nat) (field : String) (reference : Value) : Action Value := do
  match reference with
  | .type id => return .type id
  | .schema id => return .schema id
  | .str name => typeRequired d ((← get).schema schema).registry name field
  | other => throw (.definition (.fieldReference field (← shown d other)))

/-- What a specification says about a field. -/
structure FieldSpec where
  type : Value
  isArray : Bool
  label : Value
  attributes : Entries

/-- Read a specification that is not in a list. -/
def readPlainSpec (schema : Nat) (field : String) (isArray : Bool) (spec : Value) :
    Action FieldSpec := do
  match ← mappingOf? spec with
  | some entries =>
      match Table.get? entries (.str "type") with
      | none => throw (.definition (.fieldWithoutType field))
      | some reference =>
          let type ← resolveReference d schema field reference
          return ⟨type, isArray, (Table.get? entries (.str "label")).getD .null,
            entries.filter fun e => !e.1.isIn reservedKeys⟩
  | none => return ⟨← resolveReference d schema field spec, isArray, .null, []⟩

/-- Read a specification. -/
def readSpec (schema : Nat) (field : String) (spec : Value) : Action FieldSpec :=
  match spec.sequence? with
  | some [item] => readPlainSpec d schema field true item
  | some items => throw (.definition (.arrayArity field items.length))
  | none => readPlainSpec d schema field false spec

/-- Compile one field of a template. -/
def compileField (schema : Nat) (name spec : Value) : Action Nat := do
  match name with
  | .str s =>
      if s.isEmpty then throw (.definition (.fieldKey (← shown d name)))
      let read ← readSpec d schema s spec
      let field ← makeField d (.schema schema) name read.type (.bool read.isArray) read.label
      mergeFieldAttributes d field (.freshDict read.attributes)
      return field
  | other => throw (.definition (.fieldKey (← shown d other)))

/-- Compile the fields of a template, in order. -/
def compileFields (schema : Nat) : List (Value × Value) → Action Unit
  | [] => pure ()
  | (name, spec) :: rest => do
      placeField schema name (.field (← compileField d schema name spec))
      compileFields schema rest

/-- Record the compilation of a schema. -/
def logCompiled (schema : Nat) : Action Unit := do
  let name ← textOf d (← schemaName d schema)
  let fields ← shown d (.fresh (← allFieldNames d schema))
  let origin ← match ((← get).schema schema).parent with
    | some p => do
        let parent ← textOf d (← schemaName d p)
        pure s!" (extends {parent})"
    | none => pure ""
  writeLog .compiler .debug s!"Compiled schema {name} with fields {fields}{origin}"

/-- Compile a template into a schema. -/
def compileSchema (template collectionName parent registry : Value) : Action Nat := do
  match ← mappingOf? template with
  | some entries =>
      let schema ← makeSchema d collectionName parent registry
      compileFields d schema entries
      logCompiled d schema
      return schema
  | none => throw (.definition (.template (← shown d template)))

/-- A type in a specification stands for itself. -/
@[simp] theorem resolveReference_type (schema : Nat) (field : String) (id : Nat) :
    resolveReference d schema field (.type id) = pure (.type id) := rfl

end DataShape
