import DataShape.Enumeration
import DataShape.Registry.Basic
import DataShape.Value.Entries

/-! # Defining types

Defining a name that is not registered creates a type; defining a registered name adds attributes
to its type, whose base stays as it is. The base of a new type is a registered type, given by name
or as the type itself, that does not derive from the name being defined, so base chains never loop.
Conversions are installed as static capabilities `to_string` and `from_string`.

* `defineType` — the general operation.
* `defineNative`, `defineObject`, `defineEnumeration`, `defineDerived` — the same with the
  attributes or the base that the kind of type implies. -/

namespace DataShape

variable (d : Dispatch)

/-- The arguments of a definition; what is not given is `null`. -/
structure TypeDefinition where
  name : Value
  attributes : Value
  base : Value
  toText : Value
  fromText : Value
deriving Inhabited

/-- A conversion is given by something that can be called. -/
def checkMarshaller (slot : String) (name function : Value) : Action Unit := do
  if !function.isNull && !function.isCallable then
    throw (.definition (.marshallerNotCallable slot (← textOf d name)))

/-! ## Bases -/

/-- The type that a definition names as its base. -/
def baseNamed (registry : Nat) (name base : Value) : Action Nat := do
  match base with
  | .str _ => requireType d registry base .null
  | .type id =>
      let baseName := (← get).typeName id
      if (← findType? registry baseName) == some id then return id
      else throw (.definition (.foreignBase (← textOf d baseName) (← textOf d name)))
  | other =>
      let nameText ← textOf d name
      throw (.definition (.baseReference nameText (← shown d other)))

/-- Whether a type derives from a name, as far as the type itself says. -/
def derivesFrom (id : Nat) (name : Value) : Action Bool :=
  orStandIn d (.type id) "is_a" [name] (truthOf d) (isA d id name)

/-- The base of a definition, which must not derive from the name being defined. -/
def resolveBase (registry : Nat) (name base : Value) : Action Nat := do
  let id ← baseNamed d registry name base
  if ← derivesFrom d id name then
    throw (.cycle name (← textOf d ((← get).typeName id)) (← textOf d name))
  return id

/-! ## Definitions -/

/-- Add attributes to a registered type, in the way of the type. -/
def extendAttributes (id : Nat) (attributes : Value) : Action Unit :=
  orStandIn d (.type id) "merge_attributes" [attributes] (fun _ => pure ())
    (mergeTypeAttributes d id attributes)

/-- Install a capability on a type, in the way of the type. -/
def giveCapability (id : Nat) (c : Capability) : Action Unit :=
  orStandIn d (.type id) "install" [c.toValue] (fun _ => pure ())
    (installOnType d id c.toValue)

/-- Add the attributes of a definition to a registered type. -/
def extendType (id : Nat) (base : Option Nat) (definition : TypeDefinition) : Action Unit := do
  let name ← textOf d definition.name
  match base with
  | some b =>
      if !(Value.type b).identical ((← get).baseOf id) then
        let baseName ← textOf d ((← get).typeName b)
        writeLog .registry .warning s!"Ignoring base type '{baseName}' for existing type '{name}'"
  | none => pure ()
  if ← truthOf d definition.attributes then extendAttributes d id definition.attributes
  writeLog .registry .debug s!"Merged attributes into type: {name}"

/-- Create the type of a definition and register it. -/
def createType (registry : Nat) (base : Option Nat) (definition : TypeDefinition) :
    Action Nat := do
  let id ← makeType d definition.name definition.attributes (base.elim .null .type)
  let name := ((← get).type id).name
  modify fun w => w.modifyRegistry registry fun r => { r with types := r.types.insert name id }
  let origin ← match base with
    | some b => do
        let baseName ← textOf d ((← get).typeName b)
        pure s!" (base_type={baseName})"
    | none => pure ""
  writeLog .registry .debug s!"Defined type: {name}{origin}"
  return id

/-- Install a conversion, if one is given. -/
def installMarshaller (id : Nat) (slot : String) (function : Value) : Action Unit := do
  if function.isNull then return
  giveCapability d id ⟨.str slot, .static (← newIdentity) none function, .null, .null⟩

/-- Define a type or extend the registered type of the name. -/
def defineType (registry : Nat) (definition : TypeDefinition) : Action Nat := do
  checkMarshaller d "to_string" definition.name definition.toText
  checkMarshaller d "from_string" definition.name definition.fromText
  let base ← if definition.base.isNull then pure none
    else some <$> resolveBase d registry definition.name definition.base
  let id ← match ← findType? registry definition.name with
    | some id => do extendType d id base definition; pure id
    | none => createType d registry base definition
  installMarshaller d id "to_string" definition.toText
  installMarshaller d id "from_string" definition.fromText
  return id

/-- Further attributes behind the ones that a kind of type implies, unless they count as nothing. -/
def addAttributes (implied : Entries) (attributes : Value) : Action Value := do
  if ← truthOf d attributes then return .freshDict (← spreadEntries d implied attributes)
  else return .freshDict implied

/-- Define a type by its native representation. -/
def defineNative (registry : Nat) (representation : Value) (definition : TypeDefinition) :
    Action Nat := do
  let attributes ← addAttributes d [(.str "py_type", representation)] definition.attributes
  defineType d registry { definition with attributes := attributes, base := .null }

/-- The name of a class. -/
def nameOfClass (c : Value) : Action Value :=
  match c.functionName? with
  | some name => pure (.str name)
  | none => d.member c "__name__"

/-- Define a type whose values are the instances of a class. -/
def defineObject (registry : Nat) (class' : Value) (definition : TypeDefinition) :
    Action Nat := do
  let name ← nameOfClass d class'
  let attributes ← addAttributes d [(.str "py_type", class'), (.str "py_class_name", name)]
    definition.attributes
  defineType d registry { definition with attributes := attributes }

/-- Read the option list of an enumerated type. -/
def readOptions (spec : Value) : Action (List EnumOption) := do
  match spec with
  | .str s =>
      match Enumeration.parse (Text.quoted s) s with
      | .ok options => return options
      | .error cause => throw (.enumeration cause spec)
  | other => throw (.enumeration (.notText (← shown d other)) other)

/-- Define an enumerated type by its option list; it must have a base. -/
def defineEnumeration (registry : Nat) (spec : Value) (definition : TypeDefinition) :
    Action Nat := do
  if definition.base.isNull then
    throw (.definition (.enumerationWithoutBase (← textOf d definition.name)))
  let options ← readOptions d spec
  let attributes ← addAttributes d [(.str "enum_values", .tuple (options.map .option))]
    definition.attributes
  defineType d registry { definition with attributes := attributes }

/-- Define a type that derives from a primitive type. -/
def defineDerived (registry : Nat) (primitive : String) (definition : TypeDefinition) :
    Action Nat :=
  defineType d registry { definition with base := .str primitive }

/-- A missing conversion is not installed. -/
@[simp] theorem installMarshaller_null (id : Nat) (slot : String) :
    installMarshaller d id slot .null = pure () := rfl

end DataShape
