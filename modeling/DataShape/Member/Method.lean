import DataShape.Member.Basic
import DataShape.Registry.Install
import DataShape.Registry.Text
import DataShape.Schema.Compile

/-! # Methods

The methods of types, fields, schemas, registries, capability tables, capabilities, options,
predicates and mappings. Arguments are put into the order of the method's parameters before it
runs; arguments that do not fit its parameters are of the wrong type.

* `callMethod` — call a method of a value by name. -/

namespace DataShape

variable (d : Dispatch)

/-- Run an operation for its effect. -/
def giveNull (operation : Action Unit) : Action Value := do
  operation
  return .null

/-! ## Hosts -/

/-- The value at a dotted path of a host. A path that is no text is asked for its parts. -/
def lookupOn (host path fallback : Value) : Action Value := do
  match path with
  | .str s => resolvePath d host s fallback
  | .bytes _ => throw .wrongType
  | other => followKeys d fallback host (← d.items (← callMember d other "split" [.str "."]))

/-- The description of a host. -/
def describeHost (host : Value) : Action Value :=
  match host with
  | .type id => describeType d id
  | .field id => describeField d id
  | .schema id => describeSchema d id
  | _ => throw (.access .plain)

/-- A name of a member as a text; what is no text does not begin like a private name. -/
def memberName (name : Value) : Action String :=
  match name with
  | .str s => pure s
  | .bytes _ => throw .wrongType
  | _ => throw (.access .plain)

/-- The methods of every host. -/
def hostMethod (host : Value) (name : String) (arguments : List Value) : Action Value := do
  match name, arguments with
  | "get_capability", [name] => ownCapability d host name
  | "has_capability", [name] => return .bool (← hasOwnCapability d host name)
  | "lookup", [path, fallback] => lookupOn d host path fallback
  | "to_dict", [] => describeHost d host
  | "_find_member", [name] => ownSearch d host name
  | "_dispatch_name", [] => ownHostName d host
  | "__getattr__", [name] => dynamicMember d host (← memberName name)
  | "__setattr__", [name, value] => giveNull (setMember d host (← memberName name) value)
  | "__repr__", [] => return .str (← shown d host)
  | "__str__", [] => return .str (← textOf d host)
  | _, _ => throw .wrongType

/-- Call a function capability with the arguments behind its name, which is the first argument
unless it is given by name. -/
def invokeMethod (host : Value) (arguments : List Value) (named : List (String × Value)) :
    Action Value :=
  if named.any (·.1 == "self") then throw .wrongType
  else match arguments, named.find? (·.1 == "name") with
    | name :: rest, none => invokeOwn d host name rest named
    | [], some e => invokeOwn d host e.2 [] (named.filter (·.1 != "name"))
    | _, _ => throw .wrongType

/-! ## Types, fields and schemas -/

/-- The methods of a type. -/
def typeMethod (id : Nat) (name : String) (arguments : List Value) : Action Value := do
  match name, arguments with
  | "lineage", [] => return .fresh (← lineageOf d id)
  | "is_a", [other] => return .bool (← isA d id other)
  | "merge_attributes", [attributes] => giveNull (mergeTypeAttributes d id attributes)
  | "install", [capability] => giveNull (installOnType d id capability)
  | "is_native", [value] => return .bool (← isNative d id value)
  | "_inherited_attribute", [name] => inheritedAttribute d id name
  | _, _ => hostMethod d (.type id) name arguments

/-- The methods of a field. -/
def fieldMethod (id : Nat) (name : String) (arguments : List Value) : Action Value :=
  match name, arguments with
  | "merge_attributes", [attributes] => giveNull (mergeFieldAttributes d id attributes)
  | "convert_value", [value] => convertValue d id value
  | _, _ => hostMethod d (.field id) name arguments

/-- Call a function for every field of a schema, in order. -/
def forEachField (schema : Nat) (callback : Value) (flags : List Value) : Action Unit :=
  visitFields d schema flags () fun _ field => discard (d.call callback [field] [])

/-- The methods of a schema. -/
def schemaMethod (id : Nat) (name : String) (arguments : List Value) : Action Value := do
  match name, arguments with
  | "compile", [template, collectionName, parent, registry] =>
      return .schema (← compileSchema d template collectionName parent registry)
  | "get_field", [name] => declaredField d id name
  | "get_field_list", flags => return .tuple (← fieldList d id (← Projection.ofFlags d flags))
  | "iter_fields", flags => return .fresh (← fieldsOf d id flags)
  | "for_each_field", callback :: flags => giveNull (forEachField d id callback flags)
  | "sanitize", [record, uiOnly] => sanitize d id record uiOnly
  | "convert", [record, sanitizing] => convert d id record (← truthOf d sanitizing)
  | "get_default_record", [uiOnly] => defaultRecord d id uiOnly
  | "_add_field", [field] => giveNull (addField d id field)
  | "__len__", [] => return .int (← fieldNames d id []).length
  | "__contains__", [name] => return .bool (← hasField d id name)
  | "__getitem__", [name] => fieldNamed d id name
  | _, _ => hostMethod d (.schema id) name arguments

/-! ## Registries -/

/-- The methods of a registry that define types. -/
def defineMethod (id : Nat) (name : String) (arguments : List Value) : Action Value := do
  match name, arguments with
  | "define_type", [name, attributes, base, toText, fromText] =>
      return .type (← defineType d id ⟨name, attributes, base, toText, fromText⟩)
  | "define_native_type", [name, representation, attributes, toText, fromText] =>
      return .type (← defineNative d id representation ⟨name, attributes, .null, toText, fromText⟩)
  | "define_string_type", [name, attributes, toText, fromText] =>
      return .type (← defineDerived d id "String" ⟨name, attributes, .null, toText, fromText⟩)
  | "define_numeric_type", [name, attributes, toText, fromText] =>
      return .type (← defineDerived d id "Number" ⟨name, attributes, .null, toText, fromText⟩)
  | "define_boolean_type", [name, attributes, toText, fromText] =>
      return .type (← defineDerived d id "Boolean" ⟨name, attributes, .null, toText, fromText⟩)
  | "define_object_type", [name, representation, attributes, base, toText, fromText] =>
      return .type (← defineObject d id representation ⟨name, attributes, base, toText, fromText⟩)
  | "define_enumeration_type", [name, options, attributes, base] =>
      return .type (← defineEnumeration d id options ⟨name, attributes, base, .null, .null⟩)
  | "_resolve_base", [name, base] => return .type (← resolveBase d id name base)
  | _, _ => throw .wrongType

/-- The capabilities among the items of a value. -/
def capabilitiesAmong (v : Value) : Action (List Capability) := do
  (← d.items v).mapM fun item => match item.capability? with
    | some c => pure c
    | none => throw (.access .plain)

/-- The methods of a registry. -/
def registryMethod (id : Nat) (name : String) (arguments : List Value) : Action Value := do
  match name, arguments with
  | "get", [name] => return objectOrNull .type (← findType? id name)
  | "require", [name, field] => return .type (← requireType d id name field)
  | "names", [] => return .ofTexts ((← get).typeNames id)
  | "__len__", [] => return .int ((← get).typeNames id).length
  | "__contains__", [name] => return .bool (← findType? id name).isSome
  | "find", [spec] => return .fresh ((← typesWhere d id spec).map .type)
  | "install_capability", [target, entries] => giveNull (installCapabilities d id target entries)
  | "mixin", [onSchema, onField, onType] => giveNull (mixin d id onSchema onField onType)
  | "to_dict", [] => describeRegistry d id
  | "to_json", [indent] => return .str (← registryText d id indent)
  | "_install_on_types", [spec, capabilities] =>
      giveNull do installOnTypes d id ⟨spec, ← capabilitiesAmong d capabilities⟩
  | _, _ => defineMethod d id name arguments

/-! ## Other objects -/

/-- The methods of a capability table. -/
def tableMethod (owner : TableOwner) (name : String) (arguments : List Value) : Action Value := do
  match name, arguments with
  | "get", [name] =>
      if !name.hashable then throw .wrongType
      return (((← get).capabilityTable owner).get? name).getD .null
  | "names", [] => return .fresh ((← get).capabilityTable owner).keys
  | "__len__", [] => return .int ((← get).capabilityTable owner).length
  | "__contains__", [name] =>
      if !name.hashable then throw .wrongType
      return .bool (((← get).capabilityTable owner).get? name).isSome
  | "install", [capability] => giveNull (installNamed d owner capability)
  | _, _ => throw .wrongType

/-- The methods of a capability. -/
def capabilityMethod (c : Capability) (name : String) (arguments : List Value) :
    Action Value :=
  match name, arguments with
  | "bind", [receiver] => c.bind d receiver
  | "read", [receiver] => c.read d receiver
  | "write", [receiver, value] => giveNull (c.write d receiver value)
  | _, _ => throw .wrongType

/-- The methods of a mapping. -/
def mappingMethod (entries : Entries) (arguments : List Value) : Action Value :=
  match arguments with
  | [key, fallback] =>
      if key.hashable then pure ((Table.get? entries key).getD fallback) else throw .wrongType
  | _ => throw .wrongType

/-- An option as a mapping. -/
def EnumOption.toMapping (o : EnumOption) : Value :=
  .ofFields [("label", .str o.label), ("value", .str o.value)]

/-- Run a method on arguments in the order of its parameters. -/
def runMethod (receiver : Value) (name : String) (arguments : List Value) : Action Value := do
  match receiver with
  | .type id => typeMethod d id name arguments
  | .field id => fieldMethod d id name arguments
  | .schema id => schemaMethod d id name arguments
  | .registry id => registryMethod d id name arguments
  | .table owner => tableMethod d owner name arguments
  | .capability n f g s => capabilityMethod d ⟨n, f, g, s⟩ name arguments
  | .option o => return o.toMapping
  | .predicate p => return .bool (← p.holds d (arguments.headD .null))
  | other => match ← mappingOf? other with
    | some entries => mappingMethod entries arguments
    | none => throw .wrongType

/-- Call a method of a value. -/
def callMethod (receiver : Value) (name : String) (arguments : List Value)
    (named : List (String × Value)) : Action Value :=
  if receiver.isHost && name == "invoke" then invokeMethod d receiver arguments named
  else match (signatureOf? receiver name).bind fun p => bindArguments? p arguments named with
    | some bound => runMethod d receiver name bound
    | none => throw .wrongType

/-- Naming the receiver again does not fit the call of a capability. -/
theorem invokeMethod_self (host v : Value) (arguments : List Value) :
    invokeMethod d host arguments [("self", v)] = throw .wrongType := by
  simp [invokeMethod]

end DataShape
