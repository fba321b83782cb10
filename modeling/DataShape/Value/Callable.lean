import DataShape.Value.Basic

/-! # Callable values

Functions of providers, native types and methods can be called. Each has a name, which may be
missing, and a qualified name, which for a method starts with the kind of object that provides it.

* `Value.functionName?`, `Value.qualifiedName?` — the two names.
* `Value.callableName` — the word that describes a callable; one without a name is described by its
  kind. -/

namespace DataShape

/-- Whether a value can be called. -/
def Value.isCallable : Value → Bool
  | .native _ => true
  | .function .. => true
  | .static .. => true
  | .bound .. => true
  | .method .. => true
  | _ => false

/-- The name of a conversion. -/
def Marshaller.name : Marshaller → String
  | .identity => "_identity"
  | .numberToText => "number_to_string"
  | .numberFromText => "number_from_string"
  | .booleanToText => "boolean_to_string"
  | .booleanFromText => "boolean_from_string"
  | .isoToText => "_iso_to_string"
  | .dateTimeFromText => "from_string"
  | .dateFromText => "from_string"
  | .timeFromText => "from_string"

/-- Whether a conversion reads dates or times. -/
def Marshaller.readsMoments : Marshaller → Bool
  | .dateTimeFromText => true
  | .dateFromText => true
  | .timeFromText => true
  | _ => false

/-- The qualified name of a conversion; the readers of dates and times are made by one maker. -/
def Marshaller.qualifiedName (m : Marshaller) : String :=
  if m.readsMoments then "_iso_parser.<locals>." ++ m.name else m.name

/-- A conversion as a function value. -/
def Marshaller.toValue (m : Marshaller) : Value := .function 0 (some m.name) (.marshal m) []

/-- The kind of a predicate. -/
def Predicate.kindName : Predicate → String
  | .present _ => "Exists"
  | .all _ => "AllOf"
  | .any _ => "AnyOf"
  | .negation _ => "Not"
  | .structural .. => "StructuralMatch"
  | .test _ => "Predicate"

/-- The operations that every host of capabilities has. -/
def hostOperations : List String := ["get_capability", "has_capability", "invoke", "lookup"]

/-- The operations and descriptions that belong to every object, whatever its kind. -/
def universalNames : List String :=
  ["__class__", "__delattr__", "__dir__", "__doc__", "__eq__", "__format__", "__ge__",
   "__getattribute__", "__getstate__", "__gt__", "__hash__", "__init__", "__init_subclass__",
   "__le__", "__lt__", "__module__", "__ne__", "__new__", "__reduce__", "__reduce_ex__",
   "__repr__", "__setattr__", "__sizeof__", "__str__", "__subclasshook__"]

/-- Whether a value is a host of capabilities: a type, a field or a schema. -/
def Value.isHost : Value → Bool
  | .type _ => true
  | .field _ => true
  | .schema _ => true
  | _ => false

/-- The kind of object that provides a method of a value. -/
def Value.methodKind (receiver : Value) (name : String) : String :=
  if receiver.isHost && hostOperations.contains name then "CapabilityHost"
  else match receiver with
    | .type _ => "DataType"
    | .field _ => "Field"
    | .schema _ => "Schema"
    | .registry _ => "TypeRegistry"
    | .table _ => "CapabilityTable"
    | .capability .. => "Capability"
    | .option _ => "EnumValue"
    | .predicate p => p.kindName
    | .live _ true => "mappingproxy"
    | .live _ false => "dict"
    | .dict .. => "dict"
    | _ => "CapabilityHost"

/-- The name of a callable; natives are named like their type, and the class of an object like its
kind. -/
def Value.functionName? : Value → Option String
  | .method receiver "__class__" => some (receiver.methodKind "")
  | .native t => some t.name
  | .function _ name _ _ => name
  | .static _ name f => name <|> f.functionName?
  | .bound f _ => f.functionName?
  | .method _ name => some name
  | _ => none

/-- The qualified name of a callable. -/
def Value.qualifiedName? : Value → Option String
  | .native t => some t.name
  | .function 0 _ (.marshal m) _ => some m.qualifiedName
  | .function _ name _ _ => name
  | .static _ name f => name <|> f.qualifiedName?
  | .bound f _ => f.qualifiedName?
  | .method receiver name => some (receiver.methodKind name ++ "." ++ name)
  | _ => none

/-- The word that describes a callable. -/
def Value.callableName (v : Value) : String :=
  v.qualifiedName?.getD <| match v with
    | .function .. => "NoName"
    | .static .. => "staticmethod"
    | .bound .. => "method"
    | _ => ""

/-- The function that a static function stands for. -/
def Value.unwrapped : Value → Value
  | .static _ _ f => f
  | f => f

/-- A conversion is named as a function by its own name. -/
@[simp] theorem Marshaller.functionName?_toValue (m : Marshaller) :
    m.toValue.functionName? = some m.name := rfl

end DataShape
