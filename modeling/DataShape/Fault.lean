import DataShape.Calendar.Iso
import DataShape.Value.Basic

/-! # Faults

Why an operation gave no result. Every constructor is a cause; `Fault.message` holds the wording.
Values that a message shows are kept as the text under which they are shown.

`isAbsence` marks the faults that mean "there is no such member": a path that meets one leads
nowhere. `isCoercionFault` marks the ones that a coercion passes over. -/

namespace DataShape

/-- Why a definition of a type, a capability, a field or a schema is refused. -/
inductive DefinitionFault where
  | typeName (shown : String)
  | baseNotType (name shown : String)
  | attributesNotMapping (name shown : String)
  | marshallerNotCallable (slot name : String)
  | foreignBase (base name : String)
  | baseReference (name shown : String)
  | enumerationWithoutBase (name : String)
  | capabilityName (shown : String)
  | capabilityEmpty (name : String)
  | capabilityMixed (name : String)
  | anonymousFunction
  | entryShape (shown : String)
  | entryKeys (shown : String)
  | entryFunction (shown : String)
  | entryEmpty
  | template (shown : String)
  | fieldKey (shown : String)
  | arrayArity (field : String) (count : Nat)
  | fieldWithoutType (field : String)
  | fieldReference (field shown : String)
  | fieldName (shown : String)
  | fieldType (field shown : String)
  | parentSchema (shown : String)
  | foreignField (field : String)
deriving DecidableEq, Repr

/-- Why an option list is refused. -/
inductive EnumerationFault where
  | notText (shown : String)
  | twoSeparators (position : Nat) (option : String)
  | emptyLabel (position : Nat) (option : String)
deriving DecidableEq, Repr

/-- Why a match specification is refused. -/
inductive PredicateFault where
  | emptyPath
  | mixedOperator (operator keys : String)
  | operandNotSequence (operator shown : String)
  | unknownOperators (shown : String)
  | unsupported (shown : String)
deriving DecidableEq, Repr

/-- Why a member cannot be used on a capability or an object. -/
inductive AccessFault where
  | writeOnly (name : String)
  | readOnly (name : String)
  | notFunction (name : String)
  /-- There is no such member, or it cannot be set. -/
  | plain
deriving DecidableEq, Repr

/-- What is wrong with one setting. -/
inductive SettingFault where
  | boolParsing | boolType | stringType | extraForbidden
deriving DecidableEq, Repr, Inhabited

/-- Why an operation gave no result. -/
inductive Fault where
  | definition (cause : DefinitionFault)
  /-- No type has the name; the last texts show the name and, if given, the field. -/
  | typeNotFound (name field : Value) (suggestions : List String) (shown : String)
      (fieldShown : Option String)
  | enumeration (cause : EnumerationFault) (spec : Value)
  /-- A base that derives from the name being defined; the last text shows the name. -/
  | cycle (name : Value) (base shown : String)
  | predicate (cause : PredicateFault) (specShown : String)
  /-- No capability of the name on a host; the texts show the name and the host's name. -/
  | notImplemented (capability : Value) (capabilityShown : String) (host : Value)
      (hostShown : String)
  | access (cause : AccessFault)
  /-- A value of the wrong type. -/
  | wrongType (text : String := "")
  /-- A value of the right type that has no meaning. -/
  | wrongValue (text : String)
  /-- Bytes that spell no text. -/
  | undecodable
  /-- A number that is too large for its use. -/
  | overflow
  /-- No entry under a key. -/
  | noEntry
  /-- No item at an index. -/
  | noItem
  /-- No text encoding of a name. -/
  | noEncoding
  /-- An operation that a bare host does not provide. -/
  | notProvided
  /-- A failure raised by a provider's function. -/
  | raised (kind : FailureClass) (text : String)
  | settings (issues : List (String × SettingFault))
  /-- A mapping that grew or shrank while it was walked. -/
  | resized
  /-- Calls nested too deeply. -/
  | tooDeep

/-- The text of a refused definition. -/
def DefinitionFault.message : DefinitionFault → String
  | typeName shown => s!"Type name must be a non-empty string, got {shown}"
  | baseNotType name shown => s!"Base type of '{name}' must be a DataType, got {shown}"
  | attributesNotMapping name shown =>
      s!"Attributes for type '{name}' must be a mapping, got {shown}"
  | marshallerNotCallable slot name => s!"{slot} for type '{name}' must be callable"
  | foreignBase base name => s!"Base type '{base}' for '{name}' is not registered in this registry"
  | baseReference name shown =>
      s!"Base type for '{name}' must be a DataType or type name, got {shown}"
  | enumerationWithoutBase name => s!"Enumeration '{name}' must declare a base type"
  | capabilityName shown => s!"Capability name must be an identifier, got {shown}"
  | capabilityEmpty name => s!"Capability '{name}' has no function or accessor"
  | capabilityMixed name => s!"Capability '{name}' cannot be both a function and an accessor"
  | anonymousFunction => "Anonymous capability functions need an explicit 'name'"
  | entryShape shown => s!"Capability spec must be a mapping or function, got {shown}"
  | entryKeys shown => s!"Unknown capability spec keys: {shown}"
  | entryFunction shown => s!"Capability 'func' must be callable, got {shown}"
  | entryEmpty => "Capability spec needs at least one of 'func', 'get' or 'set'"
  | template shown => s!"Schema template must be a mapping, got {shown}"
  | fieldKey shown => s!"Field names must be non-empty strings, got {shown}"
  | arrayArity field count =>
      s!"Array field '{field}' must wrap exactly one type spec, got {count}"
  | fieldWithoutType field => s!"Field '{field}' is missing a 'type'"
  | fieldReference field shown =>
      s!"Field '{field}' type must be a type name, DataType or Schema, got {shown}"
  | fieldName shown => s!"Field name must be a non-empty string, got {shown}"
  | fieldType field shown => s!"Field '{field}' type must be a DataType or Schema, got {shown}"
  | parentSchema shown => s!"Parent schema must be a Schema, got {shown}"
  | foreignField field => s!"Field '{field}' belongs to another schema"

/-- The text of a refused option list. -/
def EnumerationFault.message : EnumerationFault → String
  | notText shown => s!"Enumeration option spec must be a non-empty string, got {shown}"
  | twoSeparators position option =>
      s!"Option {position} ('{option}') has more than one ':' separator"
  | emptyLabel position option => s!"Option {position} ('{option}') has an empty label"

/-- The text of a refused match specification. -/
def PredicateFault.message : PredicateFault → String
  | emptyPath => "Attribute path cannot be empty"
  | mixedOperator operator keys =>
      s!"Operator {operator} cannot be combined with other keys: {keys}"
  | operandNotSequence operator shown => s!"{operator} expects a list of predicates, got {shown}"
  | unknownOperators shown => s!"Unsupported predicate operator(s): {shown}"
  | unsupported shown => s!"Unsupported match spec: {shown}"

/-- The text of an access fault, empty where there is nothing to say. -/
def AccessFault.message : AccessFault → String
  | writeOnly name => s!"'{name}' is write-only"
  | readOnly name => s!"'{name}' is read-only"
  | notFunction name => s!"'{name}' is an accessor, not a function"
  | plain => ""

/-- The text of an unknown type name, with the field it was used for and the suggestions. -/
def typeNotFoundMessage (shown : String) (field : Option String) (suggestions : List String) :
    String :=
  s!"Could not locate type named '{shown}'"
    ++ (field.map fun f => s!" for field '{f}'").getD ""
    ++ (if suggestions.isEmpty then ""
        else ". Did you mean: " ++ ", ".intercalate suggestions ++ "?")

/-- The text of a base chain that would loop. -/
def cycleMessage (name base : String) : String :=
  s!"Type '{name}' cannot use '{base}' as its base type: "
    ++ s!"'{base}' already inherits from '{name}'"

/-- The text of a missing capability. -/
def notImplementedMessage (capability host : String) : String :=
  s!"'{capability}' has not been implemented for type '{host}'"

/-- The text of a fault. -/
def Fault.message : Fault → String
  | definition cause => cause.message
  | typeNotFound _ _ suggestions shown field => typeNotFoundMessage shown field suggestions
  | enumeration cause _ => cause.message
  | cycle _ base shown => cycleMessage shown base
  | predicate cause _ => cause.message
  | notImplemented _ capability _ host => notImplementedMessage capability host
  | access cause => cause.message
  | wrongType text => text
  | wrongValue text => text
  | raised _ text => text
  | _ => ""

/-- Faults that mean "there is no such member". -/
def Fault.isAbsence : Fault → Bool
  | notImplemented .. => true
  | access _ => true
  | raised .attribute _ => true
  | _ => false

/-- Faults that a coercion passes over: values of a wrong type, and values without meaning, to
which refused match specifications and settings count. -/
def Fault.isCoercionFault : Fault → Bool
  | wrongType _ => true
  | wrongValue _ => true
  | undecodable => true
  | predicate .. => true
  | settings _ => true
  | raised .value _ => true
  | raised .type _ => true
  | _ => false

/-- No fault is both an absence and passed over by a coercion. -/
theorem Fault.not_isCoercionFault_of_isAbsence {f : Fault} (h : f.isAbsence = true) :
    f.isCoercionFault = false := by
  cases f with
  | raised kind _ => cases kind <;> simp_all [isAbsence, isCoercionFault]
  | _ => simp_all [isAbsence, isCoercionFault]

end DataShape
