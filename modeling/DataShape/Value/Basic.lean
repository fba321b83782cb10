import DataShape.Calendar.Basic
import DataShape.Number.Binary64

/-! # Values

Schemas, types and capabilities are described by, and work on, values of one universe: plain data
(numbers, texts, dates, lists, mappings), the parts of the engine itself (types, schemas, fields,
registries, capabilities, predicates), and functions that providers supply.

Lists and mappings carry a *share*: zero for a container that nothing else refers to, and otherwise
a number common to all occurrences of one container, so that a change to a shared container is seen
wherever it occurs. Shares are invisible to equality.

Functions, plain records and structural predicates have an identity and are equal only to
themselves.

The parts of an engine object that are mappings themselves, such as the attributes of a type, can
be handed out alive: what such a value holds is looked up whenever it is used. -/

namespace DataShape

/-- The native representations that a data type can name. -/
inductive NativeType where
  | str | int | float | bool | object | list | dict | tuple | date | datetime | time
deriving DecidableEq, Repr, Inhabited

/-- Where capabilities are installed. -/
inductive Target where
  | schema | field | type
deriving DecidableEq, Repr, Inhabited

/-- One option of an enumerated type. -/
structure EnumOption where
  label : String
  value : String
deriving DecidableEq, Repr, Inhabited

/-- The conversions between values and texts that come with the built-in catalog. -/
inductive Marshaller where
  | identity
  | numberToText | numberFromText
  | booleanToText | booleanFromText
  | isoToText | dateTimeFromText | dateFromText | timeFromText
deriving DecidableEq, Repr, Inhabited

/-- The kinds of failure that a provider's function can raise. -/
inductive FailureClass where
  | value | type | key | attribute | notImplemented | runtime
deriving DecidableEq, Repr, Inhabited

/-- What a provider's function does. The values that a routine refers to are captured beside it. -/
inductive Routine where
  /-- A conversion of the catalog. -/
  | marshal (m : Marshaller)
  /-- The captured value, for any arguments. -/
  | const
  /-- Zero at the first call, then one more at each call. -/
  | counter
  /-- Always fails. -/
  | fail (kind : FailureClass) (text : String)
  /-- The arguments it was given. -/
  | echo
  /-- The name of its argument. -/
  | receiverName
  /-- The values of the options of its argument. -/
  | options
  /-- The number of fields of its argument. -/
  | fieldCount
  /-- The name of its argument and the names of its fields. -/
  | summary
  /-- The input control that fits a field. -/
  | widget
  /-- A sample value of a type. -/
  | mockValue
  /-- A sample value of a field. -/
  | mockField
  /-- A sample record of a schema. -/
  | mockRecord
  /-- The argument in capitals. -/
  | upper
  /-- The argument in angle brackets. -/
  | brackets
  /-- Read the store under the name of the argument; the captured value stands in. -/
  | storeGet
  /-- Write the store under the name of the argument. -/
  | storeSet
  /-- Whether the argument has the captured name. -/
  | nameIs
  /-- Whether the argument has the captured value at a dotted path. -/
  | lookupIs (path : String)
  /-- Whether the argument is enumerated. -/
  | isEnumerated
  /-- Whether the argument derives from the boolean type and has its representation. -/
  | booleanLike
  /-- Mark the type of the argument's name as visited, then tell whether it is enumerated. -/
  | visit
  /-- Define a copy of the argument as a type derived from it. -/
  | spawn
  /-- Call the captured function. -/
  | forward
deriving DecidableEq, Repr, Inhabited

/-- Whose capability table a value stands for. -/
inductive TableOwner where
  | type (id : Nat)
  | registrySchemas (id : Nat)
  | registryFields (id : Nat)
deriving DecidableEq, Repr, Inhabited

/-- A part of an engine object that is a mapping. -/
inductive Part where
  | typeAttributes (id : Nat)
  | fieldAttributes (id : Nat)
  /-- The own fields of a schema by name. -/
  | schemaFields (id : Nat)
  /-- The field lists that a schema has kept. -/
  | fieldLists (id : Nat)
  /-- The types of a registry by name. -/
  | registryTypes (id : Nat)
  | tableEntries (owner : TableOwner)
deriving DecidableEq, Repr, Inhabited

mutual

/-- A value. -/
inductive Value where
  /-- The empty value. -/
  | null
  /-- The mark for "not present", distinct from the empty value. -/
  | missing
  | bool (b : Bool)
  | int (n : Int)
  | float (x : Binary64)
  | str (s : String)
  | bytes (bs : List UInt8)
  | date (d : Date)
  | datetime (d : DateTime)
  | time (t : Time)
  | list (share : Nat) (items : List Value)
  | tuple (items : List Value)
  | dict (share : Nat) (entries : List (Value × Value))
  /-- A part of an engine object with the entries that it has at any time. One that is only to be
  read is no mapping of the native kind. -/
  | live (part : Part) (readOnly : Bool)
  | option (o : EnumOption)
  /-- A plain object; the keys of its attributes are texts. -/
  | record (id : Nat) (attributes : List (Value × Value))
  | native (t : NativeType)
  | target (t : Target)
  | type (id : Nat)
  | schema (id : Nat)
  | field (id : Nat)
  | registry (id : Nat)
  | table (owner : TableOwner)
  /-- A provider's function with its name, if it has one, and the values it captured. -/
  | function (id : Nat) (name : Option String) (routine : Routine) (captured : List Value)
  /-- A function that is never given its receiver; it may have a name of its own. -/
  | static (id : Nat) (name : Option String) (function : Value)
  /-- A function together with its first argument. -/
  | bound (function receiver : Value)
  /-- A method of the engine on one of its own objects. -/
  | method (receiver : Value) (name : String)
  /-- A capability: a name with a function, or with a getter, a setter or both; absent parts are
  `null`. -/
  | capability (name function getter setter : Value)
  | predicate (p : Predicate)

/-- A compiled match predicate. -/
inductive Predicate where
  /-- The dotted path leads to a defined value. -/
  | present (path : String)
  /-- All parts hold. -/
  | all (parts : List Predicate)
  /-- Some part holds. -/
  | any (parts : List Predicate)
  /-- The part does not hold. -/
  | negation (part : Predicate)
  /-- Every expected entry is found with an equal value. -/
  | structural (id : Nat) (expected : List (Value × Value))
  /-- A function decides. -/
  | test (function : Value)

end

instance : Inhabited Value := ⟨.null⟩

instance : Inhabited Predicate := ⟨.all []⟩

/-- The entries of a mapping, oldest first. -/
abbrev Entries := List (Value × Value)

namespace Value

/-- A list that nothing else refers to. -/
def fresh (items : List Value) : Value := .list 0 items

/-- A mapping that nothing else refers to. -/
def freshDict (entries : Entries) : Value := .dict 0 entries

/-- A mapping with text keys. -/
def ofFields (fields : List (String × Value)) : Value :=
  .dict 0 (fields.map fun f => (.str f.1, f.2))

/-- A list of texts. -/
def ofTexts (ss : List String) : Value := .list 0 (ss.map .str)

/-- The items of a list or tuple. -/
def sequence? : Value → Option (List Value)
  | .list _ items => some items
  | .tuple items => some items
  | _ => none

/-- The text of a text value. -/
def text? : Value → Option String
  | .str s => some s
  | _ => none

/-- Whether a value is the mark for "not present". -/
def isMissing : Value → Bool
  | .missing => true
  | _ => false

/-- Whether a value is the empty value. -/
def isNull : Value → Bool
  | .null => true
  | _ => false

/-- A value counts as present unless it is empty or missing. -/
def isPresent : Value → Bool
  | .missing => false
  | .null => false
  | _ => true

@[simp] theorem sequence?_fresh (items : List Value) : (fresh items).sequence? = some items := rfl

end Value

/-- The name under which a native type is written. -/
def NativeType.name : NativeType → String
  | .str => "str"
  | .int => "int"
  | .float => "float"
  | .bool => "bool"
  | .object => "object"
  | .list => "list"
  | .dict => "dict"
  | .tuple => "tuple"
  | .date => "date"
  | .datetime => "datetime"
  | .time => "time"

/-- All native types. -/
def NativeType.all : List NativeType :=
  [.str, .int, .float, .bool, .object, .list, .dict, .tuple, .date, .datetime, .time]

/-- The native type of a name. -/
def NativeType.ofName? (name : String) : Option NativeType :=
  NativeType.all.find? (·.name == name)

/-- The name of a target. -/
def Target.name : Target → String
  | .schema => "schema"
  | .field => "field"
  | .type => "type"

/-- Every native type is found under its name. -/
theorem NativeType.ofName?_name (t : NativeType) : NativeType.ofName? t.name = some t := by
  cases t <;> decide

end DataShape
