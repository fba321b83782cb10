import DataShape.Marshal
import DataShape.Registry.Define
import DataShape.Settings

/-! # The catalog of built-in types

The primitive types `String`, `Number`, `Boolean` and `Object`, and the business types derived from
them: dates and times, kinds of text, kinds of number, and enumerated types.

* `seedCatalog` — define the catalog, or only the primitive types, in a registry.
* `sharedRegistry` — the registry that is used where none is given; it is made and seeded, as the
  settings say, on first use. -/

namespace DataShape

/-- A definition with a name, attributes, a base and conversions. -/
def catalogEntry (name : String) (attributes : List (String × Value)) (base : Option String)
    (conversions : Option (Marshaller × Marshaller)) : TypeDefinition where
  name := .str name
  attributes := .ofFields attributes
  base := base.elim .null .str
  toText := conversions.elim .null fun c => c.1.toValue
  fromText := conversions.elim .null fun c => c.2.toValue

/-- The primitive types. -/
def seedPrimitives (d : Dispatch) (registry : Nat) : Action Unit := do
  discard <| defineNative d registry (.native .str)
    (catalogEntry "String" [("default_value", .str "")] none (some (.identity, .identity)))
  discard <| defineNative d registry (.tuple [.native .int, .native .float])
    (catalogEntry "Number" [("default_value", .int 0)] none
      (some (.numberToText, .numberFromText)))
  discard <| defineNative d registry (.native .bool)
    (catalogEntry "Boolean" [("default_value", .bool false)] none
      (some (.booleanToText, .booleanFromText)))
  discard <| defineNative d registry (.native .object)
    (catalogEntry "Object" [("py_class_name", .str "object"), ("default_value", .null)] none none)

/-- The types of dates and times. -/
def seedMoments (d : Dispatch) (registry : Nat) : Action Unit := do
  discard <| defineObject d registry (.native .datetime)
    (catalogEntry "DateTime" [("default_value", .missing)] (some "Object")
      (some (.isoToText, .dateTimeFromText)))
  discard <| defineObject d registry (.native .date)
    (catalogEntry "Date" [] (some "DateTime") (some (.isoToText, .dateFromText)))
  discard <| defineObject d registry (.native .time)
    (catalogEntry "Time" [] (some "DateTime") (some (.isoToText, .timeFromText)))

/-- The names of the kinds of text. -/
def textTypeNames : List String :=
  ["Text", "FullName", "FirstName", "LastName", "Password", "Phone", "Email", "Url",
   "StreetAddress", "City", "State", "PostalCode", "CreditCardNumber"]

/-- The names of the kinds of number, with their precision. -/
def numberTypes : List (String × Int) := [("Integer", 0), ("Decimal", 9), ("Currency", 2)]

/-- The names of the enumerated types, with their options and bases. -/
def enumeratedTypes : List (String × String × String) :=
  [("YesNo", "No:false|Yes:true", "Boolean"), ("Sex", "Female:F|Male:M", "String"),
   ("OnOff", "Off:false|On:true", "Boolean")]

/-- Define the catalog in a registry; primitive types come first. -/
def seedCatalog (d : Dispatch) (registry : Nat) (includeDerived : Bool) : Action Unit := do
  seedPrimitives d registry
  if includeDerived then
    seedMoments d registry
    textTypeNames.forM fun name => do
      discard <| defineDerived d registry "String" (catalogEntry name [] none none)
    numberTypes.forM fun (name, precision) => do
      discard <| defineDerived d registry "Number"
        (catalogEntry name [("precision", .int precision)] none none)
    enumeratedTypes.forM fun (name, options, base) => do
      discard <| defineEnumeration d registry (.str options) (catalogEntry name [] (some base) none)

/-- The registry that is used where none is given. -/
def sharedRegistry (d : Dispatch) : Action Nat := do
  match (← get).sharedRegistry with
  | some registry => return registry
  | none =>
      let settings ← readSettings []
      let registry ← newRegistry
      seedCatalog d registry settings.seedDerivedTypes
      modify fun w => { w with sharedRegistry := some registry }
      return registry

/-- The registry that functions of providers work on. -/
def homeRegistry (d : Dispatch) : Action Nat := do
  match (← get).homeRegistry with
  | some registry => return registry
  | none => sharedRegistry d

/-- Forget the shared registry; the next use makes a new one. -/
def resetSharedRegistry : Action Unit := modify fun w => { w with sharedRegistry := none }

end DataShape
