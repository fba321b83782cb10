import DataShape.DataType
import DataShape.Predicate
import DataShape.Text.CloseMatch

/-! # Registries

A registry keeps data types by name, in the order of their definition, and the capabilities that
all schemas and fields made with it share.

* `findType?`, `requireType` — the type of a name; a name that is not registered is answered with
  the registered names that are close to it.
* `typesWhere` — the types that satisfy a match specification. -/

namespace DataShape

variable (d : Dispatch)

/-- The number of suggestions for a name that is not registered. -/
def suggestionLimit : Nat := 3

namespace World

/-- The types of a registry, oldest first. -/
def typesOf (w : World) (registry : Nat) : List Nat := (w.registry registry).types.values

/-- The names of a registry, oldest first. -/
def typeNames (w : World) (registry : Nat) : List String := (w.registry registry).types.keys

/-- The type registered under a name. -/
def typeNamed? (w : World) (registry : Nat) (name : String) : Option Nat :=
  (w.registry registry).types.get? name

end World

/-- The type registered under a name; names that are no texts are never registered, and names that
cannot be keys are of the wrong type. -/
def findType? (registry : Nat) (name : Value) : Action (Option Nat) := do
  if !name.hashable then throw .wrongType
  return name.text?.bind ((← get).typeNamed? registry)

/-- The characters of a text as values. -/
def characters (s : String) : List Value := s.toList.map fun c => .str (String.singleton c)

/-- Registered names close to a name that is not registered. The items of a schema can only be
walked; to ask for one by its place is to ask for a field of that name. -/
def suggestions (registry : Nat) (name : Value) : Action (List String) := do
  let names := (← get).typeNames registry
  let candidates := names.map fun n => (n, characters n)
  match name with
  | .str s =>
      return Text.closeMatches suggestionLimit s.toList (names.map fun n => (n, n.toList))
  | .schema _ =>
      let items ← iterate d name
      if !items.all Value.hashable then throw .wrongType
      match Text.closeToWalk? suggestionLimit items candidates with
      | some close => return close
      | none => throw .noEntry
  | other => return Text.closeMatches suggestionLimit (← iterate d other) candidates

/-- The text of an optional value, none where it counts as nothing. -/
def textIfTrue (v : Value) : Action (Option String) := do
  if ← truthOf d v then return some (← textOf d v) else return none

/-- The fault of a name that is not registered. -/
def typeNotFound {α : Type} (registry : Nat) (name field : Value) : Action α := do
  let close ← suggestions d registry name
  let nameText ← textOf d name
  throw (.typeNotFound name field close nameText (← textIfTrue d field))

/-- The type registered under a name, which is used for a field if one is given. -/
def requireType (registry : Nat) (name field : Value) : Action Nat := do
  match ← findType? registry name with
  | some id => return id
  | none => typeNotFound d registry name field

/-- The types of a registry that satisfy a match specification, oldest first. -/
def typesWhere (registry : Nat) (spec : Value) : Action (List Nat) := do
  let p ← compilePredicate d spec
  let w ← get
  (w.typesOf registry).filterM fun id => p.holds d (.type id)

/-- The description of a registered type, as far as the type says. -/
def describeRegistered (v : Value) : Action Value := do
  match v with
  | .type id => orStandIn d v "to_dict" [] pure (describeType d id)
  | other => callMember d other "to_dict" []

/-- The description of a registry. -/
def describeRegistry (registry : Nat) : Action Value := do
  let types ← walkPart (.registryTypes registry) (fun types entry => do
    return (types ++ [← describeRegistered d entry.2], true)) []
  let r := (← get).registry registry
  return .ofFields
    [("types", .fresh types),
     ("schema_capabilities", .fresh (← sortValues r.schemaCapabilities.keys)),
     ("field_capabilities", .fresh (← sortValues r.fieldCapabilities.keys))]

end DataShape
