import DataShape.Member.Basic

/-! # Inspection

What can be seen of a type, a field or a schema, as a list of named values: its computed members,
the names along its chain, and how it is shown. A host is asked in its own way, so what stands in
for one of its methods is seen as well. -/

namespace DataShape

variable (d : Dispatch)

/-- Some members of a value, each under a name of its own. -/
def membersOf (v : Value) (names : List (String × String)) : Action (List (String × Value)) :=
  names.mapM fun n => do return (n.1, ← readMember d v n.2)

/-- Members under their own names. -/
def ownNames (names : List String) : List (String × String) := names.map fun n => (n, n)

/-- How a value is shown, under the name of its notation. -/
def notationOf (v : Value) : Action (String × Value) := do
  return ("repr", .str (← shown d v))

/-- The items that a method of a value gives. -/
def itemsFrom (v : Value) (method : String) : Action (List Value) := do
  iterate d (← d.call (← readMember d v method) [] [])

/-- What can be seen of a type. -/
def inspectType (id : Nat) : Action (List (String × Value)) := do
  let members ← membersOf d (.type id) <| ownNames
    ["name", "base_type", "class_name", "py_type", "enum_values", "is_enumeration", "attributes"]
  let lineage ← (← itemsFrom d (.type id) "lineage").mapM fun t => d.member t "name"
  return members ++
    [("lineage", .fresh lineage), ("capabilities", .fresh (← capabilityNamesOf d id)),
     ← notationOf d (.type id)]

/-- What can be seen of a field. -/
def inspectField (id : Nat) : Action (List (String × Value)) := do
  let members ← membersOf d (.field id) <| ownNames
    ["name", "type", "is_array", "label", "attributes", "is_schema_reference", "is_required",
     "min_val", "max_val", "ui_exclude", "has_default"]
  let schema ← d.member ((← get).field id).schema "name"
  return members ++ [("schema", schema), ← notationOf d (.field id)]

/-- What can be seen of a schema; its field list is computed and kept. -/
def inspectSchema (id : Nat) : Action (List (String × Value)) := do
  let members ← membersOf d (.schema id) <|
    ownNames ["name", "collection_name", "has_children", "is_subclass"]
      ++ [("parent", "parent_schema"), ("root", "root_schema")]
  let own ← iterate d (← readMember d (.schema id) "fields")
  let fields ← itemsFrom d (.schema id) "get_field_list"
  let walked ← iterate d (.schema id)
  return members ++
    [("own_fields", .fresh own), ("field_list", .fresh fields), ("len", .int walked.length),
     ("iter", .fresh walked), ← notationOf d (.schema id)]

/-- What can be seen of a type, a field or a schema. -/
def inspect (v : Value) : Action (List (String × Value)) :=
  match v with
  | .type id => inspectType d id
  | .field id => inspectField d id
  | .schema id => inspectSchema d id
  | _ => throw (.access .plain)

/-- Nothing can be seen of a text. -/
theorem inspect_str (s : String) : inspect d (.str s) = throw (.access .plain) := rfl

end DataShape
