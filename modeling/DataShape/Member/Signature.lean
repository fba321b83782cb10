import DataShape.Table
import DataShape.Value.Callable

/-! # Signatures of methods

Every kind of object has methods, each with its parameters. Arguments are given by position or by
name; they are put into the order of the parameters before a method runs, and where they do not fit
the method does not run.

* `bindArguments?` — arguments in the order of parameters.
* `methodSignatures`, `signatureOf?` — the methods of a value with their parameters. -/

namespace DataShape

/-- The parameters of a method; one with a default may be left out. -/
abbrev Parameters := List (String × Option Value)

/-- Arguments in the order of the parameters, none when they do not fit. -/
def bindArguments? : Parameters → List Value → List (String × Value) → Option (List Value)
  | [], [], [] => some []
  | [], _, _ => none
  | (name, _) :: parameters, a :: rest, named =>
      if named.any (·.1 == name) then none
      else (bindArguments? parameters rest named).map (a :: ·)
  | (name, fallback) :: parameters, [], named =>
      match named.find? (·.1 == name) with
      | some e => (bindArguments? parameters [] (named.filter (·.1 != name))).map (e.2 :: ·)
      | none => fallback.bind fun v => (bindArguments? parameters [] named).map (v :: ·)

/-- A parameter that must be given. -/
def needed (name : String) : String × Option Value := (name, none)

/-- A parameter that may be left out. -/
def optional (name : String) (fallback : Value) : String × Option Value := (name, some fallback)

/-- Parameters that are empty when they are left out. -/
def leftEmpty (names : List String) : Parameters := names.map fun n => optional n .null

/-- The methods of a kind with their parameters. -/
abbrev Signatures := Table String Parameters

/-- The methods that types, fields and schemas share. A capability is invoked with any arguments
behind its name. -/
def hostSignatures : Signatures :=
  [("get_capability", [needed "name"]), ("has_capability", [needed "name"]),
   ("invoke", [needed "name"]), ("lookup", [needed "path", optional "default" .missing]),
   ("to_dict", []), ("_find_member", [needed "name"]), ("_dispatch_name", []),
   ("__getattr__", [needed "name"]), ("__setattr__", [needed "name", needed "value"]),
   ("__repr__", []), ("__str__", [])]

/-- The methods of containers that can be asked for their length and for what they hold. -/
def containerSignatures : Signatures :=
  [("__len__", []), ("__contains__", [needed "name"])]

/-- The methods of types. -/
def typeSignatures : Signatures :=
  [("lineage", []), ("is_a", [needed "other"]), ("merge_attributes", [needed "attributes"]),
   ("install", [needed "capability"]), ("is_native", [needed "value"]),
   ("_inherited_attribute", [needed "name"])]

/-- The methods of fields. -/
def fieldSignatures : Signatures :=
  [("merge_attributes", [needed "attributes"]), ("convert_value", [needed "value"])]

/-- The parameters that choose a field list. -/
def projectionParameters : Parameters :=
  [optional "ui_only" (.bool false), optional "exclude_inherited" (.bool false)]

/-- The methods of schemas. -/
def schemaSignatures : Signatures :=
  [("compile", needed "template" :: leftEmpty ["collection_name", "parent_schema", "registry"]),
   ("get_field", [needed "name"]), ("get_field_list", projectionParameters),
   ("iter_fields", projectionParameters),
   ("for_each_field", needed "callback" :: projectionParameters),
   ("sanitize", [needed "record", optional "ui_only" (.bool false)]),
   ("convert", [needed "record", optional "sanitize" (.bool false)]),
   ("get_default_record", [optional "ui_only" (.bool false)]), ("_add_field", [needed "field"]),
   ("__getitem__", [needed "name"])]

/-- The parameters of definitions that take attributes and conversions. -/
def derivedParameters : Parameters :=
  needed "name" :: leftEmpty ["attributes", "to_string", "from_string"]

/-- The methods of registries. -/
def registrySignatures : Signatures :=
  [("define_type", needed "name" :: leftEmpty ["attributes", "base_type", "to_string",
      "from_string"]),
   ("define_native_type", needed "name" :: needed "py_type" :: leftEmpty ["attributes", "to_string",
      "from_string"]),
   ("define_string_type", derivedParameters), ("define_numeric_type", derivedParameters),
   ("define_boolean_type", derivedParameters),
   ("define_object_type", needed "name" :: needed "py_class" :: leftEmpty ["attributes", "base_type",
      "to_string", "from_string"]),
   ("define_enumeration_type", needed "name" :: needed "option_spec" :: leftEmpty ["attributes",
      "base_type"]),
   ("get", [needed "name"]), ("require", needed "name" :: leftEmpty ["field_name"]), ("names", []),
   ("find", leftEmpty ["spec"]), ("install_capability", [needed "target", needed "specs"]),
   ("mixin", leftEmpty ["on_schema", "on_field", "on_type"]), ("to_dict", []),
   ("to_json", [optional "indent" (.int 2)]),
   ("_resolve_base", [needed "name", needed "base_type"]),
   ("_install_on_types", [needed "match_spec", needed "capabilities"])]

/-- The methods of capability tables. -/
def tableSignatures : Signatures :=
  [("install", [needed "capability"]), ("get", [needed "name"]), ("names", [])]

/-- The methods of capabilities. -/
def capabilitySignatures : Signatures :=
  [("bind", [needed "receiver"]), ("read", [needed "receiver"]),
   ("write", [needed "receiver", needed "value"])]

/-- The methods of mappings, whose parameters have no names. -/
def mappingSignatures : Signatures := [("get", [needed "", optional "" .null])]

/-- The methods of a value with their parameters. -/
def methodSignatures : Value → Signatures
  | .type _ => typeSignatures ++ hostSignatures
  | .field _ => fieldSignatures ++ hostSignatures
  | .schema _ => schemaSignatures ++ containerSignatures ++ hostSignatures
  | .registry _ => registrySignatures ++ containerSignatures
  | .table _ => tableSignatures ++ containerSignatures
  | .capability .. => capabilitySignatures
  | .option _ => [("to_dict", [])]
  | .predicate _ => [("evaluate", [needed "descriptor"])]
  | .dict .. => mappingSignatures
  | .live .. => mappingSignatures
  | _ => []

/-- The parameters of a method of a value. -/
def signatureOf? (receiver : Value) (name : String) : Option Parameters :=
  (methodSignatures receiver).get? name

/-- Bound arguments are as many as the parameters. -/
theorem length_of_bindArguments? {parameters : Parameters} {arguments bound : List Value}
    {named : List (String × Value)} (h : bindArguments? parameters arguments named = some bound) :
    bound.length = parameters.length := by
  fun_induction bindArguments? parameters arguments named generalizing bound with
  | case1 => simp_all
  | case2 => simp_all
  | case3 => simp_all
  | case4 name fallback parameters a rest named _ ih =>
    obtain ⟨others, ho, rfl⟩ := Option.map_eq_some_iff.1 h
    simp [ih ho]
  | case5 name fallback parameters named e _ ih =>
    obtain ⟨others, ho, rfl⟩ := Option.map_eq_some_iff.1 h
    simp [ih ho]
  | case6 name fallback parameters named _ ih =>
    obtain ⟨v, _, hv⟩ := Option.bind_eq_some_iff.1 h
    obtain ⟨others, ho, rfl⟩ := Option.map_eq_some_iff.1 hv
    simp [ih ho]

end DataShape
