import DataShape.Instance.Basic
import DataShape.Member.Method

/-! # Functions

What happens when a value is called: a native type makes an instance, a provider's function runs
its routine, a static function is called without its receiver, a bound one with it, and a method
runs on its object. A provider's function may read members, change the registry it works on, and
call other functions.

* `callValue` — call a value, given how calls inside the call are made.
* `dispatchWithin`, `engine` — calls, member reading, iteration and display tied together, down to
  a depth of nested calls; a deeper nesting is a fault. -/

namespace DataShape

open DataShape.Text

variable (d : Dispatch)

/-! ## Routines of providers -/

/-- The number of earlier calls of a function. -/
def countCall (id : Nat) : Action Value := do
  let w ← get
  let n := (w.counters.get? id).getD 0
  set { w with counters := w.counters.insert id (n + 1) }
  return .int n

/-- The texts among values; all of them must be texts. -/
def textsOf (vs : List Value) : Action (List String) :=
  vs.mapM fun v => match v with
    | .str s => pure s
    | _ => throw .wrongType

/-- The values of the options of a value. -/
def optionValues (v : Value) : Action Value := do
  let options ← iterate d (← d.member v "enum_values")
  return .fresh (← options.mapM fun o => d.member o "value")

/-- The name of a value as text, a colon, and the names of its fields. -/
def summaryOf (v : Value) : Action Value := do
  let name ← textOf d (← d.member v "name")
  let fields ← textsOf (← iterate d (← callMember d v "get_field_list" []))
  return .str (name ++ ":" ++ ",".intercalate fields)

/-- The kind of input control for a field. -/
def widgetOf (v : Value) : Action Value := do
  let enumerated ← d.member (← d.member v "type") "is_enumeration"
  return .str (if ← truthOf d enumerated then "select" else "input")

/-- A sample value of a type: its first option, or a text made from its name. -/
def mockValue (v : Value) : Action Value := do
  let options ← d.member v "enum_values"
  if ← truthOf d options then
    match ← iterate d options with
    | first :: _ => d.member first "value"
    | [] => throw (.wrongValue "")
  else
    match ← d.member v "name" with
    | .str name => return .str ("mock-" ++ lower name)
    | _ => throw (.access .plain)

/-- A sample value of a field. -/
def mockField (v : Value) : Action Value := do
  let sample ← callMember d (← d.member v "type") "get_mock_value" []
  if ← truthOf d (← d.member v "is_array") then return .fresh [sample] else return sample

/-- A sample record of a schema. -/
def mockRecord (v : Value) : Action Value := do
  let fields ← iterate d (← callMember d v "iter_fields" [])
  let entries ← fields.mapM fun f => do
    let name ← d.member f "name"
    return (name, ← callMember d f "get_mock_field" [])
  return .freshDict (Table.ofEntries entries)

/-- The argument in capitals. -/
def capitals (v : Value) : Action Value :=
  match v with
  | .str s => pure (.str (upper s))
  | v => callMember d v "upper" []

/-- What is stored under the name of a value. -/
def storeGet (v fallback : Value) : Action Value := do
  let key ← d.member v "name"
  if !key.hashable then throw .wrongType
  return (Table.get? (← get).store key).getD fallback

/-- Store a value under the name of another. -/
def storeSet (v value : Value) : Action Value := do
  let key ← d.member v "name"
  if !key.hashable then throw .wrongType
  modify fun w => { w with store := Table.insert w.store key value }
  return .null

/-- The type that a name stands for in the registry of providers, if any. -/
def homeType (name : String) : Action Value := do
  let registry ← homeRegistry d
  return objectOrNull .type ((← get).typeNamed? registry name)

/-- Whether a value derives from the boolean type and is among the types represented by booleans. -/
def booleanLike (v : Value) : Action Value := do
  let derives ← d.call (← d.member v "is_a") [← homeType d "Boolean"] []
  if !(← truthOf d derives) then return derives
  let spec := Value.ofFields [("py_type", .native .bool)]
  let types ← typesWhere d (← homeRegistry d) spec
  return .bool (v.isIn (types.map .type))

/-- Define a type with one flag as its attribute. -/
def defineMarked (name : Value) (flag : String) (base : Value) : Action Unit := do
  discard <| defineType d (← homeRegistry d)
    ⟨name, .ofFields [(flag, .bool true)], base, .null, .null⟩

/-- Define a type derived from a value, named after it. -/
def spawnCopy (v : Value) : Action Value := do
  match ← d.member v "name" with
  | .str name =>
      defineMarked d (.str (name ++ "Copy")) "spawned" v
      return .bool true
  | _ => throw .wrongType

/-- Run a routine that takes one argument. -/
def runUnary (routine : Routine) (captured : Value) (v : Value) : Action Value := do
  match routine with
  | .marshal m => m.apply d v
  | .receiverName => d.member v "name"
  | .options => optionValues d v
  | .fieldCount => return .int (← iterate d (← callMember d v "get_field_list" [])).length
  | .summary => summaryOf d v
  | .widget => widgetOf d v
  | .mockValue => mockValue d v
  | .mockField => mockField d v
  | .mockRecord => mockRecord d v
  | .upper => capitals d v
  | .brackets => return .str ("<" ++ (← textOf d v) ++ ">")
  | .storeGet => storeGet d v captured
  | .nameIs => return .bool (← areEqual (← d.member v "name") captured)
  | .lookupIs path =>
      return .bool (← areEqual (← callMember d v "lookup" [.str path]) captured)
  | .isEnumerated => d.member v "is_enumeration"
  | .booleanLike => booleanLike d v
  | .visit =>
      defineMarked d (← d.member v "name") "visited" .null
      d.member v "is_enumeration"
  | .spawn => spawnCopy d v
  | _ => throw .wrongType

/-- Call a provider's function. Routines that take a fixed number of arguments take them by
position; conversions of the catalog take theirs by name as well. -/
def callRoutine (id : Nat) (routine : Routine) (captured arguments : List Value)
    (named : List (String × Value)) : Action Value :=
  match routine, arguments, named with
  | .const, _, _ => pure (captured.headD .null)
  | .counter, _, _ => countCall id
  | .fail kind text, _, _ => throw (.raised kind text)
  | .echo, arguments, named => pure (.fresh [.fresh arguments, .ofFields named])
  | .marshal m, [], [(name, v)] => if name == m.parameter then m.apply d v else throw .wrongType
  | .storeSet, [v, value], [] => storeSet d v value
  | routine, [v], [] => runUnary d routine (captured.headD .null) v
  | _, _, _ => throw .wrongType

/-! ## Calls -/

mutual

/-- Call a value. A function that stands for another one adds nothing to the depth of calls. -/
def callValue : Value → List Value → List (String × Value) → Action Value
  | .native t, arguments, named => construct d t arguments named
  | .function id _ routine captured, arguments, named =>
      if routine = .forward then callFirst captured arguments named
      else callRoutine d id routine captured arguments named
  | .static _ _ f, arguments, named => callValue f arguments named
  | .bound f receiver, arguments, named => callValue f (receiver :: arguments) named
  | .method receiver name, arguments, named => callMethod d receiver name arguments named
  | _, _, _ => throw .wrongType
termination_by structural f => f

/-- Call the first of captured values. -/
def callFirst : List Value → List Value → List (String × Value) → Action Value
  | [], _, _ => throw .wrongType
  | f :: _, arguments, named => callValue f arguments named
termination_by structural captured => captured

end

/-- Calls, member reading, iteration and display, nested down to a depth. -/
def dispatchWithin : Nat → Dispatch
  | 0 => ⟨fun _ _ _ => throw .tooDeep, fun _ _ => throw .tooDeep, fun _ => throw .tooDeep,
      fun _ => throw .tooDeep⟩
  | depth + 1 =>
      let d := dispatchWithin depth
      ⟨callValue d, readMember d, iterate d, shown d⟩

/-- How deep calls may be nested. -/
def callDepth : Nat := 400

/-- The dispatch of the engine. -/
def engine : Dispatch := dispatchWithin callDepth

/-- A constant function gives its value for any arguments. -/
theorem callRoutine_const (id : Nat) (v : Value) (arguments : List Value)
    (named : List (String × Value)) :
    callRoutine d id .const [v] arguments named = pure v := rfl

/-- A value that is not callable cannot be called. -/
theorem callValue_of_not_callable {f : Value} (h : f.isCallable = false) (arguments : List Value)
    (named : List (String × Value)) : callValue d f arguments named = throw .wrongType := by
  cases f <;> simp_all [Value.isCallable, callValue.eq_def]

end DataShape
