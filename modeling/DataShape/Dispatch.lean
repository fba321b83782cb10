import DataShape.World

/-! # Dispatch

Members of objects may be computed by functions of providers, and functions may in turn read
members and call the engine. Every operation that may run such a function is given a `Dispatch`,
the ways to leave the engine: to call a value, to read a member of a value, to walk the items of a
value, and to show a value.

A value that was set on a host under the name of one of its methods stands in for the method,
wherever the engine itself would use it.

* `orStandIn` — what a stand-in gives, or else what the engine does.
* `memberOrMissing` — a member of a value; absent is `missing`.
* `chainFrom` — the objects that links lead to. -/

namespace DataShape

/-- How values are used by functions that the engine does not know. -/
structure Dispatch where
  /-- Call a value with positional and named arguments. -/
  call : Value → List Value → List (String × Value) → Action Value
  /-- Read a member of a value. -/
  member : Value → String → Action Value
  /-- The items that a value yields one after the other. -/
  items : Value → Action (List Value)
  /-- The notation of a value. -/
  display : Value → Action String

variable (d : Dispatch)

/-- Read a member; a member that is not there is `missing`. -/
def memberOrMissing (obj : Value) (name : String) : Action Value :=
  orElseOn Fault.isAbsence (d.member obj name) fun _ => pure .missing

/-- Call a member of a value. -/
def callMember (obj : Value) (name : String) (arguments : List Value) : Action Value := do
  d.call (← d.member obj name) arguments []

/-- How many objects a chain of objects can have. Types and schemas are linked to older ones, and
other objects are nested in each other. -/
def World.chainBound (w : World) : Nat := w.types.size + w.schemas.size + 1000

/-- An object followed by the objects that its links lead to, one after the other, up to the empty
value. -/
def chainFrom (link : String) : Nat → Value → Action (List Value)
  | _, .null => pure []
  | 0, _ => throw .tooDeep
  | fuel + 1, node => do
      return node :: (← chainFrom link fuel (← d.member node link))

/-- The value that stands in for a method of a host. -/
def standIn? (host : Value) (name : String) : Action (Option Value) :=
  return ((← get).storedOn host).get? name

/-- Use a method of a host: a stand-in is called and its result is read, otherwise the engine's own
way is taken. -/
def orStandIn {α : Type} (host : Value) (name : String) (arguments : List Value)
    (read : Value → Action α) (own : Action α) : Action α := do
  match ← standIn? host name with
  | some f => read (← d.call f arguments [])
  | none => own

end DataShape
