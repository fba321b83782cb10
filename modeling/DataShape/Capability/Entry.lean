import DataShape.Capability.Basic
import DataShape.Value.Live
import DataShape.Value.Order

/-! # Entries of a provider

A provider installs capabilities by entries. An entry is a named function, or a mapping with an
optional `matches` (which types it applies to), an optional `name`, and any of `func`, `get` and
`set`. Without an explicit name each capability takes the name of its own function.

* `readEntry` — the match specification (`missing` when there is none) and the capabilities in
  the order in which they are installed.
* `entryList` — one entry or several. -/

namespace DataShape

variable (d : Dispatch)

/-- The own name of what takes part in a capability, as its member `__name__`; without one it is
empty. -/
def ownName (v : Value) : Action Value :=
  match v.functionName? with
  | some name => pure (.str name)
  | none => orElseOn Fault.isAbsence (d.member v "__name__") fun _ => pure (.str "")

/-- The name under which a part is installed: the explicit one if it counts as true, otherwise
the part's own. -/
def capabilityName (part explicit : Value) : Action Value := do
  if ← truthOf d explicit then return explicit
  let name ← ownName d part.unwrapped
  if !(← truthOf d name) || name.text? == some "<lambda>" then
    throw (.definition .anonymousFunction)
  return name

/-- What an entry asks for. -/
structure EntryReading where
  /-- Which types the capabilities are for; `missing` when the entry does not say. -/
  matchSpec : Value
  capabilities : List Capability
deriving Inhabited

/-- The keys an entry may have. -/
def entryKeys : List String := ["matches", "name", "func", "get", "set"]

/-- The accessors of an entry: one for both parts when their names agree, else one for each. -/
def entryAccessors (explicit getter setter : Value) : Action (List Capability) := do
  let getName ← if getter.isNull then pure none else some <$> capabilityName d getter explicit
  let setName ← if setter.isNull then pure none else some <$> capabilityName d setter explicit
  match getName, setName with
  | some g, some s =>
      if ← areEqual g s then return [← makeCapability d g .null getter setter]
      else
        let first ← makeCapability d g .null getter .null
        let second ← makeCapability d s .null .null setter
        return [first, second]
  | some g, none => return [← makeCapability d g .null getter .null]
  | none, some s => return [← makeCapability d s .null .null setter]
  | none, none => return []

/-- The function capability of an entry, if it has one. -/
def entryFunction (explicit function : Value) : Action (List Capability) := do
  if function.isNull then return []
  if !function.isCallable then throw (.definition (.entryFunction (← shown d function)))
  return [← makeCapability d (← capabilityName d function explicit) function .null .null]

/-- Read an entry that is a mapping. -/
def readMapping (entries : Entries) : Action EntryReading := do
  let unknown := (Table.keys entries).filter fun k => !k.isIn (entryKeys.map .str)
  if !unknown.isEmpty then
    match sorted? unknown with
    | none => throw .wrongType
    | some keys => throw (.definition (.entryKeys (← shown d (.fresh keys))))
  let part (name : String) : Value := (Table.get? entries (.str name)).getD .null
  let accessors ← entryAccessors d (part "name") (part "get") (part "set")
  let functions ← entryFunction d (part "name") (part "func")
  if accessors.isEmpty && functions.isEmpty then throw (.definition .entryEmpty)
  return ⟨(Table.get? entries (.str "matches")).getD .missing, accessors ++ functions⟩

/-- Read an entry. -/
def readEntry (entry : Value) : Action EntryReading := do
  match ← mappingOf? entry with
  | some entries => readMapping d entries
  | none =>
      if entry.isCallable then
        let name ← capabilityName d entry .null
        return ⟨.missing, [← makeCapability d name entry .null .null]⟩
      else throw (.definition (.entryShape (← shown d entry)))

/-- The entries of a list or tuple; any other value is a single entry. -/
def entryList (entries : Value) : List Value := entries.sequence?.getD [entries]

@[simp] theorem entryList_fresh (items : List Value) : entryList (.fresh items) = items := rfl

end DataShape
