import DataShape.Text.Split
import DataShape.Traversal

/-! # Dotted paths

A path names a value by keys that are followed one after the other: a mapping is searched by key,
any other object by the name of a member. A key that is not there ends the path, which then leads
to a default.

* `lookupKey` — one key; absent is `missing`.
* `resolvePath` — a dotted path, key by key. -/

namespace DataShape

variable (d : Dispatch)

/-- Look one key up. Nothing is found in an empty or missing value; a mapping is searched by key,
any other value by member name, which has to be a text. -/
def lookupKey (obj key : Value) : Action Value :=
  match obj with
  | .missing => pure .missing
  | .null => pure .missing
  | obj => do
      match ← mappingOf? obj with
      | some entries =>
          if key.hashable then return (Table.get? entries key).getD .missing else throw .wrongType
      | none => match key with
        | .str name => memberOrMissing d obj name
        | _ => throw .wrongType

/-- Follow keys one after the other; an absent key leads to the default. -/
def followKeys (fallback : Value) : Value → List Value → Action Value
  | obj, [] => pure obj
  | obj, key :: rest => do
      let value ← lookupKey d obj key
      if value.isMissing then return fallback else followKeys fallback value rest

/-- The value at a dotted path, or the default when a key on the way is absent. -/
def resolvePath (obj : Value) (path : String) (fallback : Value) : Action Value :=
  followKeys d fallback obj ((Text.splitText '.' path).map .str)

@[simp] theorem followKeys_nil (fallback obj : Value) :
    followKeys d fallback obj [] = pure obj := rfl

/-- Nothing is found in a missing value. -/
@[simp] theorem lookupKey_missing (key : Value) : lookupKey d .missing key = pure .missing := rfl

/-- A mapping is searched by key. -/
@[simp] theorem lookupKey_dict (share : Nat) (entries : Entries) (key : String) :
    lookupKey d (.dict share entries) (.str key)
      = pure ((Table.get? entries (.str key)).getD .missing) := rfl

end DataShape
