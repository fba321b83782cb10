import DataShape.Registry.Basic
import DataShape.Value.Json

/-! # Registries as JSON text

The JSON text of a registry's description, with sorted keys. The indentation is given by a number
of blanks or by its text; without one the text is a single line. -/

namespace DataShape

/-- An indentation of this many blanks or more cannot be written. -/
def indentBound : Int := Int.pow 2 24

/-- Negative numbers down to this one ask for lines without indentation. -/
def leastIndent : Int := -Int.pow 2 63

/-- The layout that an indentation asks for. -/
def layoutOf (indent : Value) : Action JsonLayout :=
  match indent with
  | .null => pure .oneLine
  | .str unit => pure (.indented unit)
  | .int n =>
      if leastIndent ≤ n ∧ n < indentBound then
        pure (.indented (String.ofList (List.replicate n.toNat ' ')))
      else throw .overflow
  | .bool b => pure (.indented (if b then " " else ""))
  | _ => throw .wrongType

/-- The indentation that is used when none is asked for. -/
def defaultIndent : Value := .int 2

/-- The JSON text of a registry. -/
def registryText (d : Dispatch) (registry : Nat) (indent : Value) : Action String := do
  let description ← describeRegistry d registry
  let layout ← layoutOf indent
  ofExcept (Json.text layout ((← get).settled false description))

end DataShape
