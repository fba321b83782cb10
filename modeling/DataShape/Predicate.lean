import DataShape.Path
import DataShape.Value.Display
import DataShape.Value.Live
import DataShape.Value.Order

/-! # Match predicates

A match specification says which objects a capability is meant for:

* nothing — the object has a native representation;
* a text — the dotted path leads to a defined value;
* a list or tuple — all parts match; `$and` with a sequence says the same;
* `$or` with a sequence — some part matches; `$not` with one specification — it does not match;
* any other mapping — every entry is found on the object with an equal value, mappings inside it
  being matched the same way;
* a function — its result counts as true;
* a compiled predicate — itself.

`compilePredicate` turns a specification into a `Predicate` or says what is wrong with it;
`Predicate.holds` evaluates a predicate, left to right, no further than the result needs. -/

namespace DataShape

variable (d : Dispatch)

/-- The operators of match specifications. -/
def predicateOperators : List String := ["$or", "$and", "$not"]

/-- Whether a key is an operator. -/
def isOperatorKey (key : Value) : Bool := key.isIn (predicateOperators.map .str)

/-- The first operator among keys. -/
def firstOperator (keys : List Value) : String :=
  ((keys.find? isOperatorKey).bind Value.text?).getD ""

/-- Keys that look like operators. -/
def operatorLike (keys : List Value) : List Value :=
  keys.filter fun k => k.text?.any fun s => s.toList.head? == some '$'

/-- A refused specification; the fault shows it as a whole. -/
def refusePredicate {α : Type} (cause : PredicateFault) (spec : Value) : Action α := do
  throw (.predicate cause (← shown d spec))

/-- An operator beside other keys. -/
def refuseMixed {α : Type} (keys : List Value) (spec : Value) : Action α := do
  match sorted? keys with
  | none => throw .wrongType
  | some sorted =>
      refusePredicate d (.mixedOperator (firstOperator keys) (← shown d (.fresh sorted))) spec

/-- Compile a mapping without operators, which is matched entry by entry. -/
def compileEntries (spec : Value) (entries : Entries) : Action Predicate := do
  let unknown := operatorLike (Table.keys entries)
  if unknown.isEmpty then return .structural (← newIdentity) entries
  else refusePredicate d (.unknownOperators (← shown d (.fresh unknown))) spec

/-- Compile a function, which is asked itself; other values are no specification. -/
def compileTest (spec : Value) : Action Predicate := do
  if spec.isCallable then return .test spec
  else refusePredicate d (.unsupported (← shown d spec)) spec

section Compile

/-! ## Compilation

Live parts of objects are mappings that are looked up first; what they compile to is given. -/

variable (compileLive : Part → Bool → Action Predicate)

mutual

/-- Compile a match specification, given how live parts of objects are compiled. -/
def compileSpec : Value → Action Predicate
  | .predicate p => pure p
  | .null => pure (.present "py_type")
  | .missing => pure (.present "py_type")
  | .str path =>
      if path.isEmpty then refusePredicate d .emptyPath (.str path) else pure (.present path)
  | .list _ items => .all <$> compileParts items
  | .tuple items => .all <$> compileParts items
  | .dict share entries => compileMapping (.dict share entries) entries
  | .live part readOnly => compileLive part readOnly
  | spec => compileTest d spec
termination_by structural spec => spec

/-- Compile specifications in order. -/
def compileParts : List Value → Action (List Predicate)
  | [] => pure []
  | spec :: rest => do
      let first ← compileSpec spec
      let others ← compileParts rest
      return first :: others
termination_by structural specs => specs

/-- Compile a mapping by its entries. -/
def compileMapping (spec : Value) : List (Value × Value) → Action Predicate
  | [] => compileEntries d spec []
  | entry :: rest =>
      if (Table.keys (entry :: rest)).any isOperatorKey then
        if rest.isEmpty then compileEntry spec entry
        else refuseMixed d (Table.keys (entry :: rest)) spec
      else compileEntries d spec (entry :: rest)
termination_by structural entries => entries

/-- Compile an operator with its operand. -/
def compileEntry (spec : Value) : Value × Value → Action Predicate
  | (key, operand) =>
      if key == .str "$not" then .negation <$> compileSpec operand
      else do
        match ← compileOperand operand with
        | some parts => return if key == .str "$or" then .any parts else .all parts
        | none =>
            refusePredicate d (.operandNotSequence (firstOperator [key]) (← shown d operand)) spec
termination_by structural entry => entry

/-- Compile the parts of a sequence; other operands have no parts. -/
def compileOperand : Value → Action (Option (List Predicate))
  | .list _ items => some <$> compileParts items
  | .tuple items => some <$> compileParts items
  | _ => pure none
termination_by structural operand => operand

end

end Compile

/-- Compile the mapping that a live part is at present, down to a depth of parts inside parts. -/
def compilePart : Nat → Part → Bool → Action Predicate
  | 0, _, _ => throw .tooDeep
  | depth + 1, part, readOnly => do
      compileMapping d (compilePart depth) (.live part readOnly) ((← get).partEntries part)

/-- Compile a match specification. -/
def compilePredicate (spec : Value) : Action Predicate :=
  compileSpec d (fun part readOnly => do compilePart d ((← get).partDepth + 1) part readOnly) spec

/-! ## Evaluation -/

section Match

variable (matchesLive : Part → Value → Action Bool)

mutual

/-- Every expected entry is found on an object with a matching value, given how the live parts among
the expected values are matched. -/
def matchesEntries : List (Value × Value) → Value → Action Bool
  | [], _ => pure true
  | entry :: rest, obj => do
      if ← matchesEntry entry obj then matchesEntries rest obj else return false
termination_by structural entries => entries

/-- One expected entry is found on an object with a matching value. -/
def matchesEntry : Value × Value → Value → Action Bool
  | (key, want), obj => do
      let have' ← lookupKey d obj key
      if have'.isMissing then return false else matchesValue want have'
termination_by structural entry => entry

/-- A found value matches an expected one: a mapping entry by entry, any other value by
equality. -/
def matchesValue : Value → Value → Action Bool
  | .dict _ expected, have' =>
      if have'.isNull then pure false else matchesEntries expected have'
  | .live part _, have' => if have'.isNull then pure false else matchesLive part have'
  | want, have' => areEqual have' want
termination_by structural want => want

end

end Match

/-- An object matches a live part entry by entry, down to a depth of parts inside parts. -/
def matchesPart : Nat → Part → Value → Action Bool
  | 0, _, _ => throw .tooDeep
  | depth + 1, part, obj =>
      walkPart part (fun _ entry => do
        let found ← matchesEntry d (matchesPart depth) entry obj
        return (found, found)) true

/-- How deep live parts can lead from one into the next while an object is matched with them. -/
def matchDepth : Nat := 1000

mutual

/-- Whether a predicate holds of an object. -/
def Predicate.holds : Predicate → Value → Action Bool
  | .present path, obj => do return (← resolvePath d obj path .missing).isPresent
  | .all parts, obj => allHold parts obj
  | .any parts, obj => anyHolds parts obj
  | .negation part, obj => do return !(← Predicate.holds part obj)
  | .structural _ expected, obj => matchesEntries d (matchesPart d matchDepth) expected obj
  | .test function, obj => do truthOf d (← d.call function [obj] [])
termination_by structural p => p

/-- All parts hold; parts after the first that does not are not evaluated. -/
def allHold : List Predicate → Value → Action Bool
  | [], _ => pure true
  | part :: rest, obj => do
      if ← Predicate.holds part obj then allHold rest obj else return false
termination_by structural parts => parts

/-- Some part holds; parts after the first that does are not evaluated. -/
def anyHolds : List Predicate → Value → Action Bool
  | [], _ => pure false
  | part :: rest, obj => do
      if ← Predicate.holds part obj then return true else anyHolds rest obj
termination_by structural parts => parts

end

/-- Whether an object satisfies a match specification. -/
def satisfies (obj spec : Value) : Action Bool := do
  let p ← compilePredicate d spec
  p.holds d obj

/-- A compiled predicate compiles to itself. -/
@[simp] theorem compilePredicate_predicate (p : Predicate) :
    compilePredicate d (.predicate p) = pure p := by
  rw [compilePredicate, compileSpec]

/-- An empty list matches everything. -/
theorem holds_all_nil (obj : Value) : (Predicate.all []).holds d obj = pure true := by
  rw [Predicate.holds, allHold]

end DataShape
