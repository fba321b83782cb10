import DataShape.Calendar.Iso
import DataShape.Number.Reader
import DataShape.Number.Shortest
import DataShape.Text.Quoted
import DataShape.Traversal
import DataShape.Value.Callable

/-! # How values are shown

Messages show values in a fixed notation: texts quoted, lists in brackets, tuples in parentheses
(with a comma after a single item), mappings in braces, engine objects by what identifies them. A
value *as text* differs only for texts, which stand for themselves, for dates, times and targets,
which have a plain form, and for read-only views, which are shown like the mapping they view.

To show a schema is to compute and keep its field list, so showing is an action.

* `shown` — the notation.
* `textOf` — the value as text. -/

namespace DataShape

variable (d : Dispatch)

namespace Calendar

/-- The offset of a time as a zone. -/
def zoneText (offset : Int) : String :=
  if offset = 0 then "datetime.timezone.utc"
  else "datetime.timezone(" ++ durationText offset ++ ")"

/-- The fields of a time that are shown: hour and minute, the seconds if they or the microseconds
are not zero, the microseconds if not zero. -/
def clockParts (t : Time) : List String :=
  [toString t.hour, toString t.minute]
    ++ (if t.second = 0 ∧ t.microsecond = 0 then [] else [toString t.second])
    ++ (if t.microsecond = 0 then [] else [toString t.microsecond])

/-- The zone of a time and the mark of a repeated reading among its shown fields. -/
def zoneParts (t : Time) : List String :=
  (t.offset.map fun o => ["tzinfo=" ++ zoneText o]).getD []
    ++ (if t.repeated then ["fold=1"] else [])

/-- The fields of a date. -/
def dateParts (d : Date) : List String := [toString d.year, toString d.month, toString d.day]

/-- How a date is shown. -/
def displayDate (d : Date) : String := "datetime.date(" ++ ", ".intercalate (dateParts d) ++ ")"

/-- How a time is shown. -/
def displayTime (t : Time) : String :=
  "datetime.time(" ++ ", ".intercalate (clockParts t ++ zoneParts t) ++ ")"

/-- How a moment is shown. -/
def displayDateTime (d : DateTime) : String :=
  "datetime.datetime("
    ++ ", ".intercalate (dateParts d.date ++ clockParts d.time ++ zoneParts d.time) ++ ")"

end Calendar

/-- How a native type is shown; those of the calendar have a qualified name. -/
def NativeType.display : NativeType → String
  | .date => "<class 'datetime.date'>"
  | .datetime => "<class 'datetime.datetime'>"
  | .time => "<class 'datetime.time'>"
  | t => "<class '" ++ t.name ++ "'>"

/-- The capitalized name of a target. -/
def Target.label : Target → String
  | .schema => "SCHEMA"
  | .field => "FIELD"
  | .type => "TYPE"

/-- How an option is shown. -/
def EnumOption.display (o : EnumOption) : String :=
  "EnumValue(label=" ++ Text.quoted o.label ++ ", value=" ++ Text.quoted o.value ++ ")"

/-- A tuple of shown items. -/
def displayTuple : List String → String
  | [item] => "(" ++ item ++ ",)"
  | items => "(" ++ ", ".intercalate items ++ ")"

/-- An integer with more digits than this bound has no text. -/
def integerBound : Nat := Nat.pow 10 Number.maxIntegerDigits

/-- The fault of an integer that is too long to be written. -/
def integerTooLong : Fault :=
  .wrongValue (s!"Exceeds the limit ({Number.maxIntegerDigits} digits) for integer string "
    ++ "conversion; use sys.set_int_max_str_digits() to increase the limit")

/-- The text of an integer. -/
def integerText (n : Int) : Except Fault String :=
  if n.natAbs < integerBound then .ok (toString n) else .error integerTooLong

/-- A result or a fault as an action. -/
def ofExcept {α : Type} : Except Fault α → Action α
  | .ok a => pure a
  | .error fault => throw fault

/-- Entries in braces. -/
def inBraces (entries : List String) : String := "\x7b" ++ ", ".intercalate entries ++ "\x7d"

/-! ## Engine objects -/

/-- How a type is shown. -/
def displayType (id : Nat) : Action String := do
  let w ← get
  let base ← match ← baseName? d id with
    | some name => do pure (", base_type=" ++ (← d.display name))
    | none => pure ""
  return "DataType(" ++ (← d.display (w.typeName id)) ++ base ++ ")"

/-- A value as text, given how it is shown. -/
def textThrough (display : Value → Action String) (v : Value) : Action String :=
  match v with
  | .str s => pure s
  | .date x => pure x.iso
  | .datetime x => pure (x.isoWith ' ')
  | .time x => pure x.iso
  | .target t => pure ("Target." ++ t.label)
  | .live part _ => do display (.live part false)
  | v => display v

/-- How a field is shown. -/
def displayField (id : Nat) : Action String := do
  let f := (← get).field id
  let held ← textThrough d.display (← heldName d id)
  let name ← d.display ((f.stored.get? "_name").getD (.str f.name))
  let array ← fieldIsArray d id
  return "Field(" ++ name ++ ", " ++ (if array then "[" ++ held ++ "]" else held) ++ ")"

/-- How a schema is shown. -/
def displaySchema (id : Nat) : Action String := do
  let parent ← match ← parentName? d id with
    | some name => do pure (", parent=" ++ (← d.display name))
    | none => pure ""
  let name ← d.display (← schemaName d id)
  let fields ← d.display (.fresh (← allFieldNames d id))
  return "Schema(" ++ name ++ ", fields=" ++ fields ++ parent ++ ")"

/-! ## Values -/

mutual

/-- The notation of a value. -/
def shown : Value → Action String
  | .null => pure "None"
  | .missing => pure "MISSING"
  | .bool b => pure (if b then "True" else "False")
  | .int n => ofExcept (integerText n)
  | .float x => pure x.toText
  | .str s => pure (Text.quoted s)
  | .bytes bs => pure (Text.quotedBytes bs)
  | .date x => pure (Calendar.displayDate x)
  | .datetime x => pure (Calendar.displayDateTime x)
  | .time x => pure (Calendar.displayTime x)
  | .list _ items => do return "[" ++ ", ".intercalate (← shownItems items) ++ "]"
  | .tuple items => do return displayTuple (← shownItems items)
  | .dict _ entries => do return inBraces (← shownEntries entries)
  | .live part readOnly => do
      let entries ← d.display (.freshDict ((← get).partEntries part))
      return if readOnly then "mappingproxy(" ++ entries ++ ")" else entries
  | .option o => pure o.display
  | .record _ _ => pure "<record>"
  | .native t => pure t.display
  | .target t => pure ("<Target." ++ t.label ++ ": '" ++ t.name ++ "'>")
  | .type id => displayType d id
  | .schema id => displaySchema d id
  | .field id => displayField d id
  | .registry _ => pure "<registry>"
  | .table _ => pure "<capability table>"
  | .function id name routine captured =>
      let name := (Value.function id name routine captured).qualifiedName?
      pure ("<function " ++ name.getD "" ++ ">")
  | .static _ _ f => do return "<staticmethod(" ++ (← shown f) ++ ")>"
  | .bound f r => do
      return "<bound method " ++ f.qualifiedName?.getD "?" ++ " of " ++ (← shown r) ++ ">"
  | .method r name => do
      return "<bound method " ++ r.methodKind name ++ "." ++ name ++ " of " ++ (← shown r) ++ ">"
  | .capability name f g s => do
      let name ← shown name
      let f ← shown f
      let g ← shown g
      return "Capability(name=" ++ name ++ ", func=" ++ f ++ ", fget=" ++ g ++ ", fset="
        ++ (← shown s) ++ ")"
  | .predicate p => shownPredicate p
termination_by structural v => v

/-- The notation of every item. -/
def shownItems : List Value → Action (List String)
  | [] => pure []
  | v :: vs => do return (← shown v) :: (← shownItems vs)
termination_by structural vs => vs

/-- The notation of every entry. -/
def shownEntries : List (Value × Value) → Action (List String)
  | [] => pure []
  | e :: es => do return (← shownEntry e) :: (← shownEntries es)
termination_by structural es => es

/-- A key and a value with a colon. -/
def shownEntry : Value × Value → Action String
  | (k, v) => do return (← shown k) ++ ": " ++ (← shown v)
termination_by structural e => e

/-- The notation of a predicate. -/
def shownPredicate : Predicate → Action String
  | .present path => pure ("Exists(path=" ++ Text.quoted path ++ ")")
  | .all ps => do return "AllOf(predicates=" ++ displayTuple (← shownParts ps) ++ ")"
  | .any ps => do return "AnyOf(predicates=" ++ displayTuple (← shownParts ps) ++ ")"
  | .negation p => do return "Not(predicate=" ++ (← shownPredicate p) ++ ")"
  | .structural _ expected => do
      return "StructuralMatch(expected=" ++ inBraces (← shownEntries expected) ++ ")"
  | .test f => do return "Predicate(func=" ++ (← shown f) ++ ")"
termination_by structural p => p

/-- The notation of every part. -/
def shownParts : List Predicate → Action (List String)
  | [] => pure []
  | p :: ps => do return (← shownPredicate p) :: (← shownParts ps)
termination_by structural ps => ps

end

/-- A value as text. -/
def textOf (v : Value) : Action String := textThrough (shown d) v

/-- A text stands for itself. -/
@[simp] theorem textOf_str (s : String) : textOf d (.str s) = pure s := rfl

/-- A text is shown quoted. -/
@[simp] theorem shown_str (s : String) : shown d (.str s) = pure (Text.quoted s) := by
  rw [shown]

end DataShape
