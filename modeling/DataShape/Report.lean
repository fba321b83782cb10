import DataShape.Member.Signature
import DataShape.Value.Display

/-! # Reports

A report is what a caller is told about a fault of the engine: its kind, a message, a code for
programs and details. Faults of other origin (a value of a wrong type, a failure inside a
provider's function) have no report.

* `Fault.report?` — the report of a fault.
* `makeReport` — a report made from arguments, with the defaults of its kind. -/

namespace DataShape

/-- The kinds of faults that the engine itself reports. -/
inductive ReportKind where
  | general | definition | typeNotFound | enumeration | cycle | predicate | capability
deriving DecidableEq, Repr, Inhabited

/-- A report. -/
structure Report where
  kind : ReportKind
  message : Value
  code : Value
  details : Value
deriving Inhabited

/-- Whether a kind is a special case of a refused definition. -/
def ReportKind.isDefinition : ReportKind → Bool
  | .definition => true
  | .typeNotFound => true
  | .enumeration => true
  | .cycle => true
  | _ => false

/-- The code of a kind, unless a report gives its own; the general kind has none. -/
def ReportKind.code : ReportKind → String
  | .general => ""
  | .definition => "DEFINITION_ERROR"
  | .typeNotFound => "TYPE_NOT_FOUND"
  | .enumeration => "ENUMERATION_SYNTAX"
  | .cycle => "TYPE_CYCLE"
  | .predicate => "PREDICATE_ERROR"
  | .capability => "CAPABILITY_NOT_IMPLEMENTED"

/-- A report with the code of its kind. -/
def Report.ofKind (kind : ReportKind) (message : Value) (details : List (String × Value)) :
    Report :=
  ⟨kind, message, .str kind.code, .ofFields details⟩

/-- The report of an unknown type name. -/
def typeNotFoundReport (message : String) (name field suggestions : Value) : Report :=
  .ofKind .typeNotFound (.str message)
    [("type_name", name), ("field_name", field), ("suggestions", suggestions)]

/-- The report of a base chain that would loop. -/
def cycleReport (message : String) (name base : Value) : Report :=
  .ofKind .cycle (.str message) [("type_name", name), ("base_name", base)]

/-- The report of a missing capability. -/
def capabilityReport (message : String) (capability host : Value) : Report :=
  .ofKind .capability (.str message) [("capability", capability), ("type_name", host)]

/-- The report of a fault, if it is one of the engine's own. -/
def Fault.report? (fault : Fault) : Option Report :=
  let message := fault.message
  match fault with
  | .definition _ => some (.ofKind .definition (.str message) [])
  | .typeNotFound name field suggestions _ _ =>
      some (typeNotFoundReport message name field (.ofTexts suggestions))
  | .enumeration _ spec => some (.ofKind .enumeration (.str message) [("option_spec", spec)])
  | .cycle name base _ => some (cycleReport message name (.str base))
  | .predicate _ shown => some (.ofKind .predicate (.str message) [("spec", .str shown)])
  | .notImplemented capability _ host _ => some (capabilityReport message capability host)
  | _ => none

/-! ## Reports from arguments -/

variable (d : Dispatch)

/-- The arguments that a report of a kind is made from. -/
def ReportKind.parameters : ReportKind → Parameters
  | .general => [needed "message", optional "code" .null, optional "details" .null]
  | .definition => [needed "message", optional "code" .null, optional "details" .null]
  | .typeNotFound =>
      [needed "type_name", optional "field_name" .null, optional "suggestions" .null]
  | .enumeration => [needed "message", optional "option_spec" .null]
  | .cycle => [needed "type_name", needed "base_name"]
  | .predicate => [needed "message", optional "spec" .null]
  | .capability => [needed "capability", needed "type_name"]

/-- The texts that a list of suggestions holds. -/
def suggestionTexts (suggestions : Value) : Action (List String) := do
  (← iterate d suggestions).mapM fun v => match v with
    | .str s => pure s
    | _ => throw .wrongType

/-- A report from its arguments in order; a missing code is the code of the kind. -/
def reportOf (kind : ReportKind) (code : String) (arguments : List Value) : Action Report := do
  match kind, arguments with
  | .typeNotFound, [name, field, given] =>
      let suggestions ← orElseValue d given (.fresh [])
      let texts ← suggestionTexts d suggestions
      let fieldText ← if ← truthOf d field then some <$> textOf d field else pure none
      return typeNotFoundReport (typeNotFoundMessage (← textOf d name) fieldText texts) name field
        suggestions
  | .enumeration, [message, spec] => return .ofKind .enumeration message [("option_spec", spec)]
  | .cycle, [name, base] =>
      return cycleReport (cycleMessage (← textOf d name) (← textOf d base)) name base
  | .predicate, [message, spec] =>
      return .ofKind .predicate message [("spec", .str (← shown d spec))]
  | .capability, [capability, host] =>
      let message := notImplementedMessage (← textOf d capability) (← textOf d host)
      return capabilityReport message capability host
  | kind, [message, given, details] =>
      return ⟨kind, message, ← orElseValue d given (.str code),
        ← orElseValue d details (.freshDict [])⟩
  | _, _ => throw .wrongType

/-- Make a report of a kind; the general kind is given the code that stands for it. -/
def makeReport (generalCode : String) (kind : ReportKind) (arguments : List Value) :
    Action Report :=
  match bindArguments? kind.parameters arguments [] with
  | some bound => reportOf d kind (if kind = .general then generalCode else kind.code) bound
  | none => throw .wrongType

/-- A report of a fault carries the fault's message. -/
theorem message_of_report? {fault : Fault} {report : Report} (h : fault.report? = some report) :
    report.message = .str fault.message := by
  cases fault <;> simp_all [Fault.report?] <;> subst h <;> rfl

end DataShape
