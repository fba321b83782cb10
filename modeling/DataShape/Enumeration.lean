import DataShape.Fault
import DataShape.Text.Blank
import DataShape.Text.Split

/-! # Option lists

The options of an enumerated type are written as one text: options between bars, each a label or a
label and a value with a colon between them. Blanks around labels and values do not count. An
option without a value has its label as value.

* `Enumeration.parse` — read an option list; a fault names the first option that is malformed,
  counting from one.
* `Enumeration.render` — write options with their labels and values. -/

namespace DataShape.Enumeration

open DataShape.Text

/-- Read one option: the parts between its colons, trimmed. -/
def parseOption (position : Nat) (text : List Char) : Except EnumerationFault EnumOption :=
  match (splitChars ':' text).map trimChars with
  | [] => .error (.emptyLabel position (String.ofList text))
  | [label] =>
      if label.isEmpty then .error (.emptyLabel position (String.ofList text))
      else .ok ⟨String.ofList label, String.ofList label⟩
  | [label, value] =>
      if label.isEmpty then .error (.emptyLabel position (String.ofList text))
      else .ok ⟨String.ofList label, String.ofList value⟩
  | _ => .error (.twoSeparators position (String.ofList text))

/-- Read the options from a position on. -/
def parseOptions : Nat → List (List Char) → Except EnumerationFault (List EnumOption)
  | _, [] => .ok []
  | position, text :: rest => do
      let first ← parseOption position text
      let others ← parseOptions (position + 1) rest
      return first :: others

/-- Read an option list; a blank text, shown in the fault, has no options. -/
def parse (shown : String) (s : String) : Except EnumerationFault (List EnumOption) :=
  if isBlankText s then .error (.notText shown) else parseOptions 1 (splitChars '|' s.toList)

/-- The text of one option. -/
def renderOption (o : EnumOption) : List Char := o.label.toList ++ ':' :: o.value.toList

/-- The text of options, each with its label and its value. -/
def render (options : List EnumOption) : String :=
  String.ofList (joinChars '|' (options.map renderOption))

@[simp] theorem parseOptions_nil (position : Nat) : parseOptions position [] = .ok [] := rfl

/-- As many options as texts. -/
theorem length_of_parseOptions {position : Nat} {texts : List (List Char)}
    {options : List EnumOption} (h : parseOptions position texts = .ok options) :
    options.length = texts.length := by
  induction texts generalizing position options with
  | nil => simp_all
  | cons t ts ih =>
    rw [parseOptions] at h
    cases h1 : parseOption position t with
    | error e => rw [h1] at h; simp [bind, Except.bind] at h
    | ok o =>
      cases h2 : parseOptions (position + 1) ts with
      | error e => rw [h1, h2] at h; simp [bind, Except.bind] at h
      | ok os =>
        rw [h1, h2] at h
        simp only [bind, Except.bind, pure, Except.pure, Except.ok.injEq] at h
        rw [← h, List.length_cons, List.length_cons, ih h2]

end DataShape.Enumeration
