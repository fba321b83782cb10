import DataShape.Function
import DataShape.Proofs.Execution
import DataShape.Proofs.Text

/-! # Option lists and their options

An option list is read if each of its segments between bars is an option: it has one colon at most,
and a label in front of it that is not blank. The first segment that is none is named in the fault.
What is read can be written again, and reading that gives the same options.

* `Enumeration.IsOption`, `Enumeration.optionOf` — the segments that are options, and what they say.
* `Enumeration.Refuses` — the fault that names the first segment that is no option.
* `Enumeration.Tidy` — options that are written so that they can be read.
* `parseOptions_of_all`, `parseOptions_of_first` — segments one after the other.
* `readOptions_grammar` — what is read, what is refused, and what is read from written options. -/

namespace DataShape

namespace Enumeration

open DataShape.Text

/-! ## Segments -/

/-- The text of a segment in front of its first colon; all of it where there is none. -/
def labelPart (text : List Char) : List Char := text.takeWhile (· != ':')

/-- The text of a segment behind its first colon, if it has one. -/
def valuePart? (text : List Char) : Option (List Char) :=
  if ':' ∈ text then some (text.dropWhile (· != ':')).tail else none

/-- A segment is an option if it has one colon at most and its label is not blank. -/
def IsOption (text : List Char) : Prop :=
  text.count ':' ≤ 1 ∧ (labelPart text).all isBlank = false

instance (text : List Char) : Decidable (IsOption text) := inferInstanceAs (Decidable (_ ∧ _))

/-- What an option says: its trimmed label, and its trimmed value or the label again. -/
def optionOf (text : List Char) : EnumOption :=
  ⟨String.ofList (trimChars (labelPart text)),
    String.ofList (trimChars ((valuePart? text).getD (labelPart text)))⟩

/-- The fault of a segment that is no option. -/
def faultOf (position : Nat) (text : List Char) : EnumerationFault :=
  if 1 < text.count ':' then .twoSeparators position (String.ofList text)
  else .emptyLabel position (String.ofList text)

/-- The fault of a text that is no option list: it says that the text is blank, or it names the
first segment that is no option, counting from one. -/
def Refuses (s : String) (cause : EnumerationFault) : Prop :=
  (isBlankText s = true ∧ cause = .notText (quoted s)) ∨
  isBlankText s = false ∧ ∃ before text after, splitChars '|' s.toList = before ++ text :: after ∧
    (∀ t ∈ before, IsOption t) ∧ ¬ IsOption text ∧ cause = faultOf (before.length + 1) text

/-- A segment is cut at its colons into the label, and the value if there is one colon. -/
theorem splitChars_of_count_le {text : List Char} (few : text.count ':' ≤ 1) :
    splitChars ':' text = labelPart text :: (valuePart? text).toList := by
  rw [splitChars_eq]
  unfold valuePart? labelPart
  by_cases there : ':' ∈ text
  · rw [if_pos there, if_pos there]
    refine congrArg _ (splitChars_of_notMem fun again => ?_)
    obtain ⟨first, others, behind⟩ : ∃ c rest, text.dropWhile (· != ':') = c :: rest :=
      List.exists_cons_of_ne_nil fun empty => by rw [empty] at again; cases again
    have colon : first = ':' := by
      have head := List.head?_dropWhile_not (· != ':') text
      rw [behind] at head
      simpa using head
    rw [behind, List.tail_cons] at again
    rw [← List.takeWhile_append_dropWhile (p := (· != ':')) (l := text), List.count_append, behind,
      colon, List.count_cons_self] at few
    have := List.count_pos_iff.mpr again
    omega
  · rw [if_neg there, if_neg there]
    rfl

/-- A segment is read if it is an option, and refused otherwise. -/
theorem parseOption_eq (position : Nat) (text : List Char) :
    parseOption position text
      = if IsOption text then .ok (optionOf text) else .error (faultOf position text) := by
  have blank : ∀ part : List Char, (trimChars part).isEmpty = part.all isBlank := fun part => by
    rw [Bool.eq_iff_iff, List.isEmpty_iff, trimChars_eq_nil_iff]
  unfold parseOption
  by_cases few : text.count ':' ≤ 1
  · rw [splitChars_of_count_le few]
    have fault : faultOf position text = .emptyLabel position (String.ofList text) :=
      if_neg (by omega)
    cases value : valuePart? text with
    | none =>
      simp only [Option.toList_none, List.map_cons, List.map_nil, blank, IsOption, few, true_and,
        optionOf, value, fault, Option.getD_none]
      cases (labelPart text).all isBlank <;> rfl
    | some part =>
      simp only [Option.toList_some, List.map_cons, List.map_nil, blank, IsOption, few, true_and,
        optionOf, value, fault, Option.getD_some]
      cases (labelPart text).all isBlank <;> rfl
  · rw [if_neg fun option => few option.1, faultOf, if_pos (by omega)]
    have many : ((splitChars ':' text).map trimChars).length = text.count ':' + 1 := by
      rw [List.length_map, length_splitChars]
    match parts : (splitChars ':' text).map trimChars with
    | [] | [_] | [_, _] =>
      rw [parts] at many
      simp only [List.length_nil, List.length_cons] at many
      omega
    | _ :: _ :: _ :: _ => rfl

/-- Options are read one after the other. By induction on the segments. -/
theorem parseOptions_of_all {texts : List (List Char)} (all : ∀ t ∈ texts, IsOption t)
    (position : Nat) : parseOptions position texts = .ok (texts.map optionOf) := by
  induction texts generalizing position with
  | nil => rfl
  | cons text rest ih =>
    rw [parseOptions, parseOption_eq, if_pos (all text List.mem_cons_self),
      ih (fun t there => all t (List.mem_cons_of_mem _ there))]
    rfl

/-- The first segment that is no option ends the reading. By induction on the options in front of
it. -/
theorem parseOptions_of_first {before : List (List Char)} (options : ∀ t ∈ before, IsOption t)
    {text : List Char} (none : ¬ IsOption text) (after : List (List Char)) (position : Nat) :
    parseOptions position (before ++ text :: after)
      = .error (faultOf (position + before.length) text) := by
  induction before generalizing position with
  | nil =>
    rw [List.nil_append, parseOptions, parseOption_eq, if_neg none]
    rfl
  | cons first rest ih =>
    rw [List.cons_append, parseOptions, parseOption_eq, if_pos (options first List.mem_cons_self),
      ih fun t there => options t (List.mem_cons_of_mem _ there), List.length_cons,
      show position + 1 + rest.length = position + (rest.length + 1) by omega]
    rfl

/-! ## Option lists -/

/-- A blank text has no segment that is an option. -/
theorem not_isOption_of_isBlankText {s : String} (blank : isBlankText s = true) :
    ∃ t ∈ splitChars '|' s.toList, ¬ IsOption t := by
  obtain ⟨text, rest, cut⟩ := List.exists_cons_of_ne_nil (splitChars_ne_nil '|' s.toList)
  have there : text ∈ splitChars '|' s.toList := by
    rw [cut]
    exact List.mem_cons_self
  refine ⟨text, there, fun option => ?_⟩
  have all : (labelPart text).all isBlank = true := by
    refine List.all_eq_true.mpr fun c inside => List.all_eq_true.mp blank c ?_
    exact mem_of_mem_splitChars there ((List.takeWhile_prefix _).subset inside)
  exact absurd (all.symm.trans option.2) (by decide)

/-- A text all segments of which are options is read as what they say. -/
theorem parse_of_all {s : String} (all : ∀ t ∈ splitChars '|' s.toList, IsOption t) :
    parse (quoted s) s = .ok ((splitChars '|' s.toList).map optionOf) := by
  have filled : ¬ isBlankText s = true := fun blank => by
    obtain ⟨t, there, none⟩ := not_isOption_of_isBlankText blank
    exact none (all t there)
  rw [parse, if_neg filled, parseOptions_of_all all]

/-- The first element that a test does not hold of. -/
theorem exists_first_not {α : Type} {P : α → Prop} {items : List α} (h : ¬ ∀ t ∈ items, P t) :
    ∃ before t after, items = before ++ t :: after ∧ (∀ b ∈ before, P b) ∧ ¬ P t := by
  induction items with
  | nil => exact absurd (fun _ there => absurd there List.not_mem_nil) h
  | cons a rest ih =>
    by_cases first : P a
    · obtain ⟨before, t, after, rfl, good, bad⟩ := ih fun all =>
        h (List.forall_mem_cons.mpr ⟨first, all⟩)
      exact ⟨a :: before, t, after, rfl, List.forall_mem_cons.mpr ⟨first, good⟩, bad⟩
    · exact ⟨[], a, rest, rfl, nofun, first⟩

/-- Any other text is refused. -/
theorem parse_of_not_all {s : String} (h : ¬ ∀ t ∈ splitChars '|' s.toList, IsOption t) :
    ∃ cause, parse (quoted s) s = .error cause ∧ Refuses s cause := by
  unfold parse
  by_cases blank : isBlankText s = true
  · rw [if_pos blank]
    exact ⟨_, rfl, .inl ⟨blank, rfl⟩⟩
  · obtain ⟨before, text, after, cut, options, none⟩ := exists_first_not h
    rw [if_neg blank, cut, parseOptions_of_first options none, Nat.add_comm]
    exact ⟨_, rfl, .inr ⟨by simpa using blank, before, text, after, cut, options, none, rfl⟩⟩

/-! ## Written options -/

/-- Options whose label and value are trimmed and have no separator in them, and whose label is not
empty. -/
structure Tidy (o : EnumOption) : Prop where
  labelTrimmed : trimChars o.label.toList = o.label.toList
  valueTrimmed : trimChars o.value.toList = o.value.toList
  labelNotEmpty : o.label ≠ ""
  noBar : '|' ∉ o.label.toList ∧ '|' ∉ o.value.toList
  noColon : ':' ∉ o.label.toList ∧ ':' ∉ o.value.toList

/-- What a segment without bars says is tidy. -/
theorem tidy_optionOf {text : List Char} (option : IsOption text) (clean : '|' ∉ text) :
    Tidy (optionOf text) := by
  have cut := splitChars_of_count_le option.1
  have parts : ∀ part, part = labelPart text ∨ part = (valuePart? text).getD (labelPart text) →
      part ∈ splitChars ':' text := by
    rintro part (rfl | rfl)
    · rw [cut]
      exact List.mem_cons_self
    · rw [cut]
      cases valuePart? text <;> simp
  have free : ∀ part, part ∈ splitChars ':' text →
      '|' ∉ trimChars part ∧ ':' ∉ trimChars part := fun part there =>
    ⟨fun bar => clean (mem_of_mem_splitChars there (mem_of_mem_trimChars bar)),
      fun colon => notMem_of_mem_splitChars there (mem_of_mem_trimChars colon)⟩
  have label := free _ (parts _ (.inl rfl))
  have value := free _ (parts _ (.inr rfl))
  refine ⟨by simp [optionOf], by simp [optionOf], fun empty => ?_,
    by simpa [optionOf] using And.intro label.1 value.1,
    by simpa [optionOf] using And.intro label.2 value.2⟩
  have none := congrArg String.toList empty
  simp only [optionOf, String.toList_ofList, String.toList_empty, trimChars_eq_nil_iff] at none
  exact absurd (none.symm.trans option.2) (by decide)

variable {o : EnumOption} (tidy : Tidy o)

include tidy

/-- The text of a tidy option has its label in front of the colon, and its value behind it. -/
theorem Tidy.parts_renderOption :
    labelPart (renderOption o) = o.label.toList ∧
      valuePart? (renderOption o) = some o.value.toList := by
  have before : ∀ c ∈ o.label.toList, (c != ':') = true := fun c there => by
    rw [bne_iff_ne]
    rintro rfl
    exact tidy.noColon.1 there
  unfold labelPart valuePart? renderOption
  rw [List.takeWhile_append_of_pos before, List.dropWhile_append_of_pos before]
  simp

/-- The text of a tidy option is an option. -/
theorem Tidy.isOption_renderOption : IsOption (renderOption o) := by
  obtain ⟨label, -⟩ := tidy.parts_renderOption
  refine ⟨?_, ?_⟩
  · rw [renderOption, List.count_append, List.count_cons_self,
      List.count_eq_zero_of_not_mem tidy.noColon.1, List.count_eq_zero_of_not_mem tidy.noColon.2]
  · rw [label, ← Bool.not_eq_true, ← trimChars_eq_nil_iff, tidy.labelTrimmed]
    simpa using tidy.labelNotEmpty

/-- It says what the option is. -/
theorem Tidy.optionOf_renderOption : optionOf (renderOption o) = o := by
  obtain ⟨label, value⟩ := tidy.parts_renderOption
  simp only [optionOf, label, value, Option.getD_some, tidy.labelTrimmed, tidy.valueTrimmed,
    String.ofList_toList]

omit tidy

/-- Tidy options are the segments of their text. -/
theorem splitChars_render {options : List EnumOption} (given : options ≠ [])
    (all : ∀ o ∈ options, Tidy o) :
    splitChars '|' (render options).toList = options.map renderOption := by
  rw [render, String.toList_ofList, joinChars_eq_intercalate]
  refine splitChars_intercalate (by simpa using given) fun text there => ?_
  obtain ⟨o, inside, rfl⟩ := List.mem_map.mp there
  have tidy := all o inside
  simp [renderOption, tidy.noBar]

/-- Tidy options are read from their text. -/
theorem parse_render {options : List EnumOption} (given : options ≠ [])
    (all : ∀ o ∈ options, Tidy o) :
    parse (quoted (render options)) (render options) = .ok options := by
  have cut := splitChars_render given all
  have options' : ∀ t ∈ splitChars '|' (render options).toList, IsOption t := by
    rw [cut]
    intro t there
    obtain ⟨o, inside, rfl⟩ := List.mem_map.mp there
    exact (all o inside).isOption_renderOption
  rw [parse_of_all options', cut, List.map_map]
  refine congrArg Except.ok ((List.map_congr_left fun o there => ?_).trans (List.map_id _))
  exact (all o there).optionOf_renderOption

/-- What is read from a text is one tidy option or more. -/
theorem tidy_of_parse {s : String} {options : List EnumOption}
    (read : parse (quoted s) s = .ok options) : options ≠ [] ∧ ∀ o ∈ options, Tidy o := by
  by_cases all : ∀ t ∈ splitChars '|' s.toList, IsOption t
  · rw [parse_of_all all] at read
    obtain rfl := Except.ok.inj read
    refine ⟨by simpa using splitChars_ne_nil '|' s.toList, fun o there => ?_⟩
    obtain ⟨t, inside, rfl⟩ := List.mem_map.mp there
    exact tidy_optionOf (all t inside) (notMem_of_mem_splitChars inside)
  · obtain ⟨cause, refused, -⟩ := parse_of_not_all all
    rw [refused] at read
    cases read

end Enumeration

/-! ## Reading -/

open Enumeration in
/-- A text is read by parsing it; a fault of the parser carries the text. -/
theorem exec_readOptions (d : Dispatch) (s : String) (w : World) :
    exec (readOptions d (.str s)) w
      = ((parse (Text.quoted s) s).mapError (Fault.enumeration · (.str s)), w) := by
  rw [readOptions]
  cases parse (Text.quoted s) s <;> rfl

open Enumeration in
/-- A text is read as an option list just if each of its segments is an option, and then gives what
they say, in their order; any other text is refused with a fault that names it. Options that are
tidy are read from their text as they are, and so is whatever was read from a text. -/
theorem readOptions_grammar (d : Dispatch) (w : World) :
    (∀ s : String,
      ((∃ options, exec (readOptions d (.str s)) w = (.ok options, w)) ↔
        ∀ t ∈ Text.splitChars '|' s.toList, IsOption t) ∧
      ((∀ t ∈ Text.splitChars '|' s.toList, IsOption t) → exec (readOptions d (.str s)) w
        = (.ok ((Text.splitChars '|' s.toList).map optionOf), w)) ∧
      ((¬ ∀ t ∈ Text.splitChars '|' s.toList, IsOption t) → ∃ cause, Refuses s cause ∧
        exec (readOptions d (.str s)) w = (.error (.enumeration cause (.str s)), w))) ∧
    (∀ options : List EnumOption, options ≠ [] → (∀ o ∈ options, Tidy o) →
      exec (readOptions d (.str (render options))) w = (.ok options, w)) ∧
    ∀ (s : String) (options : List EnumOption) (w' : World),
      exec (readOptions d (.str s)) w = (.ok options, w') →
      exec (readOptions d (.str (render options))) w' = (.ok options, w') := by
  refine ⟨fun s => ⟨⟨?_, fun all => ?_⟩, fun all => ?_, fun other => ?_⟩,
    fun options given tidy => ?_, fun s options w' read => ?_⟩
  · rintro ⟨options, read⟩
    by_contra other
    obtain ⟨cause, refused, -⟩ := parse_of_not_all other
    rw [exec_readOptions, refused] at read
    cases read
  · exact ⟨_, by rw [exec_readOptions, parse_of_all all]; rfl⟩
  · rw [exec_readOptions, parse_of_all all]
    rfl
  · obtain ⟨cause, refused, names⟩ := parse_of_not_all other
    exact ⟨cause, names, by rw [exec_readOptions, refused]; rfl⟩
  · rw [exec_readOptions, parse_render given tidy]
    rfl
  · rw [exec_readOptions] at read
    cases parsed : parse (Text.quoted s) s with
    | error cause =>
      rw [parsed] at read
      cases read
    | ok others =>
      rw [parsed] at read
      obtain ⟨same, -⟩ := Prod.mk.inj read
      obtain rfl := Except.ok.inj same
      obtain ⟨given, tidy⟩ := tidy_of_parse parsed
      rw [exec_readOptions, parse_render given tidy]
      rfl

/-- Two options are read, one of them with blanks around its parts, and their text gives them again;
of three segments the one without a label is named. -/
theorem readOptions_grammar_answers :
    let w := World.empty "" []
    let answers : List EnumOption := [⟨"No", "false"⟩, ⟨"Yes", "Yes"⟩]
    (∀ t ∈ Text.splitChars '|' "No : false| Yes ".toList, Enumeration.IsOption t) ∧
    exec (readOptions engine (.str "No : false| Yes ")) w = (.ok answers, w) ∧
    (∀ o ∈ answers, Enumeration.Tidy o) ∧
    exec (readOptions engine (.str "No:false|Yes:Yes")) w = (.ok answers, w) ∧
    ∃ cause, Enumeration.Refuses "A||B" cause ∧
      exec (readOptions engine (.str "A||B")) w
        = (.error (.enumeration cause (.str "A||B")), w) := by
  intro w answers
  obtain ⟨texts, written, -⟩ := readOptions_grammar engine w
  have all : ∀ t ∈ Text.splitChars '|' "No : false| Yes ".toList, Enumeration.IsOption t := by
    decide
  have read := (texts "No : false| Yes ").2.1 all
  have tidy : ∀ o ∈ answers, Enumeration.Tidy o := by
    intro o there
    simp only [answers, List.mem_cons, List.not_mem_nil, or_false] at there
    rcases there with rfl | rfl <;> exact ⟨by decide, by decide, by decide, by decide, by decide⟩
  refine ⟨all, read, tidy, ?_, ?_⟩
  · exact written answers (List.cons_ne_nil _ _) tidy
  · exact (texts "A||B").2.2 (by decide)

end DataShape
