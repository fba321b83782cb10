import DataShape.Text.Blank
import DataShape.Text.Split
import Mathlib.Data.List.DropRight
import Mathlib.Data.List.TakeWhile

/-! # Cut and trimmed texts

Cutting a text at a separator and joining its parts undo each other, as long as there is a part and
no part has the separator in it. A text whose ends are not blank is its own trimmed form, and every
trimmed text is of that kind.

* `Text.splitChars_intercalate`, `Text.splitText_intercalate` — cutting undoes joining.
* `Text.splitChars_eq` — the part in front of the first separator, and what is cut behind it.
* `Text.trimChars_trimChars`, `Text.trimChars_eq_nil_iff` — what trimming leaves. -/

namespace DataShape.Text

/-! ## Cutting -/

variable {sep : Char}

theorem splitChars_append {part : List Char} (clean : sep ∉ part)
    (rest : List Char) : splitChars sep (part ++ sep :: rest) = part :: splitChars sep rest := by
  induction part with
  | nil => rw [List.nil_append, splitChars, if_pos rfl]
  | cons c part ih =>
    obtain ⟨other, clean⟩ := not_or.mp (mt List.mem_cons.mpr clean)
    rw [List.cons_append, splitChars, if_neg (Ne.symm other), ih clean]

/-- Splitting undoes joining, for one part or more without the separator in them. -/
theorem splitChars_intercalate {parts : List (List Char)} (given : parts ≠ [])
    (clean : ∀ p ∈ parts, sep ∉ p) : splitChars sep ([sep].intercalate parts) = parts := by
  induction parts with
  | nil => exact absurd rfl given
  | cons p rest ih =>
    have first := clean p List.mem_cons_self
    cases rest with
    | nil =>
      rw [List.intercalate_singleton]
      exact splitChars_of_notMem first
    | cons q rest =>
      have others := ih (List.cons_ne_nil q rest) fun r there =>
        clean r (List.mem_cons_of_mem p there)
      rw [List.intercalate_cons_cons, List.append_assoc, List.singleton_append,
        splitChars_append first, others]

/-- Keys without dots are the parts of the path that they make. -/
theorem splitText_intercalate {keys : List String} (given : keys ≠ [])
    (clean : ∀ k ∈ keys, '.' ∉ k.toList) : splitText '.' (".".intercalate keys) = keys := by
  have chars : splitChars '.' (['.'].intercalate (keys.map String.toList))
      = keys.map String.toList := splitChars_intercalate (by simpa) (by simpa using clean)
  rw [splitText, String.toList_intercalate]
  show (splitChars '.' (['.'].intercalate _)).map String.ofList = keys
  rw [chars, List.map_map]
  simp

/-- Joining puts the separator between the parts. -/
theorem joinChars_eq_intercalate (sep : Char) (parts : List (List Char)) :
    joinChars sep parts = [sep].intercalate parts := by
  induction parts with
  | nil => rfl
  | cons p rest ih =>
    cases rest with
    | nil => rw [joinChars, List.intercalate_singleton]
    | cons q rest =>
      rw [joinChars, List.intercalate_cons_cons, ih, List.append_assoc, List.singleton_append]
      exact List.cons_ne_nil q rest

/-- The first part reaches up to the first separator; the others are cut behind it. -/
theorem splitChars_eq (sep : Char) (cs : List Char) :
    splitChars sep cs = cs.takeWhile (· != sep) ::
      if sep ∈ cs then splitChars sep (cs.dropWhile (· != sep)).tail else [] := by
  induction cs with
  | nil => rfl
  | cons c rest ih =>
    rw [splitChars]
    by_cases here : c = sep
    · subst here
      simp
    · have other : (c != sep) = true := by simpa using here
      rw [if_neg here, ih]
      simp [other, Ne.symm here]

/-- There is one part more than there are separators. -/
theorem length_splitChars (sep : Char) (cs : List Char) :
    (splitChars sep cs).length = cs.count sep + 1 := by
  induction cs with
  | nil => rfl
  | cons c rest ih =>
    rw [splitChars]
    by_cases here : c = sep
    · rw [if_pos here, here, List.length_cons, ih, List.count_cons_self]
    · rw [if_neg here, List.count_cons_of_ne here, ← ih]
      obtain ⟨part, parts, cut⟩ := List.exists_cons_of_ne_nil (splitChars_ne_nil sep rest)
      rw [cut, List.length_cons, List.length_cons]

/-- No part has the separator in it. -/
theorem notMem_of_mem_splitChars {cs part : List Char} (there : part ∈ splitChars sep cs) :
    sep ∉ part := by
  induction cs generalizing part with
  | nil =>
    obtain rfl := List.mem_singleton.mp there
    exact List.not_mem_nil
  | cons c rest ih =>
    rw [splitChars] at there
    split at there
    · rcases List.mem_cons.mp there with rfl | later
      · exact List.not_mem_nil
      · exact ih later
    · next other =>
      obtain ⟨first, parts, cut⟩ := List.exists_cons_of_ne_nil (splitChars_ne_nil sep rest)
      rw [cut] at there ih
      rcases List.mem_cons.mp there with rfl | later
      · rw [List.mem_cons, not_or]
        exact ⟨Ne.symm other, ih List.mem_cons_self⟩
      · exact ih (List.mem_cons_of_mem _ later)

/-- The characters of a part are characters of the text. -/
theorem mem_of_mem_splitChars {cs part : List Char} (there : part ∈ splitChars sep cs) {c : Char}
    (h : c ∈ part) : c ∈ cs := by
  have joined := joinChars_splitChars sep cs
  rw [joinChars_eq_intercalate] at joined
  rw [← joined]
  generalize splitChars sep cs = parts at there
  induction parts with
  | nil => cases there
  | cons p rest ih =>
    cases rest with
    | nil =>
      obtain rfl := List.mem_singleton.mp there
      rwa [List.intercalate_singleton]
    | cons q rest =>
      rw [List.intercalate_cons_cons, List.mem_append]
      rcases List.mem_cons.mp there with rfl | later
      · exact .inl (List.mem_append_left _ h)
      · exact .inr (ih later)

/-! ## Trimming -/

/-- Trimming takes off characters at the ends. -/
theorem mem_of_mem_trimChars {cs : List Char} {c : Char} (h : c ∈ trimChars cs) : c ∈ cs :=
  (List.dropWhile_sublist _).subset ((List.rdropWhile_prefix _ _).subset h)

/-- A text of blanks only is trimmed away. -/
theorem trimChars_eq_nil_iff {cs : List Char} : trimChars cs = [] ↔ cs.all isBlank = true := by
  show (cs.dropWhile isBlank).rdropWhile isBlank = [] ↔ _
  rw [List.rdropWhile_eq_nil_iff, List.all_eq_true]
  refine ⟨fun blank c there => ?_,
    fun blank c there => blank c ((List.dropWhile_sublist _).subset there)⟩
  rw [← List.takeWhile_append_dropWhile (p := isBlank) (l := cs), List.mem_append] at there
  rcases there with front | back
  · exact List.mem_takeWhile_imp front
  · exact blank c back

/-- What was trimmed is trimmed. -/
@[simp] theorem trimChars_trimChars (cs : List Char) : trimChars (trimChars cs) = trimChars cs := by
  have start : trimStart (trimChars cs) = trimChars cs := by
    refine trimStart_eq_self fun c first => @trimStart_head cs c ?_
    obtain ⟨rest, same⟩ := List.head?_eq_some_iff.mp first
    obtain ⟨back, whole⟩ := List.rdropWhile_prefix isBlank (trimStart cs)
    rw [← whole]
    show (trimChars cs ++ back).head? = some c
    rw [same]
    rfl
  rw [trimChars, start]
  exact List.rdropWhile_idempotent _ _

end DataShape.Text
