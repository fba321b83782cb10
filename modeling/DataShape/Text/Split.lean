/-! # Splitting at a separator

Cutting a text at every occurrence of a separator. A text with `n` separators has `n + 1` parts, so
the empty text has one empty part, and joining the parts gives the text back. -/

namespace DataShape.Text

/-- The parts of a text between separators. -/
def splitChars (sep : Char) : List Char → List (List Char)
  | [] => [[]]
  | c :: rest =>
      if c = sep then [] :: splitChars sep rest
      else match splitChars sep rest with
        | part :: parts => (c :: part) :: parts
        | [] => [[c]]

/-- The parts of a text between separators. -/
def splitText (sep : Char) (s : String) : List String :=
  (splitChars sep s.toList).map String.ofList

/-- Parts with a separator between them. -/
def joinChars (sep : Char) : List (List Char) → List Char
  | [] => []
  | [part] => part
  | part :: parts => part ++ sep :: joinChars sep parts

@[simp] theorem splitChars_nil (sep : Char) : splitChars sep [] = [[]] := rfl

/-- There is always a first part. -/
theorem splitChars_ne_nil (sep : Char) (cs : List Char) : splitChars sep cs ≠ [] := by
  cases cs with
  | nil => simp
  | cons c rest =>
    rw [splitChars]
    split
    · simp
    · split <;> simp

/-- Joining the parts gives the text back. -/
theorem joinChars_splitChars (sep : Char) (cs : List Char) :
    joinChars sep (splitChars sep cs) = cs := by
  induction cs with
  | nil => rfl
  | cons c rest ih =>
    rw [splitChars]
    obtain ⟨part, parts, h⟩ := List.exists_cons_of_ne_nil (splitChars_ne_nil sep rest)
    rw [h] at ih ⊢
    split
    · rename_i hc
      simp [joinChars, ih, hc]
    · cases parts with
      | nil => simp_all [joinChars]
      | cons q qs => simp_all [joinChars]

/-- A text without the separator is its own only part. -/
theorem splitChars_of_notMem {sep : Char} {cs : List Char} (h : sep ∉ cs) :
    splitChars sep cs = [cs] := by
  induction cs with
  | nil => rfl
  | cons c rest ih =>
    have hc : c ≠ sep := fun e => h (e ▸ List.mem_cons_self)
    have hr : sep ∉ rest := fun m => h (List.mem_cons_of_mem c m)
    simp [splitChars, hc, ih hr]

end DataShape.Text
