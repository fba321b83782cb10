import DataShape.Text.Label
import Mathlib

/-! # Words and labels

Cutting a name into words loses no letter and no digit: the words one behind the other are the
letters and digits of the name. The words of a label are those of the name with their letter case
changed, and they are separated by spaces; so cutting a label gives back the words it was made
from, and the label of a label is the label itself.

* `isNameWord_take_wordLength`, `wordLength_eq_zero_iff` — what the rules for words find at the
  front of a text.
* `wordLength_eq_head_wordEnds` — the word is the preferred one of all that the rules allow.
* `flatten_splitWords` — no letter or digit falls between two words.
* `IsLabelWord` — how words look in a label; `splitWords_intercalate` — cutting undoes joining.
* `labelOf_stable` — labels are stable and keep the letters and digits. -/

namespace DataShape.Text

/-! ## Letters and digits -/

theorem isSmall_eq_isLower (c : Char) : isSmall c = c.isLower := by
  simp [isSmall, Char.isLower, Char.le_def]

theorem isCapital_eq_isUpper (c : Char) : isCapital c = c.isUpper := by
  simp [isCapital, Char.isUpper, Char.le_def]

/-- A letter is small or a capital. -/
theorem isAlpha_eq (c : Char) : c.isAlpha = (isSmall c || isCapital c) := by
  rw [isSmall_eq_isLower, isCapital_eq_isUpper, Char.isAlpha, Bool.or_comm]

theorem isCapital_of_isSmall {c : Char} (h : isSmall c = true) : isCapital c = false := by
  rw [isSmall_eq_isLower] at h
  rw [isCapital_eq_isUpper]
  simpa using Char.not_isUpper_of_isLower h

theorem isSmall_of_isCapital {c : Char} (h : isCapital c = true) : isSmall c = false := by
  by_contra small
  rw [isCapital_of_isSmall (by simpa using small)] at h
  exact Bool.false_ne_true h

/-- Only the digits `0` to `9` are ASCII. -/
theorem toNat_of_isDigit {c : Char} (h : isDigit c = true) :
    (48 ≤ c.toNat ∧ c.toNat ≤ 57) ∨ 1632 ≤ c.toNat := by
  have zeros : ∀ z ∈ digitZeros, z = 48 ∨ 1632 ≤ z := by decide
  rw [isDigit, digitValue?, Option.isSome_map, List.find?_isSome] at h
  obtain ⟨z, known, range⟩ := h
  simp only [Bool.and_eq_true, decide_eq_true_eq] at range
  rcases zeros z known with rfl | far <;> omega

/-- No digit is a letter. -/
theorem isAlpha_of_isDigit {c : Char} (h : isDigit c = true) : c.isAlpha = false := by
  have range := toNat_of_isDigit h
  simp only [Char.isAlpha, Char.isUpper, Char.isLower, UInt32.le_iff_toNat_le, Char.toNat_val,
    ge_iff_le, Bool.or_eq_false_iff, Bool.and_eq_false_iff, decide_eq_false_iff_not]
  simp
  omega

theorem isSmall_of_isDigit {c : Char} (h : isDigit c = true) : isSmall c = false := by
  have no := isAlpha_of_isDigit h
  rw [isAlpha_eq, Bool.or_eq_false_iff] at no
  exact no.1

theorem isCapital_of_isDigit {c : Char} (h : isDigit c = true) : isCapital c = false := by
  have no := isAlpha_of_isDigit h
  rw [isAlpha_eq, Bool.or_eq_false_iff] at no
  exact no.2

/-- Digits have no letter case. -/
theorem toLower_of_isDigit {c : Char} (h : isDigit c = true) : c.toLower = c :=
  Char.toLower_eq_of_not_isUpper (by simp [← isCapital_eq_isUpper, isCapital_of_isDigit h])

theorem toUpper_of_isDigit {c : Char} (h : isDigit c = true) : c.toUpper = c :=
  Char.toUpper_eq_of_not_isLower (by simp [← isSmall_eq_isLower, isSmall_of_isDigit h])

/-- The characters that words are made of: the ASCII letters and the digits of any script. -/
def isWordChar (c : Char) : Bool := c.isAlpha || isDigit c

/-! ## The word at the front of a text -/

/-- A word of a name: letters only, or digits only. -/
structure IsNameWord (w : List Char) : Prop where
  given : w ≠ []
  uniform : (∀ c ∈ w, c.isAlpha = true) ∨ ∀ c ∈ w, isDigit c = true

theorem IsNameWord.isWordChar {w : List Char} (word : IsNameWord w) :
    ∀ c ∈ w, isWordChar c = true := by
  intro c there
  rcases word.uniform with letters | digits
  · simp [Text.isWordChar, letters c there]
  · simp [Text.isWordChar, digits c there]

theorem take_length_takeWhile (p : Char → Bool) (cs : List Char) :
    cs.take (cs.takeWhile p).length = cs.takeWhile p :=
  (List.prefix_iff_eq_take.mp (List.takeWhile_prefix p)).symm

/-- A run of capitals is a word as long as its first capital does not belong to the word behind. -/
theorem acronymLength_pos {c : Char} {rest : List Char} (capital : isCapital c = true)
    (alone : rest.head?.any isSmall = false) : 0 < acronymLength (c :: rest) := by
  have run : (c :: rest).takeWhile isCapital = c :: rest.takeWhile isCapital :=
    List.takeWhile_cons_of_pos capital
  simp only [acronymLength, run, List.length_cons, List.drop_succ_cons]
  split
  · next followed =>
    -- a run of one capital would be followed by the small letter that is not there
    have : (rest.takeWhile isCapital).length ≠ 0 := by
      intro none
      rw [none, List.drop_zero, alone] at followed
      exact Bool.false_ne_true followed
    omega
  · omega

/-- The positive numbers up to a bound, the greatest one first. -/
def downFrom (n : Nat) : List Nat := (List.range n).reverse.map (· + 1)

/-- All lengths at which the rules can end a word at the front of a text, the preferred one first: a
repetition takes as much as it can and gives back from the end, an optional character is taken
first, and a rule is tried after those in front of it. -/
def wordEnds (cs : List Char) : List Nat :=
  (if cs.head?.any isCapital then
    (downFrom (cs.tail.takeWhile isSmall).length).map (· + 1) else [])
  ++ downFrom (cs.takeWhile isSmall).length
  ++ (downFrom (cs.takeWhile isCapital).length).filter (fun n => !(cs.drop n).head?.any isSmall)
  ++ downFrom (cs.takeWhile isDigit).length

theorem downFrom_succ (n : Nat) : downFrom (n + 1) = (n + 1) :: downFrom n := by
  simp [downFrom, List.range_succ]

theorem getD_head?_downFrom (n : Nat) : (downFrom n).head?.getD 0 = n := by
  cases n with
  | zero => rfl
  | succ n => rw [downFrom_succ]; rfl

/-- Of the lengths of a run of capitals the first one that no small letter follows is the whole run
or one less. -/
theorem head?_filter_capitals {c : Char} {rest : List Char} (capital : isCapital c = true)
    (alone : rest.head?.any isSmall = false) :
    ((downFrom ((c :: rest).takeWhile isCapital).length).filter
      fun n => !((c :: rest).drop n).head?.any isSmall).head? = some (acronymLength (c :: rest)) := by
  have pos := acronymLength_pos capital alone
  unfold acronymLength at pos ⊢
  simp only at pos ⊢
  obtain ⟨n, length⟩ : ∃ n, ((c :: rest).takeWhile isCapital).length = n + 1 :=
    ⟨_, by rw [List.takeWhile_cons_of_pos capital, List.length_cons]⟩
  rw [length] at pos ⊢
  rw [downFrom_succ]
  split at pos
  · next followed =>
    rw [if_pos followed, List.filter_cons_of_neg (by simpa using followed)]
    obtain ⟨m, rfl⟩ : ∃ m, n = m + 1 := Nat.exists_eq_succ_of_ne_zero (by omega)
    -- in front of the last capital of the run stands no small letter
    have last : (((c :: rest).drop (m + 1)).head?.any isSmall) = false := by
      have inside : m + 1 < ((c :: rest).takeWhile isCapital).length := by omega
      have capital := List.mem_takeWhile_imp (List.getElem_mem inside)
      rw [(List.takeWhile_prefix isCapital).getElem inside] at capital
      rw [List.head?_drop, List.getElem?_eq_getElem
        (inside.trans_le (List.takeWhile_prefix isCapital).length_le), Option.any_some]
      exact isSmall_of_isCapital capital
    rw [downFrom_succ, List.filter_cons_of_pos (by simpa using last)]
    rfl
  · next free =>
    rw [if_neg free, List.filter_cons_of_pos (by simpa using free)]
    rfl

/-- The length of the word is the preferred one of all the rules allow. -/
theorem wordLength_eq_head_wordEnds (cs : List Char) :
    wordLength cs = (wordEnds cs).head?.getD 0 := by
  cases cs with
  | nil => rfl
  | cons c rest =>
    have nothing {p : Char → Bool} (no : ¬ p c = true) : (c :: rest).takeWhile p = [] :=
      List.takeWhile_cons_of_neg no
    rw [wordLength, wordEnds, List.head?_cons, Option.any_some, List.tail_cons]
    by_cases small : isSmall c = true
    · obtain ⟨n, length⟩ : ∃ n, ((c :: rest).takeWhile isSmall).length = n + 1 :=
        ⟨_, by rw [List.takeWhile_cons_of_pos small, List.length_cons]⟩
      rw [if_pos small, if_neg (by simp [isCapital_of_isSmall small]), length, downFrom_succ]
      rfl
    rw [if_neg small, nothing small]
    by_cases capital : isCapital c = true
    · have digit : ¬ isDigit c = true := fun digit => by
        rw [isCapital_of_isDigit digit] at capital
        exact Bool.noConfusion capital
      rw [if_pos capital, nothing digit, capital, Bool.true_and]
      by_cases followed : rest.head?.any isSmall = true
      · obtain ⟨n, length⟩ : ∃ n, (rest.takeWhile isSmall).length = n + 1 := by
          cases rest with
          | nil => exact absurd followed (by simp)
          | cons d more =>
            have small : isSmall d = true := followed
            exact ⟨_, by rw [List.takeWhile_cons_of_pos small, List.length_cons]⟩
        rw [if_pos followed, length, downFrom_succ]
        rfl
      · have alone : rest.takeWhile isSmall = [] := by
          cases rest with
          | nil => rfl
          | cons d more => exact List.takeWhile_cons_of_neg followed
        have ends := head?_filter_capitals capital (Bool.eq_false_iff.mpr followed)
        rw [if_neg followed, alone]
        show _ = (List.head? (([] ++ []) ++ _ ++ [])).getD 0
        rw [List.append_nil, List.append_nil, List.nil_append, ends, Option.getD_some]
    · rw [nothing capital, if_neg capital, if_neg capital,
        if_neg (by simp [capital]), List.length_nil]
      exact (getD_head?_downFrom _).symm

theorem wordLength_eq_zero_iff (c : Char) (rest : List Char) :
    wordLength (c :: rest) = 0 ↔ isWordChar c = false := by
  unfold wordLength isWordChar
  rw [isAlpha_eq]
  by_cases small : isSmall c = true
  · simp [small]
  by_cases capital : isCapital c = true
  · by_cases followed : rest.head?.any isSmall = true
    · simp [small, capital, followed]
    · have pos := acronymLength_pos capital (Bool.eq_false_iff.mpr followed)
      simp [small, capital, followed, pos.ne']
  · by_cases digit : isDigit c = true <;> simp [small, capital, digit]

/-- Where a word starts, the rules take letters only or digits only. -/
theorem isNameWord_take_wordLength {c : Char} {rest : List Char} (h : isWordChar c = true) :
    IsNameWord ((c :: rest).take (wordLength (c :: rest))) := by
  have pos : wordLength (c :: rest) ≠ 0 := fun none => by
    rw [wordLength_eq_zero_iff, h] at none
    exact Bool.noConfusion none
  refine ⟨by simpa using pos, ?_⟩
  rw [wordLength]
  split
  · left
    rw [take_length_takeWhile]
    intro d there
    rw [isAlpha_eq, List.mem_takeWhile_imp there, Bool.true_or]
  split
  · next capital =>
    left
    rw [List.take_succ_cons, take_length_takeWhile]
    rw [Bool.and_eq_true] at capital
    intro d there
    rcases List.mem_cons.mp there with rfl | later
    · rw [isAlpha_eq, capital.1, Bool.or_true]
    · rw [isAlpha_eq, List.mem_takeWhile_imp later, Bool.true_or]
  split
  · left
    intro d there
    have inside : d ∈ (c :: rest).takeWhile isCapital := by
      rw [← take_length_takeWhile]
      exact List.take_subset_take_left _ (acronymLength_le _) there
    rw [isAlpha_eq, List.mem_takeWhile_imp inside, Bool.or_true]
  · right
    rw [take_length_takeWhile]
    exact fun d there => List.mem_takeWhile_imp there

/-! ## All words of a text -/

/-- Every part that is cut off is a word. -/
theorem isNameWord_of_mem_splitWords (n : Nat) (cs : List Char) :
    ∀ w ∈ splitWords n cs, IsNameWord w := by
  fun_induction splitWords n cs with
  | case1 => simp
  | case2 c rest none ih => exact ih
  | case3 c rest n length ih =>
    intro w there
    rcases List.mem_cons.mp there with rfl | later
    · have starts : isWordChar c = true := by
        by_contra no
        rw [(wordLength_eq_zero_iff c rest).mpr (Bool.eq_false_iff.mpr no)] at length
        exact Nat.noConfusion length
      have word : IsNameWord ((c :: rest).take (wordLength (c :: rest))) :=
        isNameWord_take_wordLength starts
      rwa [length, List.take_succ_cons] at word
    · exact ih w later
  | case4 n c rest ih => exact ih

/-- No letter and no digit falls between two words, or in front of the first or behind the last
one. -/
theorem flatten_splitWords (n : Nat) (cs : List Char) :
    (splitWords n cs).flatten = (cs.drop n).filter isWordChar := by
  fun_induction splitWords n cs with
  | case1 => simp
  | case2 c rest none ih =>
    rw [ih, List.drop_zero, List.drop_zero,
      List.filter_cons_of_neg (by rw [(wordLength_eq_zero_iff c rest).mp none]; simp)]
  | case3 c rest n length ih =>
    have word : ∀ d ∈ c :: rest.take n, isWordChar d = true :=
      (isNameWord_of_mem_splitWords 0 (c :: rest) _ (by simp [splitWords, length])).isWordChar
    have parts : c :: rest = (c :: rest.take n) ++ rest.drop n := by
      rw [List.cons_append, List.take_append_drop]
    rw [List.flatten_cons, ih, List.drop_zero]
    conv_rhs => rw [parts, List.filter_append, List.filter_eq_self.mpr word]
  | case4 n c rest ih => rw [ih, List.drop_succ_cons]

/-! ## The words of a label -/

/-- A word of a label: a letter with small letters behind it, or digits only. -/
inductive IsLabelWord : List Char → Prop
  | letters {c : Char} {rest : List Char} (first : c.isAlpha = true)
      (others : ∀ d ∈ rest, isSmall d = true) : IsLabelWord (c :: rest)
  | digits {c : Char} {rest : List Char} (all : ∀ d ∈ c :: rest, isDigit d = true) :
      IsLabelWord (c :: rest)

/-- The text starts with a space, if with anything. -/
def StartsWithSpace (cs : List Char) : Prop := ∀ c ∈ cs.head?, c = ' '

theorem takeWhile_append_of_startsWithSpace {p : Char → Bool} (space : p ' ' = false)
    {w rest : List Char} (all : ∀ c ∈ w, p c = true) (ends : StartsWithSpace rest) :
    (w ++ rest).takeWhile p = w := by
  rw [List.takeWhile_append_of_pos all]
  cases rest with
  | nil => simp
  | cons c rest =>
    obtain rfl := ends c rfl
    rw [List.takeWhile_cons_of_neg (by simp [space]), List.append_nil]

/-- A word of a label reaches up to the space behind it. -/
theorem IsLabelWord.wordLength_append {w rest : List Char} (word : IsLabelWord w)
    (ends : StartsWithSpace rest) : wordLength (w ++ rest) = w.length := by
  cases word with
  | @letters c small first others =>
    rw [List.cons_append, wordLength, ← List.cons_append]
    by_cases isS : isSmall c = true
    · rw [if_pos isS, takeWhile_append_of_startsWithSpace (by decide)
        (by simpa [isS] using others) ends]
    have isC : isCapital c = true := by
      rw [isAlpha_eq, Bool.eq_false_iff.mpr isS, Bool.false_or] at first
      exact first
    rw [if_neg isS]
    cases small with
    | nil =>
      -- one capital alone is a run of capitals
      have nothing : rest.head?.any isSmall = false := by
        cases rest with
        | nil => rfl
        | cons d rest =>
          obtain rfl := ends d rfl
          show isSmall ' ' = false
          decide
      have run : (c :: rest).takeWhile isCapital = [c] :=
        takeWhile_append_of_startsWithSpace (w := [c]) (by decide) (by simpa using isC) ends
      simp [nothing, isC, acronymLength, run]
    | cons d more =>
      rw [takeWhile_append_of_startsWithSpace (by decide) others ends]
      simp [isC, others d List.mem_cons_self]
  | @digits c more all =>
    have digit := all c List.mem_cons_self
    rw [List.cons_append, wordLength, ← List.cons_append,
      takeWhile_append_of_startsWithSpace (by decide) all ends]
    simp [isSmall_of_isDigit digit, isCapital_of_isDigit digit]

/-- Inside a word the cut goes on behind it. -/
theorem splitWords_append (w rest : List Char) :
    splitWords w.length (w ++ rest) = splitWords 0 rest := by
  induction w with
  | nil => rfl
  | cons c w ih => rw [List.length_cons, List.cons_append, splitWords, ih]

/-- A word of a label is cut off in front of a space. -/
theorem IsLabelWord.splitWords_append {w rest : List Char} (word : IsLabelWord w)
    (ends : StartsWithSpace rest) : splitWords 0 (w ++ rest) = w :: splitWords 0 rest := by
  have length := word.wordLength_append ends
  cases word <;>
  · rw [List.cons_append, List.length_cons] at length
    rw [List.cons_append, splitWords, length]
    simp only [List.take_left', Text.splitWords_append]

/-- Cutting undoes joining by spaces. -/
theorem splitWords_intercalate {ws : List (List Char)} (words : ∀ w ∈ ws, IsLabelWord w) :
    splitWords 0 ([' '].intercalate ws) = ws := by
  induction ws with
  | nil => rfl
  | cons w rest ih =>
    have first := words w List.mem_cons_self
    have others := ih fun v there => words v (List.mem_cons_of_mem w there)
    cases rest with
    | nil =>
      have alone : StartsWithSpace [] := by simp [StartsWithSpace]
      simpa [splitWords] using first.splitWords_append alone
    | cons v rest =>
      rw [List.intercalate_cons_cons, List.append_assoc, List.singleton_append,
        first.splitWords_append (by simp [StartsWithSpace])]
      have dropped : splitWords 0 (' ' :: [' '].intercalate (v :: rest))
          = splitWords 0 ([' '].intercalate (v :: rest)) := by
        rw [splitWords, (wordLength_eq_zero_iff ' ' _).mpr (by decide)]
      rw [dropped, others]

/-! ## Letter case -/

/-- A word with its first character in capitals and all others in small letters. -/
def capitalized : List Char → List Char
  | [] => []
  | c :: rest => c.toUpper :: rest.map Char.toLower

theorem toList_capitalize (s : String) : (capitalize s).toList = capitalized s.toList := by
  unfold capitalize capitalized
  split <;> simp_all

/-- The words of a label, for the words of a name: the first one is capitalized and all others are
in small letters. -/
def sentence : List (List Char) → List (List Char)
  | [] => []
  | w :: ws => capitalized w :: ws.map (List.map Char.toLower)

theorem capitalized_append {w : List Char} (given : w ≠ []) (rest : List Char) :
    capitalized (w ++ rest) = capitalized w ++ rest.map Char.toLower := by
  cases w with
  | nil => exact absurd rfl given
  | cons c w => simp [capitalized]

theorem map_toLower_intercalate (ws : List (List Char)) :
    ([' '].intercalate ws).map Char.toLower
      = [' '].intercalate (ws.map (List.map Char.toLower)) := by
  induction ws with
  | nil => rfl
  | cons w rest ih =>
    cases rest with
    | nil => simp
    | cons v rest =>
      rw [List.intercalate_cons_cons, List.map_append, List.map_append, ih]
      simp only [List.map_cons, List.intercalate_cons_cons]
      rfl

/-- A sentence is capitalized word by word. -/
theorem capitalized_intercalate {ws : List (List Char)} (given : ∀ w ∈ ws, w ≠ []) :
    capitalized ([' '].intercalate ws) = [' '].intercalate (sentence ws) := by
  cases ws with
  | nil => rfl
  | cons w rest =>
    have first := given w List.mem_cons_self
    cases rest with
    | nil => simp [sentence]
    | cons v rest =>
      rw [List.intercalate_cons_cons, List.append_assoc, capitalized_append first,
        List.map_append, map_toLower_intercalate]
      simp only [sentence, List.map_cons, List.intercalate_cons_cons, List.append_assoc]
      rfl

theorem IsNameWord.map_toLower {w : List Char} (word : IsNameWord w) :
    (∀ c ∈ w.map Char.toLower, isSmall c = true) ∨
      w.map Char.toLower = w ∧ ∀ c ∈ w, isDigit c = true := by
  rcases word.uniform with letters | digits
  · refine .inl fun d there => ?_
    obtain ⟨c, inside, rfl⟩ := List.mem_map.mp there
    rw [isSmall_eq_isLower, Char.isLower_toLower_eq_isAlpha]
    exact letters c inside
  · refine .inr ⟨?_, digits⟩
    exact (List.map_congr_left fun c there => toLower_of_isDigit (digits c there)).trans
      (List.map_id w)

/-- A word in small letters is a word of a label. -/
theorem IsNameWord.isLabelWord_lower {w : List Char} (word : IsNameWord w) :
    IsLabelWord (w.map Char.toLower) := by
  obtain ⟨c, rest, rfl⟩ := List.exists_cons_of_ne_nil word.given
  rcases word.map_toLower with small | ⟨same, digits⟩
  · refine .letters ?_ fun d there => small d (List.mem_cons_of_mem _ there)
    rw [isAlpha_eq, small _ List.mem_cons_self, Bool.true_or]
  · rw [same]
    exact .digits digits

/-- So is a capitalized word. -/
theorem IsNameWord.isLabelWord_capitalized {w : List Char} (word : IsNameWord w) :
    IsLabelWord (capitalized w) := by
  obtain ⟨c, rest, rfl⟩ := List.exists_cons_of_ne_nil word.given
  rcases word.map_toLower with small | ⟨same, digits⟩
  · refine .letters ?_ fun d there => small d (List.mem_cons_of_mem _ there)
    have first := small _ List.mem_cons_self
    rw [isSmall_eq_isLower, Char.isLower_toLower_eq_isAlpha] at first
    rwa [Char.isAlpha_toUpper_eq_isAlpha]
  · rw [capitalized, toUpper_of_isDigit (digits c List.mem_cons_self), (List.cons.inj same).2]
    exact .digits digits

theorem isLabelWord_of_mem_sentence {ws : List (List Char)} (words : ∀ w ∈ ws, IsNameWord w) :
    ∀ w ∈ sentence ws, IsLabelWord w := by
  cases ws with
  | nil => simp [sentence]
  | cons w rest =>
    intro v there
    rcases List.mem_cons.mp there with rfl | later
    · exact (words w List.mem_cons_self).isLabelWord_capitalized
    · obtain ⟨u, inside, rfl⟩ := List.mem_map.mp later
      exact (words u (List.mem_cons_of_mem w inside)).isLabelWord_lower

theorem capitalized_capitalized (w : List Char) : capitalized (capitalized w) = capitalized w := by
  cases w <;> simp [capitalized]

theorem sentence_sentence (ws : List (List Char)) : sentence (sentence ws) = sentence ws := by
  cases ws <;> simp [sentence, capitalized_capitalized]

theorem sentence_ne_nil {ws : List (List Char)} (given : ws ≠ []) : sentence ws ≠ [] := by
  cases ws with
  | nil => exact absurd rfl given
  | cons w ws => exact List.cons_ne_nil _ _

/-- Without regard to letter case a sentence has the characters of its words. -/
theorem map_toLower_flatten_sentence (ws : List (List Char)) :
    (sentence ws).flatten.map Char.toLower = ws.flatten.map Char.toLower := by
  have lowered (w : List Char) : (capitalized w).map Char.toLower = w.map Char.toLower := by
    cases w <;> simp [capitalized]
  cases ws with
  | nil => rfl
  | cons w ws => simp [sentence, lowered, List.map_flatten, Function.comp_def]

/-! ## Labels -/

/-- The label of a name that has a word. -/
theorem toList_labelOf {name : String} (given : splitWords 0 name.toList ≠ []) :
    (labelOf name).toList = [' '].intercalate (sentence (splitWords 0 name.toList)) := by
  have words : ∀ w ∈ splitWords 0 name.toList, w ≠ [] := fun w there =>
    (isNameWord_of_mem_splitWords 0 _ w there).given
  rw [← capitalized_intercalate words]
  unfold labelOf Text.words
  split
  · next none => exact absurd (List.map_eq_nil_iff.mp none) given
  · rw [toList_capitalize, String.toList_intercalate, List.map_map]
    simp

/-- A name without a word is its own label. -/
theorem labelOf_of_no_words {name : String} (none : splitWords 0 name.toList = []) :
    labelOf name = name := by
  rw [labelOf, words, none, List.map_nil]

/-- The words of a label are those of the name, as a sentence. -/
theorem splitWords_labelOf (name : String) :
    splitWords 0 (labelOf name).toList = sentence (splitWords 0 name.toList) := by
  by_cases none : splitWords 0 name.toList = []
  · rw [labelOf_of_no_words none, none]
    rfl
  · rw [toList_labelOf none]
    exact splitWords_intercalate
      (isLabelWord_of_mem_sentence (isNameWord_of_mem_splitWords 0 name.toList))

/-- The label of a label is the label itself. -/
theorem labelOf_labelOf (name : String) : labelOf (labelOf name) = labelOf name := by
  by_cases none : splitWords 0 name.toList = []
  · rw [labelOf_of_no_words none, labelOf_of_no_words none]
  · have again : splitWords 0 (labelOf name).toList ≠ [] := by
      rw [splitWords_labelOf]
      exact sentence_ne_nil none
    rw [← String.toList_inj, toList_labelOf again, splitWords_labelOf, sentence_sentence,
      toList_labelOf none]

/-- The characters of some kind in a text, in their order and without regard to letter case. -/
def caseless (kind : Char → Bool) (s : String) : List Char :=
  (s.toList.filter kind).map Char.toLower

theorem filter_intercalate {kind : Char → Bool} (space : kind ' ' = false)
    (ws : List (List Char)) : ([' '].intercalate ws).filter kind = ws.flatten.filter kind := by
  induction ws with
  | nil => rfl
  | cons w rest ih =>
    cases rest with
    | nil => simp
    | cons v rest =>
      rw [List.intercalate_cons_cons, List.filter_append, List.filter_append, ih]
      simp [space]

/-- A label has the letters and digits of the name, whichever kind of them is looked at. -/
theorem caseless_labelOf {kind : Char → Bool} (inside : ∀ c, kind c = true → isWordChar c = true)
    (blind : ∀ c : Char, kind c.toLower = kind c) (name : String) :
    caseless kind (labelOf name) = caseless kind name := by
  by_cases none : splitWords 0 name.toList = []
  · rw [labelOf_of_no_words none]
  have space : kind ' ' = false := by
    by_contra yes
    exact absurd (inside ' ' (by simpa using yes)) (by decide)
  -- letter case does not decide what is kept, so it may change before
  have swap (cs : List Char) : (cs.filter kind).map Char.toLower
      = (cs.map Char.toLower).filter kind := by
    rw [List.filter_map]
    congr 2
    exact funext fun c => (blind c).symm
  have kept : name.toList.filter kind = (splitWords 0 name.toList).flatten.filter kind := by
    rw [flatten_splitWords, List.drop_zero, List.filter_filter]
    congr 1
    funext c
    cases held : kind c
    · rfl
    · simp [inside c held]
  calc caseless kind (labelOf name)
      = ((sentence (splitWords 0 name.toList)).flatten.filter kind).map Char.toLower := by
        rw [caseless, toList_labelOf none, filter_intercalate space]
    _ = ((splitWords 0 name.toList).flatten.filter kind).map Char.toLower := by
        rw [swap, map_toLower_flatten_sentence, swap]
    _ = caseless kind name := by rw [← kept, caseless]

/-- An ASCII digit is a digit. -/
theorem isDigit_of_ascii {c : Char} (h : c.isDigit = true) : isDigit c = true := by
  simp only [Char.isDigit, ge_iff_le, UInt32.le_iff_toNat_le, Char.toNat_val, Bool.and_eq_true,
    decide_eq_true_eq] at h
  rw [isDigit, digitValue?, Option.isSome_map, List.find?_isSome]
  refine ⟨48, by decide, ?_⟩
  simp only [Bool.and_eq_true, decide_eq_true_eq]
  exact ⟨h.1, Nat.lt_succ_of_le h.2⟩

/-- Whether a character is a digit of some kind does not depend on its letter case. -/
theorem digit_toLower {kind : Char → Bool} (digits : ∀ c, kind c = true → isDigit c = true)
    (c : Char) : kind c.toLower = kind c := by
  by_cases upper : c.isUpper = true
  · have letter : c.isAlpha = true := by rw [Char.isAlpha, upper, Bool.true_or]
    have no {d : Char} (h : d.isAlpha = true) : kind d = false := by
      by_contra yes
      have digit := isAlpha_of_isDigit (digits d (by simpa using yes))
      exact Bool.noConfusion (h.symm.trans digit)
    rw [no letter, no (by rwa [Char.isAlpha_toLower_eq_isAlpha])]
  · rw [Char.toLower_eq_of_not_isUpper upper]

/-- Labels are stable, and they lose no text: the label of a label is the label itself, and a label
has exactly the ASCII letters and digits of the name, in their order and without regard to letter
case. The same holds when the digits of other scripts are looked at with them. -/
theorem labelOf_stable (name : String) :
    labelOf (labelOf name) = labelOf name ∧
    caseless Char.isAlphanum (labelOf name) = caseless Char.isAlphanum name ∧
    caseless isWordChar (labelOf name) = caseless isWordChar name := by
  refine ⟨labelOf_labelOf name, caseless_labelOf (fun c h => ?_) (fun c => ?_) name,
    caseless_labelOf (fun c h => h) (fun c => ?_) name⟩
  · rw [Char.isAlphanum, Bool.or_eq_true] at h
    rw [isWordChar, Bool.or_eq_true]
    exact h.imp_right isDigit_of_ascii
  · rw [Char.isAlphanum, Char.isAlphanum, Char.isAlpha_toLower_eq_isAlpha,
      digit_toLower fun c => isDigit_of_ascii]
  · rw [isWordChar, isWordChar, Char.isAlpha_toLower_eq_isAlpha, digit_toLower fun c h => h]

end DataShape.Text
