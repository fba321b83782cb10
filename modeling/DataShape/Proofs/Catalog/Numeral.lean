import DataShape.Marshal

/-! # Texts of numbers and moments

The texts that conversions write have no blanks around them and end in no letter for universal time,
so a reader takes them as they stand. The text of an integer is its digits, which are read back; the
text of any other number has a point, an exponent or a letter, which no integer has.

* `integer?_toString` — an integer is read back from its text if it is not too long.
* `isWritten`, `AllWritten` — the characters of numbers and moments.
* `Binary64.written_toText`, `Time.allWritten` — what the texts are made of.
* `numberOfText_toString`, `numberOfText_toText` — numbers are told apart by their texts. -/

namespace DataShape

open DataShape.Text DataShape.Number

/-! ## Texts that conversions write -/

/-- The characters of numerals and moments, but for digits. -/
def writtenMarks : List Char := ['+', '-', '.', ':', 'T', 'e', 'f', 'i', 'n']

/-- The characters of the texts of numbers and moments. -/
def isWritten (c : Char) : Bool := c.isDigit || writtenMarks.contains c

theorem toNat_of_isDigit {c : Char} (h : c.isDigit = true) : 48 ≤ c.toNat ∧ c.toNat ≤ 57 := by
  simp only [Char.isDigit, Bool.and_eq_true, decide_eq_true_eq, ge_iff_le, UInt32.le_iff_toNat_le] at h
  exact h

theorem not_isBlank_of_isDigit {c : Char} (h : c.isDigit = true) : isBlank c = false := by
  obtain ⟨low, high⟩ := toNat_of_isDigit h
  simp only [isBlank, blankRanges, List.any_cons, List.any_nil, Bool.or_false, Bool.or_eq_false_iff,
    Bool.and_eq_false_iff, decide_eq_false_iff_not]
  omega

theorem digitValue?_of_isDigit {c : Char} (h : c.isDigit = true) :
    digitValue? c = some (c.toNat - 48) := by
  obtain ⟨low, high⟩ := toNat_of_isDigit h
  unfold digitValue? digitZeros
  rw [List.find?_cons_of_pos (by simp; omega)]
  rfl

/-- What holds of digits and of the other characters holds of all that are written. -/
theorem of_isWritten {p : Char → Bool} (digit : ∀ c : Char, c.isDigit = true → p c = true)
    (others : writtenMarks.all p = true) {c : Char} (h : isWritten c = true) : p c = true := by
  rw [isWritten, Bool.or_eq_true, List.contains_iff_mem] at h
  exact h.elim (digit c) (List.all_eq_true.mp others c)

theorem not_isBlank_of_isWritten {c : Char} (h : isWritten c = true) : isBlank c = false := by
  have plain : (!isBlank c) = true :=
    of_isWritten (p := fun c => !isBlank c) (fun c h => by simp [not_isBlank_of_isDigit h])
      (by decide) h
  simpa using plain

theorem not_zulu_of_isWritten {c : Char} (h : isWritten c = true) : c ≠ 'Z' ∧ c ≠ 'z' := by
  have plain : (c != 'Z' && c != 'z') = true := by
    refine of_isWritten (p := fun c => c != 'Z' && c != 'z') (fun c h => ?_) (by decide) h
    obtain ⟨-, high⟩ := toNat_of_isDigit h
    have other : ∀ z : Char, 57 < z.toNat → (c != z) = true := by
      intro z above
      rw [bne_iff_ne]
      rintro rfl
      omega
    rw [other 'Z' (by decide), other 'z' (by decide)]
    rfl
  simpa using plain

/-- A text without blanks is its own trimmed form. -/
theorem trim_eq_self {s : String} (h : ∀ c ∈ s.toList, isBlank c = false) : trim s = s := by
  have same : ∀ cs : List Char, (∀ c ∈ cs, isBlank c = false) → cs.dropWhile isBlank = cs := by
    intro cs all
    cases cs with
    | nil => rfl
    | cons c rest => exact List.dropWhile_cons_of_neg (by simp [all c List.mem_cons_self])
  unfold trim trimChars trimStart trimEnd
  rw [same _ h, same _ fun c there => h c (List.mem_reverse.mp there), List.reverse_reverse,
    String.ofList_toList]

/-- A text without a letter for universal time is left alone. -/
theorem expandZulu_eq_self {s : String} (h : ∀ c ∈ s.toList, c ≠ 'Z' ∧ c ≠ 'z') :
    expandZulu s = s := by
  unfold expandZulu
  cases last : s.toList.reverse with
  | nil => rfl
  | cons c rest =>
    have there : c ∈ s.toList := List.mem_reverse.mp (last ▸ List.mem_cons_self)
    simp [h c there]

/-! ## Integer numerals -/

theorem digitsAfter_cons (after : Bool) (c : Char) (rest : List Char) :
    digitsAfter after (c :: rest)
      = if c == '_' then (if after then digitsAfter false rest else none)
        else match digitValue? c with
          | some d => (digitsAfter true rest).map (d :: ·)
          | none => none := by
  cases after <;> rfl

theorem digitsAfter_of_isDigit : ∀ {cs : List Char} (after : Bool),
    (∀ c ∈ cs, c.isDigit = true) → (after = true ∨ cs ≠ []) →
    digitsAfter after cs = some (cs.map fun c => c.toNat - 48)
  | [], true, _, _ => rfl
  | [], false, _, given => by simp at given
  | c :: rest, after, all, _ => by
    have digit := all c List.mem_cons_self
    have mark : (c == '_') = false := by
      obtain ⟨-, high⟩ := toNat_of_isDigit digit
      rw [beq_eq_false_iff_ne]
      rintro rfl
      exact absurd high (by decide)
    have further : digitsAfter true rest = _ := digitsAfter_of_isDigit true
      (fun c there => all c (List.mem_cons_of_mem _ there)) (.inl rfl)
    rw [digitsAfter_cons]
    simp [mark, digitValue?_of_isDigit digit, further]

/-- The text of a natural is read as its digits. -/
theorem digits?_toDigits (n : Nat) :
    digits? (Nat.toDigits 10 n) = some ((Nat.toDigits 10 n).map fun c => c.toNat - 48) :=
  digitsAfter_of_isDigit false
    (fun _ there => Nat.isDigit_of_mem_toDigits (by decide) (by decide) there)
    (.inr Nat.toDigits_ne_nil)

theorem ofDigits_toDigits (n : Nat) :
    ofDigits ((Nat.toDigits 10 n).map fun c => c.toNat - 48) = n := by
  rw [ofDigits, ofDigitsIn, List.foldl_map]
  exact Nat.ofDigitChars_toDigits (by decide) (by decide)

theorem splitSign_of_isDigit {cs : List Char} (h : ∀ c ∈ cs, c.isDigit = true) :
    splitSign cs = (false, cs) := by
  unfold splitSign
  split
  · exact absurd (h '-' List.mem_cons_self) (by decide)
  · exact absurd (h '+' List.mem_cons_self) (by decide)
  · rfl

theorem isDigit_toDigits (n : Nat) : ∀ c ∈ Nat.toDigits 10 n, c.isDigit = true :=
  fun _ there => Nat.isDigit_of_mem_toDigits (by decide) (by decide) there

/-- The digits of an integer, with a sign before those of a negative one. -/
theorem toList_toString_int (n : Int) : (toString n).toList
    = if n < 0 then '-' :: Nat.toDigits 10 n.natAbs else Nat.toDigits 10 n.natAbs := by
  rw [Int.toString_eq_repr, Int.repr_eq_if]
  by_cases negative : n < 0
  · have size : (-n).toNat = n.natAbs := by omega
    rw [if_neg (by omega), if_pos negative, size, Nat.repr_eq_ofList_toDigits]
    simp
  · have size : n.toNat = n.natAbs := by omega
    rw [if_pos (by omega), if_neg negative, size, Nat.repr_eq_ofList_toDigits, String.toList_ofList]

theorem length_toDigits_le {n k : Nat} (given : 0 < k) (h : n < Nat.pow 10 k) :
    (Nat.toDigits 10 n).length ≤ k := (Nat.length_toDigits_le_iff (by decide) given).mpr h

/-- An integer that is short enough is read back from its text. -/
theorem integer?_toString {n : Int} (short : n.natAbs < integerBound) :
    integer? (toString n).toList = some n := by
  have few : ((Nat.toDigits 10 n.natAbs).map fun c => c.toNat - 48).length ≤ maxIntegerDigits := by
    rw [List.length_map]
    unfold integerBound at short
    exact length_toDigits_le (by decide) short
  -- The sign is read apart from the digits, which are the same for both signs.
  have read : ∀ negative : Bool, (digits? (Nat.toDigits 10 n.natAbs)).bind (fun ds =>
      if ds.length ≤ maxIntegerDigits then some (withSign negative (ofDigits ds)) else none)
      = some (withSign negative n.natAbs) := by
    intro negative
    rw [digits?_toDigits, Option.bind_some, if_pos few, ofDigits_toDigits]
  unfold integer?
  rw [toList_toString_int]
  by_cases negative : n < 0
  · rw [if_pos negative]
    refine (read true).trans ?_
    rw [withSign, if_pos rfl]
    congr 1
    omega
  · rw [if_neg negative, splitSign_of_isDigit (isDigit_toDigits _)]
    refine (read false).trans ?_
    rw [withSign, if_neg Bool.false_ne_true]
    congr 1
    omega

/-- No run of digits has another character than digits and underscores. -/
theorem digitsAfter_eq_none {c : Char} (mark : c ≠ '_') (digit : digitValue? c = none)
    {cs : List Char} : ∀ after : Bool, c ∈ cs → digitsAfter after cs = none := by
  induction cs with
  | nil => exact fun _ there => absurd there List.not_mem_nil
  | cons a rest ih =>
    intro after there
    rw [digitsAfter_cons]
    rcases List.mem_cons.mp there with rfl | there
    · rw [if_neg (by simpa using mark), digit]
    · split
      · split
        · exact ih false there
        · rfl
      · split
        · rw [ih true there]
          rfl
        · rfl

/-- No integer numeral has such a character behind its sign. -/
theorem integer?_eq_none {c : Char} (mark : c ≠ '_') (digit : digitValue? c = none)
    (sign : c ≠ '-' ∧ c ≠ '+') {cs : List Char} (there : c ∈ cs) : integer? cs = none := by
  have body : c ∈ (splitSign cs).2 := by
    unfold splitSign
    split
    · exact (List.mem_cons.mp there).resolve_left sign.1
    · exact (List.mem_cons.mp there).resolve_left sign.2
    · exact there
  have none : digits? (splitSign cs).2 = none := digitsAfter_eq_none mark digit false body
  unfold integer?
  dsimp only
  rw [none, Option.bind_none]

/-! ## Texts of numbers -/

/-- A text of characters that are written. -/
def AllWritten (cs : List Char) : Prop := ∀ c ∈ cs, isWritten c = true

instance (cs : List Char) : Decidable (AllWritten cs) :=
  inferInstanceAs (Decidable (∀ c ∈ cs, isWritten c = true))

namespace AllWritten

theorem nil : AllWritten [] := nofun

theorem cons {c : Char} {cs : List Char} (h : isWritten c = true) (rest : AllWritten cs) :
    AllWritten (c :: cs) := List.forall_mem_cons.mpr ⟨h, rest⟩

theorem append {front back : List Char} (h : AllWritten front) (h' : AllWritten back) :
    AllWritten (front ++ back) := List.forall_mem_append.mpr ⟨h, h'⟩

theorem replicate {c : Char} (h : isWritten c = true) (n : Nat) :
    AllWritten (List.replicate n c) := fun _ there => List.eq_of_mem_replicate there ▸ h

theorem of_subset {cs ds : List Char} (h : AllWritten ds) (part : ∀ c ∈ cs, c ∈ ds) :
    AllWritten cs := fun c there => h c (part c there)

theorem digits {cs : List Char} (h : ∀ c ∈ cs, c.isDigit = true) : AllWritten cs :=
  fun c there => by rw [isWritten, h c there, Bool.true_or]

end AllWritten

theorem allWritten_nat (n : Nat) : AllWritten (toString n).toList := by
  rw [Nat.toString_eq_ofList_toDigits, String.toList_ofList]
  exact .digits (isDigit_toDigits n)

theorem allWritten_int (n : Int) : AllWritten (toString n).toList := by
  rw [toList_toString_int]
  split
  · exact .cons (by decide) (.digits (isDigit_toDigits _))
  · exact .digits (isDigit_toDigits _)

namespace Binary64

/-- The positional form has a point. -/
theorem written_positional {digits : List Char} (h : AllWritten digits) (leading : Int) :
    AllWritten (positional digits leading) ∧ '.' ∈ positional digits leading := by
  unfold positional
  split
  · refine ⟨?_, by simp⟩
    exact ((AllWritten.nil.cons (by decide)).cons (by decide)).append
      (.replicate (by decide) _) |>.append h
  · have padded : ∀ n, AllWritten (digits ++ List.replicate n '0') :=
      fun n => h.append (.replicate (by decide) n)
    refine ⟨?_, by simp⟩
    refine ((padded _).of_subset fun _ => List.mem_of_mem_take).append (.cons (by decide) ?_)
    split
    · exact .cons (by decide) .nil
    · exact (padded _).of_subset fun _ => List.mem_of_mem_drop

/-- The scientific form has an exponent. -/
theorem written_scientific {digits : List Char} (h : AllWritten digits) (exponent : Int) :
    AllWritten (scientific layout digits exponent) ∧ 'e' ∈ scientific layout digits exponent := by
  unfold scientific
  refine ⟨?_, by simp⟩
  refine ((((h.of_subset fun _ => List.mem_of_mem_take).append ?_).append
    (.cons (by decide) (.cons ?_ .nil))).append (.replicate (by decide) _)).append (allWritten_nat _)
  · cases rest : digits.tail with
    | nil => exact .nil
    | cons c further =>
      have tail : AllWritten digits.tail := h.of_subset fun _ => List.mem_of_mem_tail
      exact .cons (by decide) (rest ▸ tail)
  · split <;> decide

/-- A sign is written. -/
theorem allWritten_sign (negative : Bool) : AllWritten (if negative then ['-'] else []) := by
  split
  · exact .cons (by decide) .nil
  · exact .nil

/-- The text of a finite number has a point or an exponent. -/
theorem written_finite (negative : Bool) (m q : Nat) :
    AllWritten (finite negative m q).toText.toList ∧
      ('.' ∈ (finite negative m q).toText.toList ∨ 'e' ∈ (finite negative m q).toText.toList) := by
  have body : AllWritten (if m = 0 then ['0', '.', '0'] else (shortest m q).text layout) ∧
      ('.' ∈ (if m = 0 then ['0', '.', '0'] else (shortest m q).text layout) ∨
        'e' ∈ (if m = 0 then ['0', '.', '0'] else (shortest m q).text layout)) := by
    split
    · exact ⟨.cons (by decide) (.cons (by decide) (.cons (by decide) .nil)), by simp⟩
    -- Positional texts have a point, scientific ones an exponent; which one it is depends on the layout.
    · have digits : AllWritten (dropTrailingZeros (toString (shortest m q).digits).toList) :=
        (allWritten_nat _).of_subset fun c there => by
          unfold dropTrailingZeros at there
          exact List.mem_reverse.mp ((List.dropWhile_sublist _).subset (List.mem_reverse.mp there))
      unfold Decimal.text
      dsimp only
      split
      · exact ⟨(written_positional digits _).1, .inl (written_positional digits _).2⟩
      · exact ⟨(written_scientific digits _).1, .inr (written_scientific digits _).2⟩
  unfold toText format
  dsimp only
  rw [String.toList_ofList]
  exact ⟨(allWritten_sign negative).append body.1,
    body.2.imp (List.mem_append_right _) (List.mem_append_right _)⟩

/-- The text of a number that is one has a character that no integer has. -/
theorem written_toText {x : Binary64} (h : x.isNaN = false) :
    AllWritten x.toText.toList ∧ ('.' ∈ x.toText.toList ∨ 'e' ∈ x.toText.toList ∨
      'i' ∈ x.toText.toList) := by
  cases x with
  | nan mark => cases h
  | infinite negative =>
    have text : (infinite negative).toText.toList
        = (if negative then ['-'] else []) ++ ['i', 'n', 'f'] := by cases negative <;> rfl
    rw [text]
    exact ⟨(allWritten_sign negative).append
      (.cons (by decide) (.cons (by decide) (.cons (by decide) .nil))), by simp⟩
  | finite negative m q =>
    obtain ⟨written, marks⟩ := written_finite negative m q
    exact ⟨written, marks.imp_right .inl⟩

end Binary64

/-! ## Texts of moments -/

theorem allWritten_padded (width n : Nat) : AllWritten (Calendar.padded width n) :=
  (AllWritten.replicate (by decide) _).append (allWritten_nat n)

theorem allWritten_fractionText (micros : Nat) : AllWritten (Calendar.fractionText micros) := by
  unfold Calendar.fractionText
  split
  · exact .nil
  · exact .cons (by decide) (allWritten_padded _ _)

theorem allWritten_offsetText (offset : Int) : AllWritten (Calendar.offsetText offset) := by
  have tail : ∀ n m, AllWritten (':' :: Calendar.padded 2 n ++ Calendar.fractionText m) :=
    fun n m => (AllWritten.cons (by decide) (allWritten_padded 2 n)).append
      (allWritten_fractionText m)
  unfold Calendar.offsetText
  refine ((AllWritten.cons ?_ (allWritten_padded _ _)).append
    (.cons (by decide) (allWritten_padded _ _))).append ?_
  · split <;> decide
  · split
    · exact .nil
    · exact tail _ _

theorem Date.allWritten (x : Date) : AllWritten x.isoChars :=
  ((allWritten_padded 4 x.year).append (.cons (by decide) (allWritten_padded 2 x.month))).append
    (.cons (by decide) (allWritten_padded 2 x.day))

theorem Time.allWritten (x : Time) : AllWritten x.isoChars := by
  have clock : AllWritten (Calendar.padded 2 x.hour ++ ':' :: Calendar.padded 2 x.minute
      ++ ':' :: Calendar.padded 2 x.second) := ((allWritten_padded 2 x.hour).append (.cons (by decide)
    (allWritten_padded 2 x.minute))).append (.cons (by decide) (allWritten_padded 2 x.second))
  have offset : AllWritten ((x.offset.map Calendar.offsetText).getD []) := by
    cases x.offset with
    | none => exact .nil
    | some o => exact allWritten_offsetText o
  exact (clock.append (allWritten_fractionText _)).append offset

/-! ## Reading back what was written -/

theorem isEmpty_eq_false {s : String} {c : Char} (h : c ∈ s.toList) : s.isEmpty = false := by
  cases empty : s.isEmpty with
  | false => rfl
  | true =>
    rw [String.isEmpty_iff.mp empty] at h
    cases h

/-- A text that is written is read as it stands. -/
theorem AllWritten.trim_eq {s : String} (h : AllWritten s.toList) : trim s = s :=
  trim_eq_self fun c there => not_isBlank_of_isWritten (h c there)

theorem numberOfText_toString {n : Int} (short : n.natAbs < integerBound) :
    numberOfText (toString n) = .ok (.int n) := by
  unfold numberOfText
  rw [integer?_toString short]

theorem numberOfText_toText {x y : Binary64} (h : x.isNaN = false)
    (back : real? x.toText.toList = some y) : numberOfText x.toText = .ok (.float y) := by
  have none : integer? x.toText.toList = none := by
    rcases (Binary64.written_toText h).2 with there | there | there <;>
      exact integer?_eq_none (by decide) (by decide) (by decide) there
  unfold numberOfText
  rw [none, back]

end DataShape
