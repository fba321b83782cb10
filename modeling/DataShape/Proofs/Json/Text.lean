import DataShape.Proofs.Catalog.Numeral
import DataShape.Value.Json
import Mathlib.Algebra.Group.Nat.Defs
import Mathlib.Data.List.TakeWhile

/-! # The texts of scalars

Every scalar of a JSON text can be told from the text: the characters of a text value are read back
from their escapes, a text value ends at its closing quote, and the words for the empty value, the
truth values and the numbers are all different.

* `readEscape` — the character that an escape stands for; `readEscape_escapeChar`.
* `string_append_inj` — a text value is told from what follows it.
* `IsWord` — a text without marks; `IsWord.append_inj` — a word ends at the next mark.
* `Scalar` — scalars with their words; `Scalar.same` — a word tells its scalar. -/

namespace DataShape.Json

open DataShape.Text

/-! ## Escapes -/

/-- The value of a hexadecimal digit. -/
def hexValue (c : Char) : Nat := if c.toNat < 87 then c.toNat - 48 else c.toNat - 87

theorem hexValue_hexDigit {n : Nat} (h : n < 16) : hexValue (hexDigit n) = n := by
  revert n
  decide

/-- The value of hexadecimal digits. -/
def hexNumber (digits : List Char) : Nat := digits.foldl (fun n c => 16 * n + hexValue c) 0

theorem hexNumber_hexDigits (width n : Nat) :
    hexNumber (hexDigits width n) = n % 16 ^ width := by
  induction width generalizing n with
  | zero => simp [hexDigits, hexNumber, Nat.mod_one]
  | succ width ih =>
    have front : (hexDigits width (n / 16)).foldl (fun n c => 16 * n + hexValue c) 0
        = n / 16 % 16 ^ width := ih (n / 16)
    rw [hexDigits, hexNumber, List.foldl_append, front, List.foldl_cons, List.foldl_nil,
      hexValue_hexDigit (Nat.mod_lt _ (by decide)), Nat.pow_succ, Nat.mul_comm (16 ^ width),
      Nat.mod_mul]
    omega

theorem hexNumber_of_lt {n : Nat} (h : n < 0x10000) : hexNumber (hexDigits 4 n) = n := by
  rw [hexNumber_hexDigits]
  exact Nat.mod_eq_of_lt h

/-- The character that stands behind a backslash for a control character. -/
def controlChar (c : Char) : Char :=
  if c == 'n' then '\n' else if c == 'r' then '\r' else if c == 't' then '\t'
  else if c == 'f' then '\x0c' else if c == 'b' then '\x08' else c

/-- The character that a UTF-16 unit stands for; the first unit of a pair needs a second one. -/
def readUnit (unit : Nat) (rest : List Char) : Char × List Char :=
  if 0xD800 ≤ unit ∧ unit < 0xDC00 then
    (Char.ofNat (0x10000 + (unit - 0xD800) * 0x400 + (hexNumber ((rest.drop 2).take 4) - 0xDC00)),
      rest.drop 6)
  else (Char.ofNat unit, rest)

/-- The first character that a text value stands for, and what is behind it. -/
def readEscape : List Char → Char × List Char
  | '\\' :: c :: rest =>
      if c == 'u' then readUnit (hexNumber (rest.take 4)) (rest.drop 4) else (controlChar c, rest)
  | c :: rest => (c, rest)
  | [] => ('"', [])

theorem length_escapeUnit (n : Nat) : (escapeUnit n).length = 6 := by
  rw [escapeUnit, List.length_append, length_hexDigits]
  rfl

/-- Behind its mark a unit has its digits. -/
theorem take_drop_escapeUnit (n : Nat) (rest : List Char) :
    ((escapeUnit n ++ rest).drop 2).take 4 = hexDigits 4 n := by
  rw [escapeUnit, List.append_assoc, List.drop_left' (show ['\\', 'u'].length = 2 from rfl),
    List.take_left' (length_hexDigits 4 n)]

theorem readEscape_escapeUnit {n : Nat} (h : n < 0x10000) (rest : List Char) :
    readEscape (escapeUnit n ++ rest) = readUnit n rest := by
  have front : (hexDigits 4 n ++ rest).take 4 = hexDigits 4 n :=
    List.take_left' (length_hexDigits 4 n)
  have back : (hexDigits 4 n ++ rest).drop 4 = rest := List.drop_left' (length_hexDigits 4 n)
  show readUnit (hexNumber ((hexDigits 4 n ++ rest).take 4)) ((hexDigits 4 n ++ rest).drop 4) = _
  rw [front, back, hexNumber_of_lt h]

/-- A character is read back from its escape. -/
theorem readEscape_escapeChar (c : Char) (rest : List Char) :
    readEscape (escapeChar c ++ rest) = (c, rest) := by
  have valid : c.toNat < 0xD800 ∨ 0xDFFF < c.toNat ∧ c.toNat < 0x110000 := c.valid
  by_cases quoted : (c == '"' || c == '\\') = true
  · rw [Bool.or_eq_true, beq_iff_eq, beq_iff_eq] at quoted
    rcases quoted with rfl | rfl <;> rfl
  by_cases control : c = '\n' ∨ c = '\r' ∨ c = '\t' ∨ c = '\x0c' ∨ c = '\x08'
  · rcases control with rfl | rfl | rfl | rfl | rfl <;> rfl
  simp only [not_or] at control
  obtain ⟨newline, carriage, tab, feed, back⟩ := control
  have plainly : escapeChar c = if 32 ≤ c.toNat && c.toNat < 127 then [c]
      else if c.toNat < 0x10000 then escapeUnit c.toNat
      else escapeUnit (0xD800 + (c.toNat - 0x10000) / 0x400)
        ++ escapeUnit (0xDC00 + (c.toNat - 0x10000) % 0x400) := by
    simp [escapeChar, quoted, newline, carriage, tab, feed, back]
  rw [plainly]
  split
  · -- A printable character stands for itself; it is no backslash.
    rw [Bool.or_eq_true, beq_iff_eq, beq_iff_eq, not_or] at quoted
    rw [List.singleton_append, readEscape]
    exact fun _ _ slash _ => quoted.2 slash
  split
  · next few =>
    rw [readEscape_escapeUnit few, readUnit, if_neg (by omega), Char.ofNat_toNat]
  · -- The rest of a character above the first plane is split over two units.
    generalize above : c.toNat - 0x10000 = n
    have whole : c.toNat = 0x10000 + n := by omega
    have high : 0xD800 + n / 0x400 < 0xDC00 := by omega
    have low : 0xDC00 + n % 0x400 < 0x10000 := by omega
    rw [List.append_assoc, readEscape_escapeUnit (high.trans (by decide)), readUnit,
      if_pos ⟨Nat.le_add_right _ _, high⟩, take_drop_escapeUnit, hexNumber_of_lt low,
      List.drop_left' (length_escapeUnit _), Nat.add_sub_cancel_left, Nat.add_sub_cancel_left,
      Nat.add_assoc, Nat.div_add_mod' n 0x400, ← whole, Char.ofNat_toNat]

/-- No escape is empty, and none starts with a quote: either would be read as another character. -/
theorem exists_escapeChar (c : Char) : ∃ x rest, escapeChar c = x :: rest ∧ x ≠ '"' := by
  cases escaped : escapeChar c with
  | nil =>
    have read := readEscape_escapeChar c ['"']
    rw [escaped] at read
    cases read
  | cons x rest =>
    refine ⟨x, rest, rfl, ?_⟩
    rintro rfl
    have read := readEscape_escapeChar c []
    rw [escaped] at read
    obtain rfl : '"' = c := (Prod.mk.inj read).1
    cases escaped

/-- A text value in the text, with its quotes. -/
theorem toList_string (s : String) :
    (string s).toList = '"' :: (s.toList.flatMap escapeChar ++ ['"']) := by
  rw [string, String.toList_ofList, List.cons_append]

/-- A text value ends at its closing quote, and its characters are told. -/
theorem escaped_append_inj : ∀ {cs ds : List Char} {r s : List Char},
    cs.flatMap escapeChar ++ '"' :: r = ds.flatMap escapeChar ++ '"' :: s → cs = ds ∧ r = s
  | [], [], r, s, h => ⟨rfl, (List.cons.inj h).2⟩
  | [], d :: ds, r, s, h => by
    obtain ⟨x, rest, escaped, other⟩ := exists_escapeChar d
    rw [List.flatMap_cons, escaped] at h
    exact absurd (List.cons.inj h).1.symm other
  | c :: cs, [], r, s, h => by
    obtain ⟨x, rest, escaped, other⟩ := exists_escapeChar c
    rw [List.flatMap_cons, escaped] at h
    exact absurd (List.cons.inj h).1 other
  | c :: cs, d :: ds, r, s, h => by
    rw [List.flatMap_cons, List.flatMap_cons, List.append_assoc, List.append_assoc] at h
    have read := congrArg readEscape h
    rw [readEscape_escapeChar, readEscape_escapeChar] at read
    obtain ⟨same, further⟩ := Prod.mk.inj read
    obtain ⟨rest, after⟩ := escaped_append_inj further
    exact ⟨by rw [same, rest], after⟩

/-- A text value is told from what follows it. -/
theorem string_append_inj {a b : String} {r s : List Char}
    (h : (string a).toList ++ r = (string b).toList ++ s) : a = b ∧ r = s := by
  rw [toList_string, toList_string, List.cons_append, List.cons_append, List.append_assoc,
    List.append_assoc] at h
  obtain ⟨same, after⟩ := escaped_append_inj (List.cons.inj h).2
  exact ⟨String.toList_inj.mp same, after⟩

/-! ## Words -/

/-- The characters that separate and enclose values. -/
def isMark (c : Char) : Bool := [',', ']', '\x7d', '"', '[', '\x7b'].contains c

/-- A text without marks that is not empty. -/
structure IsWord (cs : List Char) : Prop where
  given : cs ≠ []
  plain : ∀ c ∈ cs, isMark c = false

/-- A text that is empty or starts with a mark. -/
def Ended (r : List Char) : Prop := ∀ c ∈ r.head?, isMark c = true

theorem IsWord.takeWhile {cs r : List Char} (h : IsWord cs) (ended : Ended r) :
    (cs ++ r).takeWhile (fun c => !isMark c) = cs := by
  have none : r.takeWhile (fun c => !isMark c) = [] := by
    cases r with
    | nil => rfl
    | cons c rest => exact List.takeWhile_cons_of_neg (by simp [ended c rfl])
  rw [List.takeWhile_append_of_pos (fun c there => by simp [h.plain c there]), none,
    List.append_nil]

/-- A word ends at the next mark. -/
theorem IsWord.append_inj {cs ds r s : List Char} (h : IsWord cs) (h' : IsWord ds)
    (ended : Ended r) (ended' : Ended s) (same : cs ++ r = ds ++ s) : cs = ds ∧ r = s := by
  have words : cs = ds := by
    rw [← h.takeWhile ended, same, h'.takeWhile ended']
  subst words
  exact ⟨rfl, List.append_cancel_left same⟩

theorem isMark_of_isWritten {c : Char} (h : isWritten c = true) : isMark c = false := by
  have plain : (!isMark c) = true := by
    refine of_isWritten (p := fun c => !isMark c) (fun c digit => ?_) (by decide) h
    obtain ⟨low, high⟩ := toNat_of_isDigit digit
    have other : ∀ m : Char, 57 < m.toNat ∨ m.toNat < 48 → c ≠ m := by
      rintro m outside rfl
      omega
    simp [isMark, other]
  simpa using plain

theorem isWord_of_all {cs : List Char} (h : (!cs.isEmpty && cs.all fun c => !isMark c) = true) :
    IsWord cs := by
  rw [Bool.and_eq_true, Bool.not_eq_true', List.isEmpty_eq_false_iff, List.all_eq_true] at h
  exact ⟨h.1, fun c there => (Bool.not_eq_true' _).mp (h.2 c there)⟩

theorem isWord_of_allWritten {cs : List Char} (given : cs ≠ []) (h : AllWritten cs) : IsWord cs :=
  ⟨given, fun c there => isMark_of_isWritten (h c there)⟩

/-! ## Numbers -/

/-- An integer has digits and at most a sign. -/
theorem isDigit_of_mem_int {n : Int} {c : Char} (h : c ∈ (toString n).toList) :
    c.isDigit = true ∨ c = '-' := by
  rw [toList_toString_int] at h
  split at h
  · exact (List.mem_cons.mp h).elim .inr fun there => .inl (isDigit_toDigits _ c there)
  · exact .inl (isDigit_toDigits _ c h)

/-- The words for special doubles have such characters, too. -/
theorem marks_of_any {cs : List Char} (h : (cs.any (['.', 'e', 'N', 'I'].contains ·) &&
    cs.all fun c => !isMark c && c != 'u' && c != 's') = true) :
    (∃ c ∈ cs, c ∈ ['.', 'e', 'N', 'I']) ∧ ∀ c ∈ cs, isMark c = false ∧ c ≠ 'u' ∧ c ≠ 's' := by
  simpa [List.any_eq_true, List.all_eq_true, and_assoc] using h

/-- The text of a double has a character that no integer has, and none of the words. -/
theorem number_marks (x : Binary64) :
    (∃ c ∈ (number x).toList, c ∈ ['.', 'e', 'N', 'I']) ∧
      ∀ c ∈ (number x).toList, isMark c = false ∧ c ≠ 'u' ∧ c ≠ 's' := by
  cases x with
  | nan mark =>
    show (∃ c ∈ "NaN".toList, _) ∧ ∀ c ∈ "NaN".toList, _
    exact marks_of_any rfl
  | infinite negative => cases negative <;> exact marks_of_any rfl
  | finite negative m q =>
    obtain ⟨written, marks⟩ := Binary64.written_finite negative m q
    refine ⟨marks.elim (fun there => ⟨_, there, by decide⟩) fun there => ⟨_, there, by decide⟩,
      fun c there => ⟨isMark_of_isWritten (written c there), ?_, ?_⟩⟩
    · rintro rfl
      exact absurd (written 'u' there) (by decide)
    · rintro rfl
      exact absurd (written 's' there) (by decide)

/-- A finite number has a point or an exponent, and so is no other number. -/
theorem finite_ne {negative : Bool} {m q : Nat} {other : String}
    (lacks : '.' ∉ other.toList ∧ 'e' ∉ other.toList) :
    (Binary64.finite negative m q).toText ≠ other := by
  rintro rfl
  exact (Binary64.written_finite negative m q).2.elim lacks.1 lacks.2

/-- A double that is not finite has its own pair of texts. -/
theorem special_cases (x : Binary64) :
    (number x, x.toText) ∈ [("NaN", "nan"), ("Infinity", "inf"), ("-Infinity", "-inf")] ∨
      ∃ negative m q, x = .finite negative m q := by
  cases x with
  | nan mark => exact .inl (List.mem_cons_self)
  | infinite negative => cases negative <;> exact .inl (by decide)
  | finite negative m q => exact .inr ⟨negative, m, q, rfl⟩

/-- Doubles have one number in a JSON text just if they are written alike. -/
theorem number_eq_iff {x y : Binary64} : number x = number y ↔ x.toText = y.toText := by
  -- The texts of numbers that are not finite differ from all others and correspond to each other.
  have special : ∀ p ∈ [("NaN", "nan"), ("Infinity", "inf"), ("-Infinity", "-inf")],
      (∀ q ∈ [("NaN", "nan"), ("Infinity", "inf"), ("-Infinity", "-inf")],
        p.1 = q.1 ↔ p.2 = q.2) ∧
      ('.' ∉ p.1.toList ∧ 'e' ∉ p.1.toList) ∧ '.' ∉ p.2.toList ∧ 'e' ∉ p.2.toList := by
    decide
  rcases special_cases x with there | ⟨negative, m, q, rfl⟩ <;>
    rcases special_cases y with there' | ⟨negative', m', q', rfl⟩
  · exact (special _ there).1 _ there'
  · obtain ⟨-, lacks, lacks'⟩ := special _ there
    exact iff_of_false (finite_ne lacks).symm (finite_ne lacks').symm
  · obtain ⟨-, lacks, lacks'⟩ := special _ there'
    exact iff_of_false (finite_ne lacks) (finite_ne lacks')
  · exact Iff.rfl

end DataShape.Json
