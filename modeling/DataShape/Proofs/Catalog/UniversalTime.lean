import DataShape.Function
import DataShape.Proofs.Execution
import Mathlib.Data.List.TakeWhile

/-! # A final letter for universal time

A final `Z` is written out as an offset of zero before a text is read. That offset belongs to the
time, as long as the text has one: behind a date that stands alone its sign is read as the character
between date and time, and behind a null character it is not read at all.

* `digits?_append_stop`, `dateFields?_append_stop` — numbers and dates are read in front of a
  character that is no digit, never across it.
* `components?_append_stop` — a time in front of a sign is read up to a null character, if at all.
* `timeFields?_append_zeroOffset`, `dateTime_append_zeroOffset` — times and moments in front of the
  written offset.
* `dateTimeFromText_zulu` — what becomes of a text with a final letter. -/

namespace DataShape

/-- The last character of a text that is not blank. -/
def Text.lastNonBlank? (s : String) : Option Char := s.toList.reverse.find? fun c => !isBlank c

/-- A trimmed text ends in the last character that is not blank. -/
theorem Text.trimChars_of_lastNonBlank? {s : String} {z : Char}
    (last : lastNonBlank? s = some z) : ∃ body, trimChars s.toList = body ++ [z] := by
  have blank : ∀ c ∈ (s.toList.takeWhile isBlank).reverse, ¬ (!isBlank c) = true := by
    intro c there
    have := List.mem_takeWhile_imp (List.mem_reverse.mp there)
    simp [this]
  have found : (trimStart s.toList).reverse.find? (fun c => !isBlank c) = some z := by
    rw [lastNonBlank?, ← List.takeWhile_append_dropWhile (p := isBlank) (l := s.toList),
      List.reverse_append, List.find?_append, List.find?_eq_none.mpr blank, Option.or_none] at last
    exact last
  rw [List.find?_not_eq_head?_dropWhile] at found
  obtain ⟨rest, ends⟩ := List.head?_eq_some_iff.mp found
  refine ⟨rest.reverse, ?_⟩
  rw [trimChars, trimEnd, ends, List.reverse_cons]

namespace IsoReader

/-! ## Digits -/

/-- Digits are read in front of a character that is none. -/
theorem digits?_append_stop {n value value' : Nat} {cs more rest : List Char} {c : Char}
    (stop : digit? c = none) (read : digits? n value (cs ++ c :: more) = some (value', rest)) :
    ∃ own, cs.length = n + own.length ∧ rest = own ++ c :: more ∧
      digits? n value cs = some (value', own) := by
  induction n generalizing value cs with
  | zero =>
    obtain ⟨rfl, rfl⟩ := Prod.mk.inj (Option.some.inj read)
    exact ⟨cs, by simp, rfl, rfl⟩
  | succ n ih =>
    cases cs with
    | nil =>
      rw [List.nil_append, digits?, stop] at read
      cases read
    | cons b cs =>
      obtain ⟨digit, one, read⟩ := Option.bind_eq_some_iff.mp read
      obtain ⟨own, size, same, read⟩ := ih read
      refine ⟨own, by simp [size]; omega, same, ?_⟩
      rw [digits?, one]
      exact read

/-- What digits leave of a text is its end. -/
theorem exists_append_of_digits? {n value value' : Nat} {cs rest : List Char}
    (read : digits? n value cs = some (value', rest)) : ∃ front, cs = front ++ rest := by
  induction n generalizing value cs with
  | zero =>
    obtain ⟨-, rfl⟩ := Prod.mk.inj (Option.some.inj read)
    exact ⟨[], rfl⟩
  | succ n ih =>
    cases cs with
    | nil => cases read
    | cons b cs =>
      obtain ⟨digit, -, read⟩ := Option.bind_eq_some_iff.mp read
      obtain ⟨front, rfl⟩ := ih read
      exact ⟨b :: front, rfl⟩

/-- No number starts with a character that is no digit. -/
theorem digits?_stop {n value : Nat} {more : List Char} {c : Char} (stop : digit? c = none) :
    digits? (n + 1) value (c :: more) = none := by
  rw [digits?, stop]
  rfl

theorem digit?_plus : digit? '+' = none := by decide

theorem digit?_terminator : digit? terminator = none := by decide

/-! ## Times -/

/-- Whether what follows the digits of a fraction is the end of a text. -/
def endsBehindDigits (cs : List Char) : Bool :=
  isEnded (cs.dropWhile fun c => (digit? c).isSome)

/-- Six digits make a fraction, of a text that is long enough. -/
theorem fraction?_of_long {cs : List Char} (long : 6 ≤ cs.length) :
    fraction? false cs = (digits? 6 0 cs).map fun (value, rest) =>
      (value, !endsBehindDigits rest) := by
  unfold fraction? endsBehindDigits
  rw [Nat.min_eq_left long]
  simp only [Nat.sub_self, Bool.and_false, Bool.or_false]
  refine congrArg (Option.map · _) (funext fun p => ?_)
  exact congrArg (·, _) (Nat.mul_one p.1)

/-- A component of two digits with more than one character behind it. -/
theorem components?_of_digits {followed : Bool} {left value : Nat} {colons : Option Bool}
    {cs after : List Char} {c : Char} (first : digits? 2 0 cs = some (value, c :: after))
    (more : after ≠ []) : components? followed (left + 1) colons cs =
      if colons.getD (c == ':') && c == ':' then
        (components? followed left (some (colons.getD (c == ':'))) after).map
          fun (vs, f, more) => (value :: vs, f, more)
      else if c == '.' || c == ',' then
        (fraction? followed after).map fun (f, more) => ([value], f, more)
      else if !colons.getD (c == ':') then
        (components? followed left (some (colons.getD (c == ':'))) (c :: after)).map
          fun (vs, f, more) => (value :: vs, f, more)
      else none := by
  rw [components?, first]
  simp only [Option.bind_some, List.isEmpty_eq_false_iff.mpr more, Bool.false_and,
    Bool.false_eq_true, if_false]

/-- A fraction with a sign somewhere behind it is read up to a null character in front of the
sign. -/
theorem fraction?_append_stop {cs more : List Char} {f : Nat} (long : 5 ≤ more.length)
    (read : fraction? false (cs ++ '+' :: more) = some (f, false)) :
    ∃ own rest, cs = own ++ terminator :: rest ∧ 6 ≤ own.length ∧
      fraction? false own = some (f, false) := by
  rw [fraction?_of_long (by simp; omega)] at read
  obtain ⟨⟨value, left⟩, digits, given⟩ := Option.map_eq_some_iff.mp read
  obtain ⟨own, -, rfl, first⟩ := digits?_append_stop digit?_plus digits
  obtain ⟨rfl, ended⟩ := Prod.mk.inj given
  obtain ⟨front, rfl⟩ := exists_append_of_digits? first
  rw [Bool.not_eq_false', endsBehindDigits, List.dropWhile_append] at ended
  -- the digits end at the null character, not at the sign
  split at ended
  · cases ended
  · next further =>
    obtain ⟨c, rest, beyond⟩ := List.exists_cons_of_ne_nil (mt List.isEmpty_iff.mpr further)
    rw [beyond] at ended
    obtain rfl : c = terminator := by simpa [isEnded] using ended
    have whole := List.takeWhile_append_dropWhile (p := fun c => (digit? c).isSome) (l := own)
    have all : ∀ c ∈ own.takeWhile (fun c => (digit? c).isSome), (digit? c).isSome = true :=
      fun c there => List.mem_takeWhile_imp (p := fun c => (digit? c).isSome) there
    generalize own.takeWhile (fun c => (digit? c).isSome) = run at whole all
    rw [beyond] at whole
    obtain rfl := whole
    rw [← List.append_assoc] at first
    obtain ⟨left, size, same, first⟩ := digits?_append_stop digit?_terminator first
    obtain rfl := List.append_cancel_right same
    refine ⟨front ++ run, rest, by simp, by omega, ?_⟩
    have ends : endsBehindDigits run = true := by
      rw [endsBehindDigits, List.dropWhile_eq_nil_iff.mpr all, isEnded_nil]
    rw [fraction?_of_long (by omega), first, Option.map_some]
    dsimp only
    rw [ends, Bool.not_true]

/-- No components start with a sign. -/
theorem components?_plus (left : Nat) (colons : Option Bool) {more : List Char}
    (long : 5 ≤ more.length) : components? false left colons ('+' :: more) = none := by
  cases left with
  | zero =>
    rw [components?, fraction?_of_long (by simp; omega), digits?_stop digit?_plus]
    rfl
  | succ left =>
    rw [components?, digits?_stop digit?_plus]
    rfl

/-- What a null character ends behind a number is read behind the same number. -/
theorem digits?_upTo_terminator {n value value' : Nat} {front after : List Char} {c : Char}
    (own rest : List Char)
    (first : digits? n value (front ++ c :: after) = some (value', c :: after))
    (same : c :: after = own ++ terminator :: rest) (size : 2 ≤ own.length) :
    ∃ after', own = c :: after' ∧ after' ≠ [] ∧
      digits? n value (front ++ own) = some (value', c :: after') := by
  rw [same, ← List.append_assoc] at first
  obtain ⟨left, -, same', first⟩ := digits?_append_stop digit?_terminator first
  obtain rfl := List.append_cancel_right same'
  obtain ⟨b, after', rfl⟩ := List.exists_cons_of_ne_nil (List.ne_nil_of_length_pos
    (Nat.lt_of_lt_of_le (by decide) size))
  obtain ⟨rfl, -⟩ := List.cons.inj same
  exact ⟨after', rfl, by rintro rfl; simp at size, first⟩

/-- The components of a time with a sign somewhere behind them are read up to a null character too.
By induction on how many are left. -/
theorem components?_append_stop {more : List Char} (long : 5 ≤ more.length) (left : Nat) :
    ∀ {colons : Option Bool} (cs : List Char) {vs : List Nat} {f : Nat},
      components? false left colons (cs ++ '+' :: more) = some (vs, f, false) →
      ∃ own rest, cs = own ++ terminator :: rest ∧ 6 ≤ own.length ∧
        components? false left colons own = some (vs, f, false) := by
  induction left with
  | zero =>
    intro colons cs vs f read
    rw [components?] at read
    obtain ⟨⟨f', more'⟩, fraction, given⟩ := Option.map_eq_some_iff.mp read
    obtain ⟨rfl, rfl, rfl⟩ := by simpa using given
    obtain ⟨own, rest, rfl, size, fraction⟩ := fraction?_append_stop long fraction
    refine ⟨own, rest, rfl, size, ?_⟩
    rw [components?, fraction]
    rfl
  | succ left ih =>
    intro colons cs vs f read
    obtain ⟨⟨value, behind⟩, digits, -⟩ := Option.bind_eq_some_iff.mp (by rwa [components?] at read)
    obtain ⟨own, -, rfl, first⟩ := digits?_append_stop digit?_plus digits
    obtain ⟨front, rfl⟩ := exists_append_of_digits? first
    cases own with
    | nil =>
      rw [components?_of_digits digits (by cases more <;> simp at long ⊢)] at read
      simp [components?_plus left _ long] at read
    | cons c after =>
      -- what the null character ends is read in the same of three ways, behind the same two digits
      rw [components?_of_digits digits (by simp)] at read
      split at read
      · next colon =>
        obtain ⟨⟨vs', f', more'⟩, others, given⟩ := Option.map_eq_some_iff.mp read
        obtain ⟨rfl, rfl, rfl⟩ := by simpa using given
        obtain ⟨own, rest, rfl, size, others⟩ := ih _ others
        obtain ⟨after', same, more', first'⟩ :=
          digits?_upTo_terminator (c :: own) rest first rfl (by simp; omega)
        obtain ⟨-, rfl⟩ := List.cons.inj same
        refine ⟨front ++ c :: own, rest, by simp, by simp; omega, ?_⟩
        rw [components?_of_digits first' more', if_pos colon, others]
        rfl
      · next colon =>
        split at read
        · next point =>
          obtain ⟨⟨f', more'⟩, fraction, given⟩ := Option.map_eq_some_iff.mp read
          obtain ⟨rfl, rfl, rfl⟩ := by simpa using given
          obtain ⟨own, rest, rfl, size, fraction⟩ := fraction?_append_stop long fraction
          obtain ⟨after', same, more', first'⟩ :=
            digits?_upTo_terminator (c :: own) rest first rfl (by simp; omega)
          obtain ⟨-, rfl⟩ := List.cons.inj same
          refine ⟨front ++ c :: own, rest, by simp, by simp; omega, ?_⟩
          rw [components?_of_digits first' more', if_neg colon, if_pos point, fraction]
          rfl
        · next point =>
          split at read
          · next apart =>
            obtain ⟨⟨vs', f', more'⟩, others, given⟩ := Option.map_eq_some_iff.mp read
            obtain ⟨rfl, rfl, rfl⟩ := by simpa using given
            obtain ⟨own, rest, same, size, others⟩ := ih (c :: after) others
            obtain ⟨after', rfl, more', first'⟩ :=
              digits?_upTo_terminator own rest first same (by omega)
            refine ⟨front ++ c :: after', rest, by rw [same]; simp, by simp at size ⊢; omega, ?_⟩
            rw [components?_of_digits first' more', if_neg colon, if_neg point, if_pos apart,
              others]
            rfl
          · cases read

/-! ## Offsets -/

/-- The offset that is written for the letter. -/
def zeroOffset : List Char := ['+', '0', '0', ':', '0', '0']

theorem offset?_zeroOffset : offset? zeroOffset = some 0 := by decide

/-- Behind the sign of an offset the written one is read as none, unless a null character ends the
first one. -/
theorem offset?_append_zeroOffset {sign : Char} {cs : List Char} {o : Int}
    (read : offset? (sign :: cs ++ zeroOffset) = some o) :
    o = 0 ∨ ∃ own rest, sign :: cs = own ++ terminator :: rest ∧ offset? own = some o := by
  by_cases letter : sign = 'Z'
  · subst letter
    rw [List.cons_append, offset?] at read
    split at read
    · exact .inl (Option.some.inj read).symm
    · cases read
  · rw [List.cons_append, offset?.eq_3 _ _ (by simpa using letter)] at read
    obtain ⟨c, clock, given⟩ := Option.bind_eq_some_iff.mp read
    obtain ⟨⟨vs, f, more⟩, components, rfl⟩ := Option.map_eq_some_iff.mp clock
    cases more with
    | true => cases given
    | false =>
      obtain ⟨own, rest, rfl, -, components⟩ := components?_append_stop (by decide) 3 _ components
      refine .inr ⟨sign :: own, rest, rfl, ?_⟩
      rw [offset?.eq_3 _ _ (by simpa using letter), clock?, components]
      exact given

/-- A time in front of the written offset has an offset: the written one, unless it has one of its
own that a null character ends. -/
theorem timeFields?_append_zeroOffset {cs : List Char} {t : Time}
    (read : timeFields? (cs ++ zeroOffset) = some t) : ∃ o, t.offset = some o ∧
      (o = 0 ∨ ∃ front own rest, cs = front ++ (own ++ terminator :: rest) ∧
        offset? own = some o) := by
  have zone : ∃ front zone, cs = front ++ zone ∧
      (cs ++ zeroOffset).dropWhile (fun c => !startsOffset c) = zone ++ zeroOffset := by
    refine ⟨_, _, (List.takeWhile_append_dropWhile (p := fun c => !startsOffset c)).symm, ?_⟩
    rw [List.dropWhile_append]
    split
    · next none =>
      rw [List.isEmpty_iff.mp none]
      rfl
    · rfl
  obtain ⟨front, zone, rfl, zoned⟩ := zone
  unfold timeFields? at read
  rw [zoned] at read
  obtain ⟨c, -, read⟩ := Option.bind_eq_some_iff.mp read
  rw [if_neg (by simp [zeroOffset])] at read
  obtain ⟨o, offset, rfl⟩ := Option.map_eq_some_iff.mp read
  refine ⟨o, rfl, ?_⟩
  cases zone with
  | nil => exact .inl (Option.some.inj (offset.symm.trans offset?_zeroOffset))
  | cons sign zone =>
    rcases offset?_append_zeroOffset offset with zero | ⟨own, rest, same, own'⟩
    · exact .inl zero
    · exact .inr ⟨front, own, rest, by rw [same], own'⟩

/-! ## Dates -/

/-- The day of the week is read in front of a sign. -/
theorem weekday?_append_stop {dashed : Bool} {cs more : List Char} {day : Nat}
    (read : weekday? dashed (cs ++ '+' :: more) = some day) :
    (if dashed then 2 else 1) ≤ cs.length := by
  cases cs with
  | nil =>
    cases dashed with
    | true => cases read
    | false =>
      rw [List.nil_append, weekday?, if_neg Bool.false_ne_true, digits?_stop digit?_plus] at read
      cases read
  | cons c cs =>
    cases dashed with
    | false => simp
    | true =>
      rw [List.cons_append, weekday?, if_pos rfl] at read
      split at read
      · obtain ⟨⟨value, rest⟩, digits, -⟩ := Option.map_eq_some_iff.mp read
        obtain ⟨own, size, -, -⟩ := digits?_append_stop digit?_plus digits
        simp [size]
      · cases read

/-- Read a month and a day behind the year. -/
def monthFields? (dashed : Bool) (year : Nat) (cs : List Char) : Option Date :=
  (digits? 2 0 cs).bind fun (month, tail) =>
    (if dashed then (if tail.head? == some '-' then some tail.tail else none)
      else some tail).bind fun day => (digits? 2 0 day).map fun (d, _) => ⟨year, month, d⟩

/-- Read a week and its day, or a month and a day. -/
def yearFields? (dashed : Bool) (year : Nat) (cs : List Char) : Option Date :=
  match cs with
  | 'W' :: week =>
      (digits? 2 0 week).bind fun (w, tail) =>
        (weekday? dashed tail).bind fun d => ofWeek? year w d
  | cs => monthFields? dashed year cs

/-- A date is a year and what is behind it, or behind its dash. -/
theorem dateFields?_eq (cs : List Char) : dateFields? cs = (digits? 4 0 cs).bind fun (year, rest) =>
    yearFields? (rest.head? == some '-') year
      (if rest.head? == some '-' then rest.tail else rest) := by
  unfold dateFields?
  refine congrArg (Option.bind _) (funext fun (year, rest) => ?_)
  dsimp only
  generalize (if rest.head? == some '-' then rest.tail else rest) = cs
  split
  · rfl
  · next other => exact (yearFields?.eq_2 _ _ _ other).symm

/-- Month and day are read in front of a sign, with the dash between them if there is one. -/
theorem monthFields?_append_stop {dashed : Bool} {cs more : List Char} {year : Nat} {date : Date}
    (read : monthFields? dashed year (cs ++ '+' :: more) = some date) :
    (if dashed then 5 else 4) ≤ cs.length := by
  obtain ⟨⟨month, tail⟩, first, read⟩ := Option.bind_eq_some_iff.mp read
  obtain ⟨own, size, rfl, -⟩ := digits?_append_stop digit?_plus first
  obtain ⟨day, rest, read⟩ := Option.bind_eq_some_iff.mp read
  obtain ⟨⟨d, _⟩, second, -⟩ := Option.map_eq_some_iff.mp read
  cases dashed with
  | false =>
    obtain rfl := Option.some.inj rest
    obtain ⟨own', size', -, -⟩ := digits?_append_stop digit?_plus second
    simp
    omega
  | true =>
    rw [if_pos rfl] at rest
    cases own with
    | nil => simp at rest
    | cons c own =>
      split at rest
      · obtain rfl := Option.some.inj rest
        obtain ⟨own', size', -, -⟩ := digits?_append_stop digit?_plus
          (show digits? 2 0 (own ++ '+' :: more) = _ from second)
        simp at size ⊢
        omega
      · cases rest

/-- So is what is behind a year. -/
theorem yearFields?_append_stop {dashed : Bool} {cs more : List Char} {year : Nat} {date : Date}
    (read : yearFields? dashed year (cs ++ '+' :: more) = some date) :
    (if dashed then 5 else 4) ≤ cs.length := by
  unfold yearFields? at read
  split at read
  · next week same =>
    cases cs with
    | nil => cases same
    | cons c cs =>
      obtain ⟨rfl, rfl⟩ := List.cons.inj same
      obtain ⟨⟨w, tail⟩, digits, read⟩ := Option.bind_eq_some_iff.mp read
      obtain ⟨own, size, rfl, -⟩ := digits?_append_stop digit?_plus
        (show digits? 2 0 (cs ++ '+' :: more) = _ from digits)
      obtain ⟨day, read, -⟩ := Option.bind_eq_some_iff.mp read
      have := weekday?_append_stop read
      cases dashed <;> simp at this ⊢ <;> omega
  · exact monthFields?_append_stop read

/-- A date ends in front of a sign: one with dashes has ten characters in front of it, and any other
one eight. -/
theorem dateFields?_append_stop {cs more : List Char} {date : Date}
    (read : dateFields? (cs ++ '+' :: more) = some date) :
    8 ≤ cs.length ∧ (cs[4]? = some '-' → 10 ≤ cs.length) := by
  rw [dateFields?_eq] at read
  obtain ⟨⟨year, rest⟩, digits, behind⟩ := Option.bind_eq_some_iff.mp read
  obtain ⟨own, size, rfl, first⟩ := digits?_append_stop digit?_plus digits
  obtain ⟨front, rfl⟩ := exists_append_of_digits? first
  have four : front.length = 4 := by simpa using size
  have fifth : (front ++ own)[4]? = own[0]? := by
    rw [List.getElem?_append_right (by omega), four]
  cases own with
  | nil =>
    have size := yearFields?_append_stop
      (show yearFields? false year ([] ++ '+' :: more) = some date from behind)
    simp at size
  | cons c own =>
    by_cases dash : c = '-'
    · subst dash
      have size := yearFields?_append_stop
        (show yearFields? true year (own ++ '+' :: more) = some date from behind)
      simp at size ⊢
      omega
    · have undashed : ((c :: own ++ '+' :: more).head? == some '-') = false := by simpa using dash
      dsimp only at behind
      rw [undashed] at behind
      have size := yearFields?_append_stop
        (show yearFields? false year (c :: own ++ '+' :: more) = some date from behind)
      rw [fifth]
      simp [dash] at size ⊢
      omega

/-- A date ends behind seven, eight or ten characters, behind ten with dashes only. -/
theorem dateLength_cases (cs : List Char) : dateLength cs = 7 ∨ dateLength cs = 8 ∨
    dateLength cs = 10 ∧ cs[4]? = some '-' := by
  unfold dateLength
  dsimp only
  split
  · exact .inl rfl
  · split
    · next dashed =>
      have dashed : cs[4]? = some '-' := by simpa using dashed
      split
      · split
        · split
          · exact .inr (.inl rfl)
          · exact .inr (.inr ⟨rfl, dashed⟩)
        · exact .inr (.inl rfl)
      · exact .inr (.inr ⟨rfl, dashed⟩)
    · split
      · split
        · omega
        · split <;> simp
      · exact .inr (.inl rfl)

/-- A date that stands in front of the written offset is no longer than what stands there. -/
theorem dateLength_le {cs : List Char} {date : Date}
    (read : dateFields? ((cs ++ zeroOffset).take (dateLength (cs ++ zeroOffset))) = some date) :
    dateLength (cs ++ zeroOffset) ≤ cs.length := by
  by_contra longer
  obtain ⟨k, further⟩ : ∃ k, dateLength (cs ++ zeroOffset) = cs.length + (k + 1) :=
    ⟨dateLength (cs ++ zeroOffset) - cs.length - 1, by omega⟩
  rw [further, List.take_length_add_append] at read
  obtain ⟨eight, ten⟩ := dateFields?_append_stop read
  have fifth : (cs ++ zeroOffset)[4]? = cs[4]? := List.getElem?_append_left (by omega)
  rcases dateLength_cases (cs ++ zeroOffset) with seven | other | ⟨other, dashed⟩
  · omega
  · omega
  · have := ten (fifth ▸ dashed)
    omega

/-- Whether the date takes up a whole text. -/
def IsBareDate (cs : List Char) : Prop := dateLength cs = cs.length

/-- The written offset makes no difference to that, where the date does not go into it. -/
theorem isBareDate_iff {cs : List Char} (inside : dateLength (cs ++ zeroOffset) ≤ cs.length) :
    IsBareDate cs ↔ dateLength (cs ++ zeroOffset) = cs.length := by
  have cases' := dateLength_cases (cs ++ zeroOffset)
  have short := dateLength_cases cs
  unfold IsBareDate
  by_cases seven : cs.length = 7
  · have bare : dateLength cs = 7 := by rw [dateLength, if_pos seven]
    omega
  have eight : 8 ≤ cs.length := by omega
  have run : ((cs ++ zeroOffset).drop 7).takeWhile (fun c => (digit? c).isSome)
      = (cs.drop 7).takeWhile fun c => (digit? c).isSome := by
    rw [List.drop_append_of_le_length (by omega), List.takeWhile_append]
    split
    · next all =>
      rw [(List.takeWhile_prefix _).eq_of_length all]
      exact List.append_nil _
    · rfl
  have at' : ∀ i, i < cs.length → (cs ++ zeroOffset)[i]? = cs[i]? := fun i inside =>
    List.getElem?_append_left inside
  by_cases more : cs.length = 8 ∨ cs.length = 10
  · unfold dateLength
    simp only [run, at' 4 (by omega), at' 5 (by omega)]
    rw [if_neg (by simp [zeroOffset]; omega : ¬ (cs ++ zeroOffset).length = 7), if_neg seven]
    rcases more with eight | ten
    · have none : cs[8]? = none := by simp [eight]
      have sign : (cs ++ zeroOffset)[8]? = some '+' := by
        rw [List.getElem?_append_right (by omega), eight]
        rfl
      simp only [none, sign]
      simp
    · have none : cs[10]? = none := by simp [ten]
      have sign : (cs ++ zeroOffset)[10]? = some '+' := by
        rw [List.getElem?_append_right (by omega), ten]
        rfl
      simp only [none, sign, at' 8 (by omega)]
      simp [digit?_plus]
  · omega

/-! ## Whole texts -/

/-- The time of a text without one. -/
def midnight : Time := ⟨0, 0, 0, 0, none, false⟩

/-- The time that is read behind a date, past one character between them. -/
def timeBehind? (cs : List Char) : Option Time :=
  match cs with
  | [] => some midnight
  | _ :: rest => timeFields? rest

/-- What a text of date and time is read as. -/
theorem dateTime_eq_ok_iff {s : String} {m : DateTime} : dateTime s = .ok m ↔
    ∃ d t, (if s.toList.length < 7 then none else
        dateFields? (s.toList.take (dateLength s.toList))) = some d ∧
      timeBehind? (s.toList.drop (dateLength s.toList)) = some t ∧
      (∃ u, checkTimeOffset t = .ok u) ∧ d.check = .ok m.date ∧ t.check = .ok m.time := by
  have checked (d : Date) (t : Time) : (do
      inRange (checkTimeOffset t)
      let d ← inRange d.check
      let t ← inRange t.check
      return (⟨d, t⟩ : DateTime)) = .ok m ↔
        (∃ u, checkTimeOffset t = .ok u) ∧ d.check = .ok m.date ∧ t.check = .ok m.time := by
    obtain ⟨date, time⟩ := m
    cases checkTimeOffset t <;> cases d.check <;> cases t.check <;>
      simp [inRange, Except.mapError, bind, Except.bind, pure, Except.pure]
  unfold dateTime
  dsimp only
  generalize (if s.toList.length < 7 then none else
    dateFields? (s.toList.take (dateLength s.toList))) = d?
  cases d? with
  | none => simp [wellFormed, bind, Except.bind]
  | some d =>
    cases s.toList.drop (dateLength s.toList) with
    | nil =>
      refine (checked d midnight).trans ?_
      simp [timeBehind?]
    | cons c rest =>
      dsimp only [timeBehind?]
      cases timeFields? rest with
      | none => simp [wellFormed, bind, Except.bind]
      | some t =>
        refine (checked d t).trans ?_
        simp

/-- A date with the written offset behind it is the date alone; any other moment in front of it has
that offset, unless it has one of its own that a null character ends. -/
theorem dateTime_append_zeroOffset {body : List Char} {m : DateTime}
    (read : dateTime (String.ofList (body ++ zeroOffset)) = .ok m) :
    (IsBareDate body → m.time = midnight ∧ dateTime (String.ofList body) = .ok m) ∧
      (¬ IsBareDate body → ∃ o, m.time.offset = some o ∧
        (o = 0 ∨ ∃ front own rest, body = front ++ (own ++ terminator :: rest) ∧
          offset? own = some o)) := by
  obtain ⟨d, t, date, time, offset, checkedDate, checkedTime⟩ := dateTime_eq_ok_iff.mp read
  obtain rfl := Time.check_eq checkedTime
  simp only [String.toList_ofList] at date time
  split at date
  · cases date
  have inside := dateLength_le date
  rw [List.take_append_of_le_length inside] at date
  rw [List.drop_append_of_le_length inside] at time
  refine ⟨fun bare => ?_, fun further => ?_⟩
  · have all := (isBareDate_iff inside).mp bare
    rw [List.drop_eq_nil_of_le all.ge] at time
    rw [List.take_of_length_le all.ge] at date
    have none : m.time = midnight := Option.some.inj (time.symm.trans
      (by decide : timeFields? ['0', '0', ':', '0', '0'] = some midnight))
    refine ⟨none, dateTime_eq_ok_iff.mpr ⟨d, m.time, ?_, ?_, offset, checkedDate, checkedTime⟩⟩
    · rw [String.toList_ofList, bare, List.take_length, if_neg ?_, date]
      have := dateLength_cases body
      unfold IsBareDate at bare
      omega
    · rw [String.toList_ofList, bare, List.drop_length, none]
      rfl
  · obtain ⟨c, rest, behind⟩ := List.exists_cons_of_ne_nil (mt List.drop_eq_nil_iff.mp
      fun whole => further ((isBareDate_iff inside).mpr (inside.antisymm whole)))
    rw [behind] at time
    obtain ⟨o, its, zero | ⟨front, own, rest, rfl, own'⟩⟩ := timeFields?_append_zeroOffset time
    · exact ⟨o, its, .inl zero⟩
    · have parts := List.take_append_drop (dateLength (body ++ zeroOffset)) body
      rw [behind] at parts
      rw [← List.cons_append, ← List.append_assoc] at parts
      exact ⟨o, its, .inr ⟨_, own, rest, parts.symm, own'⟩⟩

end IsoReader

open Text

/-- What is read of a text with a final letter: what stands in front of the letter, with the
written offset behind it. -/
theorem dateTimeOf_zulu {s : String} {z : Char} (last : lastNonBlank? s = some z)
    (zulu : z = 'Z' ∨ z = 'z') : ∃ body, trimChars s.toList = body ++ [z] ∧
      ∀ v, dateTimeOf (.str s) = .ok v ↔ ∃ m, v = .datetime m ∧
        IsoReader.dateTime (String.ofList (body ++ IsoReader.zeroOffset)) = .ok m := by
  obtain ⟨body, trimmed⟩ := trimChars_of_lastNonBlank? last
  refine ⟨body, trimmed, fun v => ?_⟩
  have written : expandZulu (trim s) = String.ofList (body ++ IsoReader.zeroOffset) := by
    rw [expandZulu, trim, String.toList_ofList, trimmed, List.reverse_append]
    simp [zulu, IsoReader.zeroOffset]
  have nonempty : (trim s).isEmpty = false := by
    rw [trim, trimmed]
    simp
  rw [dateTimeOf, momentOf]
  dsimp only
  rw [nonempty, written]
  cases IsoReader.dateTime (String.ofList (body ++ IsoReader.zeroOffset)) with
  | ok m => simp [eq_comm]
  | error fault => simp

/-- A text that is not blank gives the moment that is read of it without blanks at its ends and with
a final letter written out. -/
theorem exec_dateTimeFromText (d : Dispatch) {s : String} {m : DateTime} (w : World)
    (nonblank : (trim s).isEmpty = false)
    (read : IsoReader.dateTime (expandZulu (trim s)) = .ok m) :
    exec (Marshaller.dateTimeFromText.apply d (.str s)) w = (.ok (.datetime m), w) := by
  rw [Marshaller.apply, dateTimeOf, momentOf]
  dsimp only
  rw [nonblank, read]
  rfl

/-- A text with a final letter for universal time that is read as a moment gives one with an offset,
unless the letter stands right behind a date: the moment is then the midnight of that date, without
an offset, as if the letter were not there. The offset is zero, unless the text in front of the
letter has an offset of its own that a null character ends. -/
theorem dateTimeFromText_zulu (d : Dispatch) {s : String} {z : Char} {v : Value} {w w' : World}
    (last : lastNonBlank? s = some z) (zulu : z = 'Z' ∨ z = 'z')
    (read : exec (Marshaller.dateTimeFromText.apply d (.str s)) w = (.ok v, w')) :
    ∃ body m, trimChars s.toList = body ++ [z] ∧ v = .datetime m ∧
      (m.time.offset = none ↔ IsoReader.IsBareDate body) ∧
      (IsoReader.IsBareDate body → m.time = IsoReader.midnight ∧
        IsoReader.dateTime (String.ofList body) = .ok m) ∧
      ∀ o, m.time.offset = some o → o = 0 ∨ ∃ front own rest,
        body = front ++ (own ++ IsoReader.terminator :: rest) ∧
          IsoReader.offset? own = some o := by
  obtain ⟨body, trimmed, values⟩ := dateTimeOf_zulu last zulu
  have value : dateTimeOf (.str s) = .ok v := by
    rw [Marshaller.apply] at read
    cases found : dateTimeOf (.str s) with
    | ok x =>
      rw [found] at read
      exact (Prod.mk.inj read).1
    | error fault =>
      rw [found] at read
      cases read
  obtain ⟨m, rfl, moment⟩ := (values v).mp value
  obtain ⟨bare, further⟩ := IsoReader.dateTime_append_zeroOffset moment
  refine ⟨body, m, trimmed, rfl, ⟨fun none => ?_, fun date => ?_⟩, bare, fun o its => ?_⟩
  · by_contra date
    obtain ⟨o, its, -⟩ := further date
    rw [none] at its
    cases its
  · rw [(bare date).1]
    rfl
  · by_cases date : IsoReader.IsBareDate body
    · rw [(bare date).1] at its
      cases its
    · obtain ⟨o', its', own⟩ := further date
      obtain rfl := Option.some.inj (its.symm.trans its')
      exact own

/-- The letter behind a time of the day, and behind a date alone. -/
theorem dateTimeFromText_zulu_each :
    let w := World.empty "" []
    let noon : DateTime := ⟨⟨2024, 1, 1⟩, ⟨12, 0, 0, 0, some 0, false⟩⟩
    let newYear : DateTime := ⟨⟨2024, 1, 1⟩, IsoReader.midnight⟩
    (lastNonBlank? "2024-01-01T12:00z " = some 'z' ∧
      exec (Marshaller.dateTimeFromText.apply engine (.str "2024-01-01T12:00z ")) w
        = (.ok (.datetime noon), w) ∧ ¬ IsoReader.IsBareDate "2024-01-01T12:00".toList) ∧
    lastNonBlank? "2024-01-01Z" = some 'Z' ∧
      exec (Marshaller.dateTimeFromText.apply engine (.str "2024-01-01Z")) w
        = (.ok (.datetime newYear), w) ∧ IsoReader.IsBareDate "2024-01-01".toList ∧
      IsoReader.dateTime "2024-01-01" = .ok newYear := by
  intro w noon newYear
  have lastOfTime : lastNonBlank? "2024-01-01T12:00z " = some 'z' := by decide +kernel
  have lastOfDate : lastNonBlank? "2024-01-01Z" = some 'Z' := by decide +kernel
  have timeRead : exec (Marshaller.dateTimeFromText.apply engine (.str "2024-01-01T12:00z ")) w
      = (.ok (.datetime noon), w) :=
    exec_dateTimeFromText engine w (by decide +kernel) (by decide +kernel)
  have dateRead : exec (Marshaller.dateTimeFromText.apply engine (.str "2024-01-01Z")) w
      = (.ok (.datetime newYear), w) :=
    exec_dateTimeFromText engine w (by decide +kernel) (by decide +kernel)
  refine ⟨⟨lastOfTime, timeRead, ?_⟩, lastOfDate, dateRead, ?_⟩
  · obtain ⟨body, m, trimmed, same, undated, -⟩ :=
      dateTimeFromText_zulu engine lastOfTime (.inr rfl) timeRead
    obtain rfl : noon = m := Value.datetime.inj same
    obtain rfl : "2024-01-01T12:00".toList = body :=
      List.append_cancel_right ((by decide +kernel : _ = _).trans trimmed)
    exact fun bare => nomatch undated.mpr bare
  · obtain ⟨body, m, trimmed, same, undated, alone, -⟩ :=
      dateTimeFromText_zulu engine lastOfDate (.inl rfl) dateRead
    obtain rfl : newYear = m := Value.datetime.inj same
    obtain rfl : "2024-01-01".toList = body :=
      List.append_cancel_right ((by decide +kernel : _ = _).trans trimmed)
    exact ⟨undated.mp rfl, (alone (undated.mp rfl)).2⟩

end DataShape
