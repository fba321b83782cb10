import DataShape.Proofs.Json.Text
import DataShape.Proofs.Json.Data
import DataShape.Proofs.Sorting.Merge
import Std.Data.String.ToInt

/-! # The canonical text of data

Data of scalars, lists and mappings with texts as keys has one JSON text for all orders in which its
mappings can be written, and no text stands for two different data. Integers are told apart from
truth values and from doubles, and doubles by how they are written.

* `Written` — the texts of data, read off its parts.
* `Written.same` — a text tells its data, whatever follows; `SameData.text_eq` — the same data has
  one text.
* `text_eq_iff` — two texts are equal just if they stand for the same data. -/

namespace DataShape

open Json

namespace Json

/-! ## Texts -/

/-- The word for a scalar other than a text. -/
def word? : Value → Option String
  | .null => some "null"
  | .bool b => some (truth b)
  | .int n => some (toString n)
  | .float x => some (number x)
  | _ => none

/-- What stands behind an item of a list or mapping: the further items, each behind a comma, and the
closing bracket. -/
def trail (close : Char) : List (List Char) → List Char
  | [] => [close]
  | t :: ts => ',' :: (t ++ trail close ts)

theorem trail_cons_append (close : Char) (t : List Char) (ts : List (List Char)) (r : List Char) :
    trail close (t :: ts) ++ r = ',' :: (t ++ (trail close ts ++ r)) := by
  rw [trail, List.cons_append, List.append_assoc]

/-- What stands behind the opening bracket. -/
def enclosed (close : Char) : List (List Char) → List Char
  | [] => [close]
  | t :: ts => t ++ trail close ts

/-- The text of a key that is a text. -/
def keyText (k : Value) : String := k.text?.getD ""

mutual

/-- A text of data: the word for a scalar, a text value in quotes, the texts of items between
brackets, and those of entries in the order of their keys between braces. -/
inductive Written : Value → List Char → Prop
  | word {v : Value} {s : String} (h : word? v = some s) : Written v s.toList
  | str (s : String) : Written (.str s) (string s).toList
  | list (share : Nat) {items : List Value} {ts : List (List Char)} (h : WrittenItems items ts) :
      Written (.list share items) ('[' :: enclosed ']' ts)
  | dict (share : Nat) {entries fs : Entries} {ts : List (List Char)} (order : fs.Perm entries)
      (sorted : fs.Pairwise fun e f => keyText e.1 < keyText f.1) (h : WrittenEntries fs ts) :
      Written (.dict share entries) ('\x7b' :: enclosed '\x7d' ts)

/-- The texts of items. -/
inductive WrittenItems : List Value → List (List Char) → Prop
  | nil : WrittenItems [] []
  | cons {v : Value} {vs : List Value} {cs : List Char} {ts : List (List Char)}
      (first : Written v cs) (rest : WrittenItems vs ts) : WrittenItems (v :: vs) (cs :: ts)

/-- The texts of entries with texts as keys. -/
inductive WrittenEntries : Entries → List (List Char) → Prop
  | nil : WrittenEntries [] []
  | cons (k : String) {v : Value} {es : Entries} {cs : List Char} {ts : List (List Char)}
      (first : Written v cs) (rest : WrittenEntries es ts) :
      WrittenEntries ((.str k, v) :: es) (((string k).toList ++ ':' :: cs) :: ts)

end

/-! ## What a text tells -/

theorem isWord_word {v : Value} {s : String} (h : word? v = some s) : IsWord s.toList := by
  cases v with
  | null =>
    obtain rfl := Option.some.inj h
    exact isWord_of_all rfl
  | bool b =>
    obtain rfl := Option.some.inj h
    cases b <;> exact isWord_of_all rfl
  | int n =>
    obtain rfl := Option.some.inj h
    refine isWord_of_allWritten ?_ (allWritten_int n)
    rw [toList_toString_int]
    split
    · exact List.cons_ne_nil _ _
    · exact Nat.toDigits_ne_nil
  | float x =>
    obtain rfl := Option.some.inj h
    obtain ⟨⟨c, there, -⟩, plain⟩ := number_marks x
    exact ⟨List.ne_nil_of_mem there, fun c there => (plain c there).1⟩
  | _ => cases h

/-- The words for the empty value and for truth values have a letter that no number has. -/
theorem letter_of_word {v : Value} {s : String} (h : word? v = some s)
    (plain : v = .null ∨ ∃ b, v = .bool b) : 'u' ∈ s.toList ∨ 's' ∈ s.toList := by
  rcases plain with rfl | ⟨b, rfl⟩
  · obtain rfl := Option.some.inj h
    decide
  · obtain rfl := Option.some.inj h
    cases b <;> decide

/-- A word tells its scalar. -/
theorem sameData_of_word {a b : Value} {s : String} (h : word? a = some s) (h' : word? b = some s) :
    SameData a b := by
  -- Integers have neither the letters of words nor the marks of doubles.
  have integer : ∀ n : Int, some (toString n) = some s →
      ∀ c ∈ s.toList, c.isDigit = true ∨ c = '-' := by
    rintro n same c there
    obtain rfl := Option.some.inj same
    exact isDigit_of_mem_int there
  have double : ∀ x : Binary64, some (number x) = some s →
      (∃ c ∈ s.toList, c ∈ ['.', 'e', 'N', 'I']) ∧ ¬ ('u' ∈ s.toList ∨ 's' ∈ s.toList) := by
    rintro x same
    obtain rfl := Option.some.inj same
    obtain ⟨marks, others⟩ := number_marks x
    exact ⟨marks, fun there => there.elim (fun there => (others _ there).2.1 rfl)
      fun there => (others _ there).2.2 rfl⟩
  have noLetter : ∀ n : Int, some (toString n) = some s →
      ¬ ('u' ∈ s.toList ∨ 's' ∈ s.toList) := fun n same there => there.elim
    (fun there => absurd (integer n same _ there) (by decide))
    fun there => absurd (integer n same _ there) (by decide)
  have noMark : ∀ n : Int, some (toString n) = some s →
      ¬ ∃ c ∈ s.toList, c ∈ ['.', 'e', 'N', 'I'] := by
    rintro n same ⟨c, there, marked⟩
    have digit := integer n same c there
    simp only [List.mem_cons, List.not_mem_nil, or_false] at marked
    rcases marked with rfl | rfl | rfl | rfl <;> exact absurd digit (by decide)
  have plain : ∀ {v : Value}, word? v = some s → (v = .null ∨ ∃ b, v = .bool b) ∨
      (∃ n, v = .int n) ∨ ∃ x, v = .float x := by
    intro v word
    cases v with
    | null => exact .inl (.inl rfl)
    | bool b => exact .inl (.inr ⟨b, rfl⟩)
    | int n => exact .inr (.inl ⟨n, rfl⟩)
    | float x => exact .inr (.inr ⟨x, rfl⟩)
    | _ => cases word
  rcases plain h with first | ⟨n, rfl⟩ | ⟨x, rfl⟩ <;>
    rcases plain h' with second | ⟨m, rfl⟩ | ⟨y, rfl⟩
  · have same := h.trans h'.symm
    rcases first with rfl | ⟨b, rfl⟩ <;> rcases second with rfl | ⟨b', rfl⟩
    · exact .null
    · cases b' <;> exact absurd (Option.some.inj same) (by decide)
    · cases b <;> exact absurd (Option.some.inj same) (by decide)
    · cases b <;> cases b' <;> first
        | exact .bool _
        | exact absurd (Option.some.inj same) (by decide)
  · exact absurd (letter_of_word h first) (noLetter m h')
  · exact absurd (letter_of_word h first) (double y h').2
  · exact absurd (letter_of_word h' second) (noLetter n h)
  · have same : n.repr = m.repr := Option.some.inj (h.trans h'.symm)
    obtain rfl := Int.repr_inj.mp same
    exact .int n
  · exact absurd (double y h').1 (noMark n h)
  · exact absurd (letter_of_word h' second) (double x h).2
  · exact absurd (double x h).1 (noMark m h')
  · exact .float (number_eq_iff.mp (Option.some.inj (h.trans h'.symm)))

/-- The mark that the text of a value starts with; a word starts with none. -/
def opening? : Value → Option Char
  | .str _ => some '"'
  | .list .. => some '['
  | .dict .. => some '\x7b'
  | _ => none

theorem opening?_of_word {v : Value} {s : String} (h : word? v = some s) : opening? v = none := by
  cases v <;> first | rfl | cases h

/-- The first character of a text tells whether it is a word, a text value, a list or a mapping. -/
theorem Written.starts {v : Value} {cs : List Char} (h : Written v cs) :
    ∃ c rest, cs = c :: rest ∧ opening? v = if isMark c then some c else none := by
  cases h with
  | word h =>
    obtain ⟨given, plain⟩ := isWord_word h
    obtain ⟨c, rest, same⟩ := List.exists_cons_of_ne_nil given
    refine ⟨c, rest, same, ?_⟩
    rw [opening?_of_word h, if_neg (by simp [plain c (same ▸ List.mem_cons_self)])]
  | str s => exact ⟨'"', _, toList_string s, rfl⟩
  | list share h => exact ⟨'[', _, rfl, rfl⟩
  | dict share order sorted h => exact ⟨'\x7b', _, rfl, rfl⟩

/-- Texts that agree as far as one of them goes start alike. -/
theorem Written.opening_eq {a b : Value} {cs ds r s : List Char} (h : Written a cs)
    (h' : Written b ds) (same : cs ++ r = ds ++ s) : opening? a = opening? b := by
  obtain ⟨c, rest, rfl, opens⟩ := h.starts
  obtain ⟨d, rest', rfl, opens'⟩ := h'.starts
  obtain rfl := (List.cons.inj same).1
  rw [opens, opens']

/-- A text that starts with another character than the closing bracket. -/
def StartsBefore (close : Char) (t : List Char) : Prop := ∃ c rest, t = c :: rest ∧ c ≠ close

theorem Written.startsBefore {v : Value} {cs : List Char} (h : Written v cs) :
    StartsBefore ']' cs := by
  obtain ⟨c, rest, same, opens⟩ := h.starts
  refine ⟨c, rest, same, ?_⟩
  rintro rfl
  rw [if_pos (by decide)] at opens
  cases v <;> simp [opening?] at opens

theorem WrittenItems.startsBefore {vs : List Value} {ts : List (List Char)}
    (h : WrittenItems vs ts) : ∀ t ∈ ts, StartsBefore ']' t := by
  induction ts generalizing vs with
  | nil => exact nofun
  | cons t ts ih =>
    cases h with
    | cons first rest => exact List.forall_mem_cons.mpr ⟨first.startsBefore, ih rest⟩

theorem WrittenEntries.startsBefore {es : Entries} {ts : List (List Char)}
    (h : WrittenEntries es ts) : ∀ t ∈ ts, StartsBefore '\x7d' t := by
  induction ts generalizing es with
  | nil => exact nofun
  | cons t ts ih =>
    cases h with
    | cons k first rest =>
      refine List.forall_mem_cons.mpr ⟨?_, ih rest⟩
      rw [toList_string]
      exact ⟨'"', _, rfl, by decide⟩

theorem ended_nil : Ended [] := fun _ there => absurd there (by simp)

/-- Behind an item stands a mark. -/
theorem ended_trail {close : Char} (h : isMark close = true) (ts : List (List Char))
    (r : List Char) : Ended (trail close ts ++ r) := by
  intro c first
  cases ts with
  | nil =>
    obtain rfl : close = c := Option.some.inj first
    exact h
  | cons t ts =>
    obtain rfl : ',' = c := Option.some.inj first
    rfl

/-- Whether there are items is told by the first character. -/
theorem trail_of_enclosed {close : Char} {ts us : List (List Char)} {r s : List Char}
    (h : ∀ t ∈ ts, StartsBefore close t) (h' : ∀ u ∈ us, StartsBefore close u)
    (same : enclosed close ts ++ r = enclosed close us ++ s) :
    trail close ts ++ r = trail close us ++ s := by
  cases ts with
  | nil =>
    cases us with
    | nil => exact same
    | cons u us =>
      obtain ⟨c, rest, rfl, other⟩ := h' u List.mem_cons_self
      exact absurd (List.cons.inj same).1.symm other
  | cons t ts =>
    cases us with
    | nil =>
      obtain ⟨c, rest, rfl, other⟩ := h t List.mem_cons_self
      exact absurd (List.cons.inj same).1 other
    | cons u us => exact congrArg (',' :: ·) same

mutual

/-- A text tells its data, and where it ends. -/
theorem Written.same {a b : Value} {cs ds r s : List Char} : Written a cs → Written b ds →
    Ended r → Ended s → cs ++ r = ds ++ s → SameData a b ∧ r = s
  | .word h, other, ended, ended', equal => by
    have opens := (Written.word h).opening_eq other equal
    rw [opening?_of_word h] at opens
    cases other with
    | word h' =>
      obtain ⟨words, after⟩ := (isWord_word h).append_inj (isWord_word h') ended ended' equal
      obtain rfl := String.toList_inj.mp words
      exact ⟨sameData_of_word h h', after⟩
    | _ => cases opens
  | .str t, other, _, _, equal => by
    have opens := (Written.str t).opening_eq other equal
    cases other with
    | word h' => rw [opening?_of_word h'] at opens; cases opens
    | str u =>
      obtain ⟨rfl, after⟩ := string_append_inj equal
      exact ⟨.str t, after⟩
    | _ => cases opens
  | .list share h, other, _, _, equal => by
    have opens := (Written.list share h).opening_eq other equal
    cases other with
    | word h' => rw [opening?_of_word h'] at opens; cases opens
    | list share' h' =>
      obtain ⟨items, after⟩ := WrittenItems.same h h'
        (trail_of_enclosed h.startsBefore h'.startsBefore (List.cons.inj equal).2)
      exact ⟨.list share share' items, after⟩
    | _ => cases opens
  | .dict share order sorted h, other, _, _, equal => by
    have opens := (Written.dict share order sorted h).opening_eq other equal
    cases other with
    | word h' => rw [opening?_of_word h'] at opens; cases opens
    | dict share' order' sorted' h' =>
      obtain ⟨entries, after⟩ := WrittenEntries.same h h'
        (trail_of_enclosed h.startsBefore h'.startsBefore (List.cons.inj equal).2)
      obtain ⟨gs, alike, further⟩ :=
        List.perm_comp_forall₂ order.symm (sameEntries_iff.mp entries)
      exact ⟨.dict share share' (sameEntries_iff.mpr alike) (further.trans order'), after⟩
    | _ => cases opens

/-- The texts of items tell them, and where they end. -/
theorem WrittenItems.same {as bs : List Value} {ts us : List (List Char)} {r s : List Char} :
    WrittenItems as ts → WrittenItems bs us → trail ']' ts ++ r = trail ']' us ++ s →
    SameItems as bs ∧ r = s
  | .nil, .nil, equal => ⟨.nil, (List.cons.inj equal).2⟩
  | .nil, .cons _ _, equal => absurd (List.cons.inj equal).1 (by decide)
  | .cons _ _, .nil, equal => absurd (List.cons.inj equal).1 (by decide)
  | @WrittenItems.cons _ _ _ ts first rest, @WrittenItems.cons _ _ _ us first' rest', equal => by
    rw [trail_cons_append, trail_cons_append] at equal
    obtain ⟨item, after⟩ := Written.same first first' (ended_trail (by decide) ts r)
      (ended_trail (by decide) us s) (List.cons.inj equal).2
    obtain ⟨items, after'⟩ := WrittenItems.same rest rest' after
    exact ⟨.cons item items, after'⟩

/-- The texts of entries tell them, and where they end. -/
theorem WrittenEntries.same {es fs : Entries} {ts us : List (List Char)} {r s : List Char} :
    WrittenEntries es ts → WrittenEntries fs us → trail '\x7d' ts ++ r = trail '\x7d' us ++ s →
    SameEntries es fs ∧ r = s
  | .nil, .nil, equal => ⟨.nil, (List.cons.inj equal).2⟩
  | .nil, .cons _ _ _, equal => absurd (List.cons.inj equal).1 (by decide)
  | .cons _ _ _, .nil, equal => absurd (List.cons.inj equal).1 (by decide)
  | @WrittenEntries.cons k _ _ _ ts first rest, @WrittenEntries.cons k' _ _ _ us first' rest',
    equal => by
    rw [trail_cons_append, trail_cons_append, List.append_assoc, List.append_assoc] at equal
    obtain ⟨rfl, value⟩ := string_append_inj (List.cons.inj equal).2
    obtain ⟨item, after⟩ := Written.same first first' (ended_trail (by decide) ts r)
      (ended_trail (by decide) us s) (List.cons.inj value).2
    obtain ⟨entries, after'⟩ := WrittenEntries.same rest rest' after
    exact ⟨.cons item entries, after'⟩

end

/-! ## The same data has one text -/

/-- Entries that are told apart by the same texts, and have the same texts. -/
def WrittenAlike (e f : Value × Value) : Prop :=
  e.1 = f.1 ∧ ∀ cs ds, Written e.2 cs → Written f.2 ds → cs = ds

theorem texts_eq_of_writtenAlike {es fs : Entries} (h : List.Forall₂ WrittenAlike es fs)
    {ts us : List (List Char)} (texts : WrittenEntries es ts) (texts' : WrittenEntries fs us) :
    ts = us := by
  induction h generalizing ts us with
  | nil =>
    cases texts
    cases texts'
    rfl
  | cons first _ ih =>
    cases texts with
    | cons k value rest =>
      cases texts' with
      | cons k' value' rest' =>
        obtain ⟨key, same⟩ := first
        obtain rfl := Value.str.inj key
        rw [same _ _ value value', ih rest rest']

/-- Lists that are related entry by entry, under the same keys, have the same keys. -/
theorem keys_eq {α β : Type} {R : Value × α → Value × β → Prop} (keys : ∀ e f, R e f → e.1 = f.1)
    {es : List (Value × α)} {fs : List (Value × β)} (h : List.Forall₂ R es fs) :
    es.map Prod.fst = fs.map Prod.fst := by
  induction h with
  | nil => rfl
  | cons first _ ih => rw [List.map_cons, List.map_cons, keys _ _ first, ih]

/-- What holds of the keys of entries in their order depends on the keys only. -/
theorem pairwise_keys {α β : Type} {R : Value → Value → Prop} {es : List (Value × α)}
    {fs : List (Value × β)} (keys : es.map Prod.fst = fs.map Prod.fst)
    (h : es.Pairwise fun e f => R e.1 f.1) : fs.Pairwise fun e f => R e.1 f.1 := by
  have order : (es.map Prod.fst).Pairwise R := List.pairwise_map.mpr h
  rw [keys] at order
  exact List.pairwise_map.mp order

/-- Entries in the order of distinct keys are one list, in whatever order they were given. -/
theorem eq_of_sorted {es fs : Entries} (order : es.Perm fs)
    (sorted : es.Pairwise fun e f => keyText e.1 < keyText f.1)
    (sorted' : fs.Pairwise fun e f => keyText e.1 < keyText f.1) : es = fs :=
  order.eq_of_pairwise (fun _ _ _ _ below above => absurd below (String.lt_asymm above)) sorted
    sorted'

end Json

mutual

/-- The same data has one text. -/
theorem SameData.text_eq {a b : Value} {cs ds : List Char} :
    SameData a b → Written a cs → Written b ds → cs = ds
  | .null, .word h, .word h' => by rw [Option.some.inj (h.symm.trans h')]
  | .bool _, .word h, .word h' => by rw [Option.some.inj (h.symm.trans h')]
  | .int _, .word h, .word h' => by rw [Option.some.inj (h.symm.trans h')]
  | .float alike, .word h, .word h' => by
    rw [← Option.some.inj h, ← Option.some.inj h', number_eq_iff.mpr alike]
  | .str _, .str _, .str _ => rfl
  | .list _ _ same, .list _ h, .list _ h' => by rw [SameItems.texts_eq same h h']
  | .dict _ _ same order, .dict _ order' sorted h, .dict _ order'' sorted' h' => by
    obtain ⟨gs, alike, further⟩ := List.perm_comp_forall₂ order' (SameEntries.writtenAlike same)
    obtain rfl := eq_of_sorted ((further.trans order).trans order''.symm)
      (pairwise_keys (R := fun a b => keyText a < keyText b)
        (keys_eq (fun _ _ same => same.1) alike) sorted) sorted'
    rw [texts_eq_of_writtenAlike alike h h']

/-- The same items have the same texts. -/
theorem SameItems.texts_eq {as bs : List Value} {ts us : List (List Char)} :
    SameItems as bs → WrittenItems as ts → WrittenItems bs us → ts = us
  | .nil, .nil, .nil => rfl
  | .cons same rest, .cons h hs, .cons h' hs' => by
    rw [SameData.text_eq same h h', SameItems.texts_eq rest hs hs']

/-- The same entries have the same texts. -/
theorem SameEntries.writtenAlike {es fs : Entries} :
    SameEntries es fs → List.Forall₂ WrittenAlike es fs
  | .nil => .nil
  | .cons same rest =>
    .cons ⟨rfl, fun _ _ h h' => SameData.text_eq same h h'⟩ (SameEntries.writtenAlike rest)

end

/-! ## Data is written -/

namespace Json

/-- The text of a list or mapping without blanks. -/
theorem toList_enclose (opening closing : String) (depth : Nat) (items : List String) {c : Char}
    (single : closing.toList = [c]) : (JsonLayout.compact.enclose opening closing depth items).toList
      = opening.toList ++ enclosed c (items.map String.toList) := by
  have joined : ∀ (t : List Char) (ts : List (List Char)),
      [','].intercalate (t :: ts) ++ [c] = t ++ trail c ts := by
    intro t ts
    induction ts generalizing t with
    | nil => rw [List.intercalate_singleton]; rfl
    | cons u us ih =>
      rw [List.intercalate_cons_cons, List.append_assoc, ih, List.append_assoc]
      rfl
  cases items with
  | nil =>
    show (opening ++ closing).toList = _
    rw [String.toList_append, single]
    rfl
  | cons t ts =>
    have text : JsonLayout.compact.enclose opening closing depth (t :: ts)
        = opening ++ "" ++ ("," ++ "").intercalate (t :: ts) ++ "" ++ closing := rfl
    rw [text]
    simp only [String.toList_append, String.toList_intercalate, single, String.toList_empty,
      List.append_nil, List.map_cons, List.append_assoc]
    exact congrArg (opening.toList ++ ·) (joined t.toList (ts.map String.toList))

/-- Texts are ordered as keys. -/
theorem orders_keys : Sorting.Orders (fun e f : Value × String => e.1.less? f.1)
    (fun e => ∃ k, e.1 = .str k) fun e f => keyText e.1 ≤ keyText f.1 where
  total e f := String.le_total _ _
  trans := String.le_trans
  decides := by
    rintro ⟨_, t⟩ ⟨_, u⟩ ⟨k, rfl⟩ ⟨k', rfl⟩
    refine ⟨decide (k < k'), by rw [Value.less?], ?_⟩
    rw [decide_eq_true_iff]
    exact String.not_le.symm

/-- Keys that are texts and told apart by no other entry. -/
structure Keyed (es : Entries) : Prop where
  texts : ∀ e ∈ es, ∃ k, e.1 = .str k
  distinct : es.Pairwise fun e f => keyText e.1 ≠ keyText f.1

theorem keyed_of_entriesTrees {es : Entries} (h : entriesTrees es = true) : Keyed es := by
  induction es with
  | nil => exact ⟨nofun, .nil⟩
  | cons e es ih =>
    obtain ⟨k, v⟩ := e
    simp only [entriesTrees, entryTree, Bool.and_eq_true, Bool.not_eq_true'] at h
    obtain ⟨⟨⟨isText, -⟩, apart⟩, rest⟩ := h
    obtain ⟨texts, distinct⟩ := ih rest
    obtain ⟨t, rfl⟩ : ∃ t, k = .str t := by
      cases k with
      | str t => exact ⟨t, rfl⟩
      | _ => cases isText
    refine ⟨List.forall_mem_cons.mpr ⟨⟨t, rfl⟩, texts⟩, List.pairwise_cons.mpr
      ⟨fun f there same => ?_, distinct⟩⟩
    obtain ⟨u, key⟩ := texts f there
    have other := List.any_eq_false.mp apart f there
    rw [key] at same other
    obtain rfl : t = u := same
    exact other (beq_self_eq_true _)

/-- A key with the text of its value, for an entry. -/
def PairOf (p : Value × String) (e : Value × Value) : Prop := p.1 = e.1 ∧ Written e.2 p.2.toList

/-- Entries are sorted by their keys. -/
theorem sortEntries_spec {ps : List (Value × String)} {es : Entries}
    (h : List.Forall₂ PairOf ps es) (keyed : Keyed es) :
    ∃ sorted fs, sortEntries ps = .ok sorted ∧ List.Forall₂ PairOf sorted fs ∧ fs.Perm es ∧
      fs.Pairwise fun e f => keyText e.1 < keyText f.1 := by
  have keys := keys_eq (fun _ _ pair => pair.1) h
  have kind : ∀ p ∈ ps, ∃ k, p.1 = .str k := by
    intro p there
    obtain ⟨e, inside, same⟩ :=
      List.mem_map.mp (keys ▸ List.mem_map_of_mem there : p.1 ∈ es.map Prod.fst)
    exact same ▸ keyed.texts e inside
  obtain ⟨sorted, run, order, perm⟩ := Sorting.sort?_spec orders_keys kind
  obtain ⟨fs, pairs, perm'⟩ := List.perm_comp_forall₂ perm h
  have order' : fs.Pairwise fun e f => keyText e.1 ≤ keyText f.1 :=
    pairwise_keys (R := fun a b => keyText a ≤ keyText b)
      (keys_eq (fun _ _ pair => pair.1) pairs) order
  have distinct : fs.Pairwise fun e f => keyText e.1 ≠ keyText f.1 :=
    (perm'.pairwise_iff fun other => Ne.symm other).mpr keyed.distinct
  have run' : sortedBy? Prod.fst ps = some sorted := run
  refine ⟨sorted, fs, by rw [sortEntries, run'], pairs, perm', ?_⟩
  exact (order'.and distinct).imp fun ⟨le, ne⟩ =>
    (String.not_le.mp fun ge => ne (String.le_antisymm le ge))

/-- The keys of sorted entries are put in front of their texts. -/
theorem mapM_member {ps : List (Value × String)} {fs : Entries} (h : List.Forall₂ PairOf ps fs)
    (keys : ∀ e ∈ fs, ∃ k, e.1 = .str k) :
    ∃ ms, ps.mapM (member .compact) = .ok ms ∧ WrittenEntries fs (ms.map String.toList) := by
  induction h with
  | nil => exact ⟨[], rfl, .nil⟩
  | @cons p e ps fs first _ ih =>
    obtain ⟨⟨k, isKey⟩, keys⟩ := List.forall_mem_cons.mp keys
    obtain ⟨ms, run, written⟩ := ih keys
    obtain ⟨q, t⟩ := p
    obtain ⟨key, v⟩ := e
    obtain ⟨rfl, value⟩ := first
    obtain rfl : q = .str k := isKey
    refine ⟨(string k ++ ":" ++ t) :: ms, ?_, ?_⟩
    · have single : member .compact (.str k, t) = .ok (string k ++ ":" ++ t) := rfl
      rw [List.mapM_cons, single, run]
      rfl
    · have text : (string k ++ ":" ++ t).toList = (string k).toList ++ ':' :: t.toList := by
        rw [String.toList_append, String.toList_append, List.append_assoc]
        rfl
      rw [List.map_cons, text]
      exact .cons k value written

/-- Short data has a text, and other data is too long to be written. -/
inductive Encodes {α : Type} (P : α → Prop) : Bool → Except Fault α → Prop
  | ok {x : α} (h : P x) : Encodes P true (.ok x)
  | tooLong : Encodes P false (.error integerTooLong)

/-- The first part that is too long ends the writing. -/
theorem Encodes.bind {α β : Type} {a b : Bool} {P : α → Prop} {Q : β → Prop}
    {r : Except Fault α} {f : α → Except Fault β} (h : Encodes P a r)
    (further : ∀ x, P x → Encodes Q b (f x)) : Encodes Q (a && b) (r >>= f) := by
  cases h with
  | ok holds => exact further _ holds
  | tooLong => exact .tooLong

theorem Encodes.map {α β : Type} {a : Bool} {P : α → Prop} {Q : β → Prop} {r : Except Fault α}
    {f : α → β} (h : Encodes P a r) (further : ∀ x, P x → Q (f x)) :
    Encodes Q a (r >>= fun x => pure (f x)) := by
  rw [← Bool.and_true a]
  exact h.bind fun x holds => .ok (further x holds)

theorem encodes_int (n : Int) : Encodes (fun s => Written (.int n) s.toList)
    (decide (n.natAbs < integerBound)) (integerText n) := by
  by_cases short : n.natAbs < integerBound
  · have text : integerText n = .ok (toString n) := if_pos short
    rw [text, decide_eq_true short]
    exact .ok (.word rfl)
  · have text : integerText n = .error integerTooLong := if_neg short
    rw [text, decide_eq_false short]
    exact .tooLong

mutual

/-- Data is written unless it has an integer that is too long. -/
theorem encodes : ∀ (v : Value) (depth : Nat), v.isTree = true →
    Encodes (fun s => Written v s.toList) v.isShort (encode .compact depth v)
  | .null, _, _ => .ok (.word rfl)
  | .bool _, _, _ => .ok (.word rfl)
  | .int n, _, _ => by
    rw [encode, Value.isShort]
    exact encodes_int n
  | .float _, _, _ => .ok (.word rfl)
  | .str s, _, _ => .ok (.str s)
  | .list share items, depth, tree => by
    rw [encode, Value.isShort]
    refine (encodesItems items (depth + 1) tree).map fun ss written => ?_
    rw [toList_enclose "[" "]" depth ss rfl]
    exact .list share written
  | .dict share entries, depth, tree => by
    have keyed := keyed_of_entriesTrees tree
    rw [encode, Value.isShort, ← Bool.and_true (entriesShort entries)]
    refine (encodesPairs entries (depth + 1) tree).bind fun ps pairs => ?_
    obtain ⟨sorted, fs, run, pairs', order, inOrder⟩ := sortEntries_spec pairs keyed
    obtain ⟨ms, run', written⟩ :=
      mapM_member pairs' fun e there => keyed.texts e (order.subset there)
    rw [run]
    show Encodes _ true (sorted.mapM (member .compact) >>= fun ms => pure _)
    rw [run']
    refine .ok ?_
    rw [toList_enclose "\x7b" "\x7d" depth ms rfl]
    exact .dict share order inOrder written

theorem encodesItems : ∀ (vs : List Value) (depth : Nat), allTrees vs = true →
    Encodes (fun ss => WrittenItems vs (ss.map String.toList)) (allShort vs)
      (encodeItems .compact depth vs)
  | [], _, _ => .ok .nil
  | v :: vs, depth, trees => by
    rw [allTrees, Bool.and_eq_true] at trees
    rw [encodeItems, allShort]
    exact (encodes v depth trees.1).bind fun s written =>
      (encodesItems vs depth trees.2).map fun ss written' => .cons written written'

theorem encodesPairs : ∀ (es : List (Value × Value)) (depth : Nat), entriesTrees es = true →
    Encodes (fun ps => List.Forall₂ PairOf ps es) (entriesShort es) (encodePairs .compact depth es)
  | [], _, _ => .ok .nil
  | e :: es, depth, trees => by
    rw [entriesTrees, Bool.and_eq_true, Bool.and_eq_true] at trees
    rw [encodePairs, entriesShort]
    exact (encodesPair e depth trees.1.1).bind fun p pair =>
      (encodesPairs es depth trees.2).map fun ps pairs => .cons pair pairs

theorem encodesPair : ∀ (e : Value × Value) (depth : Nat), entryTree e = true →
    Encodes (fun p => PairOf p e) (entryShort e) (encodePair .compact depth e)
  | (k, v), depth, tree => by
    rw [entryTree, Bool.and_eq_true] at tree
    rw [encodePair, entryShort]
    exact (encodes v depth tree.2).map fun s written => ⟨rfl, written⟩

end

/-- Data that has a text is written so. -/
theorem written_of_text {v : Value} {s : String} (tree : v.isTree = true)
    (h : text .compact v = .ok s) : Written v s.toList := by
  have outcome := encodes v 0 tree
  rw [← text, h] at outcome
  generalize v.isShort = short at outcome
  cases outcome with
  | ok written => exact written

/-- Data has a text just if none of its integers is too long, and else the writing ends with that
fault. -/
theorem text_of_isTree {v : Value} (tree : v.isTree = true) :
    (v.isShort = true ∧ ∃ s, text .compact v = .ok s) ∨
      v.isShort = false ∧ text .compact v = .error integerTooLong := by
  have outcome := encodes v 0 tree
  rw [← text] at outcome
  generalize v.isShort = short at outcome
  generalize text .compact v = result at outcome
  cases outcome with
  | ok written => exact .inl ⟨rfl, _, rfl⟩
  | tooLong => exact .inr ⟨rfl, rfl⟩

/-- **The text of data is canonical.** Two data have one text just if they are the same. -/
theorem text_eq_iff {a b : Value} {s t : String} (treeA : a.isTree = true) (treeB : b.isTree = true)
    (h : text .compact a = .ok s) (h' : text .compact b = .ok t) : s = t ↔ SameData a b := by
  have written := written_of_text treeA h
  have written' := written_of_text treeB h'
  constructor
  · rintro rfl
    exact (written.same written' ended_nil ended_nil rfl).1
  · exact fun same => String.toList_inj.mp (same.text_eq written written')

end Json

end DataShape
