import DataShape.Proofs.Catalog.Numeral
import DataShape.Proofs.Equality
import DataShape.Proofs.Schema.Coercion

/-! # Writing a record and reading it back

A record whose values are of the classes of its fields' types can be written, every value through
the `to_string` of its type, and a conversion reads the record back. What is assumed is what is
assumed of texts alone: that a real number and a moment can be read from their own texts.

* `CatalogKind.Owns` — the values of the class of a kind; `Value.ReadsBack` — values that can be read
  from their own texts.
* `Value.Restores` — an equal value of the same classes, item by item in lists.
* `CatalogKind.round_trip` — the conversions of a kind to texts and from texts are inverse.
* `marshalRecord` — write a record.
* `marshal_roundTrip` — a record that was written is read back. -/

namespace DataShape

/-! ## Values -/

/-- The values of the class of a kind: an integer has as many digits as one may have, and a real
number is one. -/
def CatalogKind.Owns : CatalogKind → Value → Prop
  | text, .str _ => True
  | number, .int n => n.natAbs < integerBound
  | number, .float x => x.isNaN = false
  | boolean, .bool _ => True
  | dateTime, .datetime _ => True
  | date, .date _ => True
  | time, .time _ => True
  | _, _ => False

/-- A real number or a moment equals what its own text is read as. -/
def Value.ReadsBack : Value → Prop
  | .float x => ∃ y, Number.real? x.toText.toList = some y ∧ y.eq x = true
  | .datetime x => ∃ y, IsoReader.dateTime x.iso = .ok y ∧ y.same x = true
  | .date x => ∃ y, IsoReader.date x.iso = .ok y ∧ y = x
  | .time x => ∃ y, IsoReader.time x.iso = .ok y ∧ y.same x = true
  | _ => True

/-- The same value again: an equal one, and an instance of the same native types. -/
structure Value.Again (x v : Value) : Prop where
  equal : x.eq v = true
  classes : ∀ t : NativeType, t.holds x = t.holds v

/-- A value is restored as the same value again, and a list as a list of the same values. -/
def Value.Restores (x : Value) : Value → Prop
  | .list _ vs => ∃ xs, x = .fresh xs ∧ List.Forall₂ Value.Again xs vs
  | v => x.Again v

/-- A value of the class of a kind is no list. -/
theorem CatalogKind.Owns.restores {k : CatalogKind} {x v : Value} (owns : k.Owns v)
    (again : x.Again v) : x.Restores v := by
  cases v with
  | list share vs => cases k <;> cases owns
  | _ => exact again

theorem Value.Restores.equal {x v : Value} (h : x.Restores v) : x.eq v = true := by
  cases v with
  | list share vs =>
    obtain ⟨xs, rfl, same⟩ := h
    exact eqItems_of_forall₂ (same.imp fun _ _ again => same_of_eq again.equal)
  | _ => exact Again.equal h

/-- A reader of moments reads a text of characters that are written as it stands. -/
theorem momentOf_written {α : Type} {reader : String → Except IsoFault α} {make : α → Value}
    {s : String} (written : AllWritten s.toList) {c : Char} (there : c ∈ s.toList) {a : α}
    (read : reader s = .ok a) : momentOf reader make (.str s) = .ok (make a) := by
  unfold momentOf
  dsimp only
  rw [written.trim_eq, isEmpty_eq_false there,
    expandZulu_eq_self fun c there => not_zulu_of_isWritten (written c there), read]
  rfl

section RoundTrip

variable {v : Value}

/-- A conversion to texts gives a text, from which another conversion gives the value again, both in
every world and without effect. -/
def Marshaller.Inverts (writer reader : Marshaller) (v : Value) : Prop :=
  ∃ text x, (∀ d w, exec (writer.apply d v) w = (.ok (.str text), w)) ∧
    (∀ d w, exec (reader.apply d (.str text)) w = (.ok x, w)) ∧ x.Again v

/-- A text of a number is read as the number that it names. -/
theorem exec_numberFromText {s : String} (written : AllWritten s.toList) {c : Char}
    (there : c ∈ s.toList) {x : Value} (read : numberOfText s = .ok x)
    (marked : markNumber x = pure x) (d : Dispatch) (w : World) :
    exec (Marshaller.numberFromText.apply d (.str s)) w = (.ok x, w) := by
  unfold Marshaller.apply
  simp only [Value.isNull, textOf_str, pure_bind, written.trim_eq, isEmpty_eq_false there, read]
  show exec (markNumber x) w = _
  rw [marked]
  rfl

theorem inverts_int {n : Int} (short : n.natAbs < integerBound) :
    Marshaller.numberToText.Inverts .numberFromText (.int n) := by
  obtain ⟨c, there⟩ : ∃ c, c ∈ (toString n).toList := by
    rw [toList_toString_int]
    split
    · exact ⟨_, List.mem_cons_self⟩
    · exact List.exists_mem_of_ne_nil _ Nat.toDigits_ne_nil
  refine ⟨toString n, .int n, fun d w => ?_, exec_numberFromText (allWritten_int n) there
    (numberOfText_toString short) rfl, ?_, fun _ => rfl⟩
  · have text : integerText n = .ok (toString n) := if_pos short
    show exec (do return Value.str (← shown d (.int n))) w = _
    rw [shown, text]
    rfl
  · simp [Value.eq, Value.numericEq, Value.integral?]

theorem inverts_float {x : Binary64} (number : x.isNaN = false) (back : (Value.float x).ReadsBack) :
    Marshaller.numberToText.Inverts .numberFromText (.float x) := by
  obtain ⟨y, read, same⟩ := back
  obtain ⟨written, marks⟩ := Binary64.written_toText number
  obtain ⟨c, there⟩ : ∃ c, c ∈ x.toText.toList := by
    rcases marks with there | there | there <;> exact ⟨_, there⟩
  refine ⟨x.toText, .float y, fun d w => ?_, exec_numberFromText written there
    (numberOfText_toText number read) ?_, same, fun t => by cases t <;> rfl⟩
  · show exec (do return Value.str (← shown d (.float x))) w = _
    rw [shown]
    rfl
  · cases y with
    | nan mark =>
      rw [Binary64.nan_eq] at same
      cases same
    | _ => rfl

theorem inverts_bool (b : Bool) : Marshaller.booleanToText.Inverts .booleanFromText (.bool b) := by
  have read : ∀ b : Bool, Text.trim (if b then "true" else "false") = (if b then "true" else "false") ∧
      booleanOfText (if b then "true" else "false") = b := by decide +kernel
  refine ⟨if b then "true" else "false", .bool b, fun d w => ?_, fun d w => ?_, ?_, fun _ => rfl⟩
  · cases b <;> rfl
  · unfold Marshaller.apply
    simp only [Value.isNull, textOf_str, pure_bind, (read b).1, (read b).2]
    cases b <;> rfl
  · cases b <;> rfl

/-- A moment is read back from its text. -/
theorem inverts_moment {α : Type} {reader : String → Except IsoFault α} {make : α → Value}
    {m : Marshaller} (run : ∀ d s, m.apply d (.str s) = ofExcept (momentOf reader make (.str s)))
    {text : String} (written : AllWritten text.toList) {c : Char} (there : c ∈ text.toList)
    (writes : ∀ d, Marshaller.isoToText.apply d v = pure (.str text)) {a : α}
    (read : reader text = .ok a) (again : (make a).Again v) :
    Marshaller.isoToText.Inverts m v := by
  refine ⟨text, make a, fun d w => ?_, fun d w => ?_, again⟩
  · rw [writes]
    rfl
  · rw [run, momentOf_written written there read]
    rfl

/-- **Inverse conversions.** For a value of the class of a kind the conversions of the kind are
inverse. -/
theorem CatalogKind.round_trip {k : CatalogKind} (owns : k.Owns v) (back : v.ReadsBack) :
    ∃ writer reader, k.conversions? = some (writer, reader) ∧ writer.Inverts reader v := by
  cases k with
  | object => cases v <;> cases owns
  | text =>
    cases v with
    | str s =>
      exact ⟨_, _, rfl, s, .str s, fun _ _ => rfl, fun _ _ => rfl, by simp [Value.eq], fun _ => rfl⟩
    | _ => cases owns
  | number =>
    cases v with
    | int n => exact ⟨_, _, rfl, inverts_int owns⟩
    | float x => exact ⟨_, _, rfl, inverts_float owns back⟩
    | _ => cases owns
  | boolean =>
    cases v with
    | bool b => exact ⟨_, _, rfl, inverts_bool b⟩
    | _ => cases owns
  | dateTime =>
    cases v with
    | datetime x =>
      obtain ⟨y, read, same⟩ := back
      -- What is read back is the same moment, though its offset may be written in another way.
      have again : (Value.datetime y).Again (.datetime x) := ⟨same, fun t => by cases t <;> rfl⟩
      have text : x.iso.toList = x.date.isoChars ++ 'T' :: x.time.isoChars := String.toList_ofList
      refine ⟨_, _, rfl, inverts_moment (fun _ _ => by rw [Marshaller.apply, dateTimeOf]) ?_
        (c := 'T') ?_ (fun _ => rfl) read again⟩
      · rw [text]
        exact x.date.allWritten.append (.cons (by decide) x.time.allWritten)
      · simp [text]
    | _ => cases owns
  | date =>
    cases v with
    | date x =>
      obtain ⟨y, read, rfl⟩ := back
      have text : y.iso.toList = y.isoChars := String.toList_ofList
      refine ⟨_, _, rfl, inverts_moment (fun _ _ => by rw [Marshaller.apply, dateOf]) ?_
        (c := '-') ?_ (fun _ => rfl) read ⟨by simp [Value.eq], fun _ => rfl⟩⟩
      · exact text ▸ y.allWritten
      · simp [text, Date.isoChars]
    | _ => cases owns
  | time =>
    cases v with
    | time x =>
      obtain ⟨y, read, same⟩ := back
      have again : (Value.time y).Again (.time x) := ⟨same, fun t => by cases t <;> rfl⟩
      have text : x.iso.toList = x.isoChars := String.toList_ofList
      refine ⟨_, _, rfl, inverts_moment (fun _ _ => by rw [Marshaller.apply, timeOf]) ?_
        (c := ':') ?_ (fun _ => rfl) read again⟩
      · exact text ▸ x.allWritten
      · simp [text, Time.isoChars]
    | _ => cases owns

end RoundTrip

/-! ## Records -/

/-- Write a value of a field through the `to_string` of the field's type, an array item by item. -/
def marshalField (d : Dispatch) (field value : Value) : Action Value := do
  let type ← heldType d field
  match ← holdsArray d field, value.sequence? with
  | true, some items =>
      return .fresh (← items.mapM fun item => invoke d type (.str "to_string") [item])
  | _, _ => invoke d type (.str "to_string") [value]

/-- Write an entry of a record. -/
def marshalEntry (d : Dispatch) (schema : Nat) (entry : Value × Value) : Action (Value × Value) := do
  return (entry.1, ← marshalField d (← findField d schema entry.1) entry.2)

/-- Write the entries of a record. -/
def marshalRecord (d : Dispatch) (schema : Nat) (entries : Entries) : Action Value := do
  return .freshDict (← entries.mapM (marshalEntry d schema))

/-- A field has a type of a kind that can be written and read, and is an array or not. -/
structure World.Carries (w : World) (s : Nat) (name : String) (f t : Nat) (k : CatalogKind)
    (array : Bool) : Prop where
  named : w.fieldNamed? s (.str name) = some (.field f)
  held : (w.field f).type = .type t
  marshals : w.Marshals t k
  isArray : (w.field f).isArray = array

/-- An entry gives a field of a type of the catalog a value of the type's class that can be read from
its own text, or a list of such values where the field is an array. -/
inductive World.Fits (w : World) (s : Nat) : Value × Value → Prop where
  | single {name : String} {f t : Nat} {k : CatalogKind} (carries : w.Carries s name f t k false)
      {v : Value} (owns : k.Owns v) (back : v.ReadsBack) : Fits w s (.str name, v)
  | array {name : String} {f t : Nat} {k : CatalogKind} (carries : w.Carries s name f t k true)
      (share : Nat) {items : List Value} (owned : ∀ v ∈ items, k.Owns v ∧ v.ReadsBack) :
      Fits w s (.str name, .list share items)

section Records

variable {call : Provider} (serves : call.ServesCatalog) (depth : Nat) {w : World}
  (sound : w.SoundSchemas)

include serves sound

/-- A text of a type's class is read through the reader of the kind, or it is native. -/
theorem exec_convertBy_text {f t : Nat} {k : CatalogKind} (held : (w.field f).type = .type t)
    (kind : w.HasKind t k) {writer reader : Marshaller}
    (conversions : k.conversions? = some (writer, reader)) {text : String} {x : Value}
    (reads : ∀ d w, exec (reader.apply d (.str text)) w = (.ok x, w)) :
    exec (convertBy (call.dispatch (depth + 1)) (.field f) (.str text)) w = (.ok x, w) := by
  have found : k.reader? = some reader := by
    rw [CatalogKind.reader?, conversions]
    rfl
  by_cases isText : k = .text
  -- a text is native to the kind of texts and stays as it is
  · subst isText
    obtain rfl : Marshaller.identity = reader := (Prod.mk.inj (Option.some.inj conversions)).2
    obtain rfl : Value.str text = x :=
      Except.ok.inj (Prod.mk.inj (reads (call.dispatch depth) w)).1
    refine w.exec_convertBy_of_not_reads sound.plain _ (fun t' held' => ?_)
      (CatalogKind.Accepts.not_reads (.inr (show CatalogKind.text.Holds _ from rfl)) held kind)
    obtain rfl := FieldType.type.inj (held.symm.trans held')
    exact kind.representation ▸ CatalogKind.isRepresentation _
  · have foreign : hasRepresentation? (w.representation t) (.str text) = some false := by
      rw [kind.representation]
      cases k <;> first | rfl | contradiction
    obtain ⟨c, readsThrough⟩ : ∃ c, w.reader? t = some c := by
      have installed := kind.reader
      rw [found] at installed
      obtain ⟨n, member⟩ := installed
      exact ⟨reader.capability "from_string" n, by rw [World.reader?, member]; rfl⟩
    have through : w.Reads f (.str text) t c := ⟨rfl, held, foreign, readsThrough⟩
    rw [through.exec_convertBy sound.plain, readThrough_eq]
    refine exec_orElseOn_ok ?_ _ _
    rw [textOf_str, pure_bind, kind.exec_readText serves depth sound.plain found]
    exact reads _ _

/-- A value of the class of a field's type is written as a value that is converted to it again. -/
theorem exists_written {f t : Nat} {k : CatalogKind} (held : (w.field f).type = .type t)
    (marshals : w.Marshals t k) {v : Value} (owns : k.Owns v) (back : v.ReadsBack) :
    ∃ e, exec (invoke (call.dispatch (depth + 1)) (.type t) (.str "to_string") [v]) w = (.ok e, w) ∧
      ∃ x, exec (convertBy (call.dispatch (depth + 1)) (.field f) e) w = (.ok x, w) ∧
        x.Again v := by
  obtain ⟨writer, reader, conversions, text, x, writes, reads, again⟩ :=
    CatalogKind.round_trip owns back
  have installed := marshals.writer
  rw [CatalogKind.writer?, conversions] at installed
  refine ⟨.str text, ?_, x, ?_, again⟩
  · rw [World.HasConversion.exec_invoke serves depth sound.plain installed]
    exact writes _ _
  · exact exec_convertBy_text serves depth sound held marshals.toHasKind conversions reads

omit serves in
theorem exec_heldType {d : Dispatch} {f t : Nat} (held : (w.field f).type = .type t) :
    exec (heldType d (.field f)) w = (.ok (.type t), w) := by
  show exec (do return (← get).fieldType f) w = _
  rw [exec_bind_ok (exec_get w), sound.plain.fieldType, held]
  rfl

/-- What a field that is no array is given is written as a value that is converted to it again. -/
theorem exists_written_single {s f t : Nat} {name : String} {k : CatalogKind}
    (carries : w.Carries s name f t k false) {v : Value} (owns : k.Owns v) (back : v.ReadsBack)
    (sanitizing : Bool) :
    ∃ e, exec (marshalField (call.dispatch (depth + 1)) (.field f) v) w = (.ok e, w) ∧
      ∃ x, exec (convertField (call.dispatch (depth + 1)) sanitizing (.field f) e) w
        = (.ok (some x), w) ∧ x.Restores v := by
  have single : exec (holdsArray (call.dispatch (depth + 1)) (.field f)) w = (.ok false, w) :=
    carries.isArray ▸ exec_fieldIsArray _ sound.plain f
  obtain ⟨e, written, x, converted, again⟩ :=
    exists_written serves depth sound carries.held carries.marshals owns back
  refine ⟨e, ?_, x, ?_, owns.restores again⟩
  · unfold marshalField
    rw [exec_bind_ok (exec_heldType sound carries.held), exec_bind_ok single]
    exact written
  · unfold convertField
    rw [exec_bind_ok single]
    exact exec_bind_ok converted _

/-- What an array is given is written item by item, as a value that is converted to it again. -/
theorem exists_written_array {s f t : Nat} {name : String} {k : CatalogKind}
    (carries : w.Carries s name f t k true) (share : Nat) {items : List Value}
    (owned : ∀ v ∈ items, k.Owns v ∧ v.ReadsBack) (sanitizing : Bool) :
    ∃ e, exec (marshalField (call.dispatch (depth + 1)) (.field f) (.list share items)) w
        = (.ok e, w) ∧
      ∃ x, exec (convertField (call.dispatch (depth + 1)) sanitizing (.field f) e) w
        = (.ok (some x), w) ∧ x.Restores (.list share items) := by
  have array : exec (holdsArray (call.dispatch (depth + 1)) (.field f)) w = (.ok true, w) :=
    carries.isArray ▸ exec_fieldIsArray _ sound.plain f
  obtain ⟨es, written, all⟩ := exec_mapM_forall₂ (List.forall₂_same.mpr fun i there =>
    exists_written serves depth sound carries.held carries.marshals (owned i there).1
      (owned i there).2)
  obtain ⟨xs, converted, same⟩ := exec_mapM_forall₂ all.flip
  refine ⟨.fresh es, ?_, .fresh xs, ?_, xs, rfl, same⟩
  · unfold marshalField
    rw [exec_bind_ok (exec_heldType sound carries.held), exec_bind_ok array]
    exact exec_bind_ok written _
  · unfold convertField
    rw [exec_bind_ok array]
    exact exec_bind_ok converted _

/-- The value of an entry that fits is written as a value that is converted to it again. -/
theorem World.Fits.exists_written {s : Nat} {entry : Value × Value} (fits : w.Fits s entry)
    (sanitizing : Bool) :
    ∃ e, exec (marshalEntry (call.dispatch (depth + 1)) s entry) w = (.ok (entry.1, e), w) ∧
      ∃ x, (∀ converted, exec (convertEntry (call.dispatch (depth + 1)) s sanitizing converted
          (entry.1, e)) w = (.ok (converted ++ [(entry.1, x)]), w)) ∧ x.Restores entry.2 := by
  obtain ⟨name, f, key, named, e, written, x, converted, same⟩ : ∃ name f, entry.1 = .str name ∧
      w.fieldNamed? s entry.1 = some (.field f) ∧
      ∃ e, exec (marshalField (call.dispatch (depth + 1)) (.field f) entry.2) w = (.ok e, w) ∧
        ∃ x, exec (convertField (call.dispatch (depth + 1)) sanitizing (.field f) e) w
          = (.ok (some x), w) ∧ x.Restores entry.2 := by
    cases fits with
    | single carries owns back =>
      exact ⟨_, _, rfl, carries.named,
        exists_written_single serves depth sound carries owns back sanitizing⟩
    | array carries share owned =>
      exact ⟨_, _, rfl, carries.named,
        exists_written_array serves depth sound carries share owned sanitizing⟩
  have found : exec (findField (call.dispatch (depth + 1)) s entry.1) w = (.ok (.field f), w) := by
    rw [sound.exec_findField _ s (by rw [key]; rfl), named]
    rfl
  refine ⟨e, ?_, x, fun before => ?_, same⟩
  · unfold marshalEntry
    rw [exec_bind_ok found, exec_bind_ok written]
    rfl
  · unfold convertEntry
    rw [exec_bind_ok found]
    exact exec_bind_ok converted _

end Records

/-- Entries each of which is converted to one entry are converted to these. -/
theorem exec_convertEntries_forall₂ {d : Dispatch} {w : World} {s : Nat} {sanitizing : Bool}
    {R : Value × Value → Value × Value → Prop} {encoded entries : Entries}
    (each : List.Forall₂ (fun c e => ∃ x, (∀ converted,
      exec (convertEntry d s sanitizing converted c) w = (.ok (converted ++ [x]), w)) ∧ R x e)
      encoded entries) :
    ∃ converted, exec (convertEntries d s sanitizing encoded) w = (.ok converted, w) ∧
      List.Forall₂ R converted entries := by
  have fold : ∀ before, ∃ converted,
      exec (encoded.foldlM (convertEntry d s sanitizing) before) w
        = (.ok (before ++ converted), w) ∧ List.Forall₂ R converted entries := by
    induction each with
    | nil => exact fun before => ⟨[], by rw [List.append_nil]; rfl, .nil⟩
    | cons head _ ih =>
      intro before
      obtain ⟨x, first, holds⟩ := head
      obtain ⟨converted, further, all⟩ := ih (before ++ [x])
      refine ⟨x :: converted, ?_, .cons holds all⟩
      rw [List.foldlM_cons, exec_bind_ok (first before), further, List.append_assoc]
      rfl
  exact fold []

/-- **Round trip.** In every session, a record that gives fields of the catalog values of their types'
classes is written without a fault, and a conversion of what was written gives back the record: the
same names in the same order, with the same values again. -/
theorem marshal_roundTrip {call : Provider} (user : call.Within World.Develops)
    (serves : call.ServesCatalog) {depth : Nat} {w₀ w : World} (start : w₀.NoObjects)
    (run : SchemaRun (call.dispatch (depth + 1)) w₀ w) {s : Nat} {entries : Entries}
    (fits : ∀ e ∈ entries, w.Fits s e) (share : Nat) (sanitizing : Bool) :
    ∃ encoded converted,
      exec (marshalRecord (call.dispatch (depth + 1)) s entries) w = (.ok encoded, w) ∧
      exec (convert (call.dispatch (depth + 1)) s encoded sanitizing) w
        = (.ok (.freshDict converted), w) ∧
      List.Forall₂ (fun c e => c.1 = e.1 ∧ c.2.Restores e.2) converted entries ∧
      (Value.freshDict converted).eq (.dict share entries) = true := by
  have sound := run.sound user start
  have written : List.Forall₂ (fun e e' => ∃ c,
      exec (marshalEntry (call.dispatch (depth + 1)) s e') w = (.ok c, w) ∧
      ∃ x, (∀ converted, exec (convertEntry (call.dispatch (depth + 1)) s sanitizing converted c) w
        = (.ok (converted ++ [x]), w)) ∧ x.1 = e.1 ∧ x.2.Restores e.2) entries entries := by
    refine List.forall₂_same.mpr fun e there => ?_
    obtain ⟨c, written, x, converted, restores⟩ :=
      (fits e there).exists_written serves depth sound sanitizing
    exact ⟨(e.1, c), written, (e.1, x), converted, rfl, restores⟩
  obtain ⟨encoded, writes, each⟩ := exec_mapM_forall₂ written
  obtain ⟨converted, reads, same⟩ := exec_convertEntries_forall₂ each
  have texts : ∀ e ∈ entries, ∃ name, e.1 = .str name := fun e there => by
    cases fits e there <;> exact ⟨_, rfl⟩
  have entrywise : List.Forall₂ SameEntry converted entries := by
    refine ((List.forall₂_and_left _ _).mpr ⟨texts, same.flip⟩).flip.imp ?_
    rintro c e ⟨⟨name, key⟩, under, restores⟩
    exact ⟨name, under.trans key, key, Value.same_of_eq restores.equal⟩
  exact ⟨.freshDict encoded, converted, exec_bind_ok writes _, exec_bind_ok reads _, same,
    eq_dict_of_forall₂ entrywise 0 share⟩

/-- Whether a value is a field. -/
def Value.isField (f : Nat) : Value → Bool
  | .field g => g == f
  | _ => false

instance (found : Option Value) (f : Nat) : Decidable (found = some (.field f)) :=
  decidable_of_iff (found.any (Value.isField f) = true) <| by
  rw [Option.any_eq_true]
  constructor
  · rintro ⟨v, rfl, same⟩
    cases v with
    | field g => rw [beq_iff_eq.mp same]
    | _ => cases same
  · rintro rfl
    exact ⟨_, rfl, beq_self_eq_true f⟩

instance {w : World} {s : Nat} {name : String} {f t : Nat} {k : CatalogKind} {array : Bool} :
    Decidable (w.Carries s name f t k array) :=
  decidable_of_iff (w.fieldNamed? s (.str name) = some (.field f) ∧ (w.field f).type = .type t ∧
      w.Marshals t k ∧ (w.field f).isArray = array)
    ⟨fun ⟨named, held, marshals, isArray⟩ => ⟨named, held, marshals, isArray⟩,
      fun ⟨named, held, marshals, isArray⟩ => ⟨named, held, marshals, isArray⟩⟩

/-- A seeded registry and a schema with a field of every kind, one of them an array. -/
def marshalSession : List SchemaOperation :=
  [.newRegistry, .define 0 (.seed true),
   .compile 0 (.ofFields [("note", .str "FullName"), ("counts", .fresh [.str "Integer"]),
     ("done", .str "OnOff"), ("at", .str "DateTime"), ("day", .str "Date"), ("alarm", .str "Time")])
     .null .null]

/-- The real number next to a tenth. -/
def tenth : Binary64 := .finite false 7205759403792794 1018

/-- A moment with a fraction of a second and an offset of two hours. -/
def meeting : DateTime := ⟨⟨2024, 5, 6⟩, ⟨7, 8, 9, 500000, some 7200000000, false⟩⟩

/-- A time of day without an offset. -/
def lateEvening : Time := ⟨23, 59, 0, 0, none, false⟩

/-- A note between blanks, numbers, a truth value and moments are written and read back. -/
theorem marshal_roundTrip_appointment :
    let d := convertingOnly.dispatch 3
    let w := afterSession d marshalSession (.empty "" [])
    let entries : Entries := [(.str "note", .str " call "),
      (.str "counts", .fresh [.int 12, .int (-3), .float tenth]), (.str "done", .bool true),
      (.str "at", .datetime meeting), (.str "day", .date ⟨2024, 2, 29⟩),
      (.str "alarm", .time lateEvening)]
    convertingOnly.Within World.Develops ∧ convertingOnly.ServesCatalog ∧
    (World.empty "" []).NoObjects ∧ SchemaRun d (.empty "" []) w ∧ (∀ e ∈ entries, w.Fits 0 e) ∧
    ∃ encoded converted, exec (marshalRecord d 0 entries) w = (.ok encoded, w) ∧
      exec (convert d 0 encoded true) w = (.ok (.freshDict converted), w) ∧
      (Value.freshDict converted).eq (.freshDict entries) = true := by
  intro d w entries
  have start : (World.empty "" []).NoObjects := ⟨rfl, rfl, rfl, rfl⟩
  have run : SchemaRun d (.empty "" []) w := by
    refine SchemaRun.afterSession marshalSession (fun o there w => ?_) _ .start
    simp only [marshalSession, List.mem_cons, List.not_mem_nil, or_false] at there
    rcases there with rfl | rfl | rfl <;> first | trivial | exact nofun
  have carries : w.Carries 0 "note" 0 8 .text false ∧ w.Carries 0 "counts" 1 20 .number true ∧
      w.Carries 0 "done" 2 25 .boolean false ∧ w.Carries 0 "at" 3 4 .dateTime false ∧
      w.Carries 0 "day" 4 5 .date false ∧ w.Carries 0 "alarm" 5 6 .time false := by decide +kernel
  clear_value w
  have fits : ∀ e ∈ entries, w.Fits 0 e := by
    obtain ⟨note, counts, done, at', day, alarm⟩ := carries
    intro e there
    simp only [entries, List.mem_cons, List.not_mem_nil, or_false] at there
    rcases there with rfl | rfl | rfl | rfl | rfl | rfl
    · exact .single note trivial trivial
    · refine .array counts 0 fun v inside => ?_
      simp only [List.mem_cons, List.not_mem_nil, or_false] at inside
      rcases inside with rfl | rfl | rfl
      · exact ⟨by show (12 : Int).natAbs < integerBound; decide +kernel, trivial⟩
      · exact ⟨by show (-3 : Int).natAbs < integerBound; decide +kernel, trivial⟩
      · exact ⟨rfl, tenth, by decide +kernel, by decide +kernel⟩
    · exact .single done trivial trivial
    · exact .single at' trivial ⟨meeting, by decide +kernel, by decide +kernel⟩
    · exact .single day trivial ⟨⟨2024, 2, 29⟩, by decide +kernel, rfl⟩
    · exact .single alarm trivial ⟨lateEvening, by decide +kernel, by decide +kernel⟩
  obtain ⟨encoded, converted, writes, reads, -, same⟩ := marshal_roundTrip convertingOnly_within
    servesCatalog_convertingOnly start run fits 0 true
  exact ⟨convertingOnly_within, servesCatalog_convertingOnly, start, run, fits, encoded, converted,
    writes, reads, same⟩

end DataShape
