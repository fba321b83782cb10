import DataShape.Proofs.Schema.Extension

/-! # Conversions that sanitize

A mapping that is converted and sanitized loses the entries that its schema has no place for: those
under names of no field, and those with a single value for an array. The others are converted as if
the lost ones had not been there.

* `World.admissible` — the entries that are kept.
* `ReadsAlike.exec_convert_sanitizing` — to sanitize is to convert a copy of these.
* `SoundSchemas.converted_admissible` — what they are converted to is what the whole mapping is
  converted to, under their keys.
* `World.SanitizesTo`, `World.Completes`, `convert_sanitizing` — all of it, in every session.
* `sanitizing_differs` — a mapping that shows what its own conversion changes. -/

namespace DataShape

/-! ## Folds -/

/-- Items that leave the state of a fold alone can be left out of it. -/
theorem exec_foldlM_filter {α σ : Type} {S : World → Prop} {step next : σ → α → Action σ}
    {p : α → Bool} (items : List α)
    (kept : ∀ x ∈ items, p x = true → ∀ s u, S u → exec (step s x) u = exec (next s x) u)
    (lost : ∀ x ∈ items, p x = false → ∀ s u, S u → exec (step s x) u = (.ok s, u))
    (stays : ∀ x ∈ items, p x = true → ∀ s u, S u → S (exec (next s x) u).2) :
    ∀ s u, S u → exec (items.foldlM step s) u = exec ((items.filter p).foldlM next s) u := by
  induction items with
  | nil => exact fun _ _ _ => rfl
  | cons x rest ih =>
    intro s u h
    have ih := ih (fun y there => kept y (List.mem_cons_of_mem x there))
      (fun y there => lost y (List.mem_cons_of_mem x there))
      fun y there => stays y (List.mem_cons_of_mem x there)
    rw [List.foldlM_cons]
    cases chosen : p x with
    | false =>
      rw [exec_bind_ok (lost x List.mem_cons_self chosen s u h), ih s u h,
        List.filter_cons_of_neg (by simp [chosen])]
    | true =>
      have same := kept x List.mem_cons_self chosen s u h
      have further := stays x List.mem_cons_self chosen s u h
      rw [List.filter_cons_of_pos chosen, List.foldlM_cons]
      rcases run : exec (next s x) u with ⟨e | s', u'⟩ <;> rw [run] at same further
      · rw [exec_bind_error same, exec_bind_error run]
      · rw [exec_bind_ok same, exec_bind_ok run]
        exact ih s' u' further

namespace World

/-! ## Admissible entries -/

section Admissible

variable (w : World) (s : Nat)

/-- Whether a schema has a place for an entry: a field under its name, for an array with a sequence
as the value. -/
def isAdmissible (e : Value × Value) : Bool :=
  match w.fieldNamed? s e.1 with
  | some (.field f) => !(w.field f).isArray || e.2.sequence?.isSome
  | _ => false

/-- The entries that a schema has a place for. -/
def admissible (entries : Entries) : Entries := entries.filter (w.isAdmissible s)

/-- The entries of a mapping under the keys of those that a schema has a place for. -/
def restricted (entries converted : Entries) : Entries :=
  converted.filter fun c => Table.contains (w.admissible s entries) c.1

end Admissible

variable {d : Dispatch} {w : World} {E : Value → Value → Prop} {s : Nat} {record : Value}
  {entries : Entries}

theorem admissible_sublist (entries : Entries) : (w.admissible s entries).Sublist entries :=
  List.filter_sublist

@[simp] theorem admissible_admissible (entries : Entries) :
    w.admissible s (w.admissible s entries) = w.admissible s entries := by
  simp [admissible]

/-- The name of a field is a text. -/
theorem SoundSchemas.text_of_fieldNamed? (sound : w.SoundSchemas) {n v : Value}
    (named : w.fieldNamed? s n = some v) : ∃ m, n = .str m := by
  obtain ⟨i, -, found⟩ := List.exists_of_findSome?_eq_some named
  obtain ⟨key, there, same⟩ := Table.exists_key_of_get? found
  obtain ⟨m, rfl⟩ := sound.ownNames_texts i key there
  rw [Value.text_beq, decide_eq_true_eq] at same
  exact ⟨m, Value.eq_str_of_text? same⟩

/-- An admissible entry has a field, and a sequence if that is an array. -/
theorem SoundSchemas.of_isAdmissible (sound : w.SoundSchemas) {e : Value × Value}
    (h : w.isAdmissible s e = true) : ∃ m f, e.1 = .str m ∧
      w.fieldNamed? s e.1 = some (.field f) ∧
      ((w.field f).isArray = true → e.2.sequence?.isSome = true) := by
  unfold isAdmissible at h
  split at h
  · next f named =>
    obtain ⟨m, text⟩ := sound.text_of_fieldNamed? named
    refine ⟨m, f, text, named, fun array => ?_⟩
    simpa [array] using h
  · cases h

/-! ## Conversions -/

/-- What becomes of the value of an entry, `none` where the entry is lost. -/
def entryValue (d : Dispatch) (w : World) (s : Nat) (sanitizing : Bool) (e : Value × Value) :
    Action (Option Value) :=
  match w.fieldNamed? s e.1 with
  | some field => convertField d sanitizing field e.2
  | none => pure (if sanitizing then none else some e.2)

/-- An entry is put behind those before it with what becomes of its value. -/
theorem SoundSchemas.exec_convertEntry (sound : w.SoundSchemas) {e : Value × Value}
    (keyed : e.1.hashable = true) (sanitizing : Bool) (before : Entries) :
    exec (convertEntry d s sanitizing before e) w
      = exec ((fun value => before ++ (value.map (e.1, ·)).toList) <$>
          w.entryValue d s sanitizing e) w := by
  unfold convertEntry entryValue
  rw [exec_bind_ok (sound.exec_findField d s keyed)]
  cases named : w.fieldNamed? s e.1 with
  | none => rfl
  | some v =>
    obtain ⟨f, rfl⟩ := sound.field_of_fieldNamed? named
    rw [map_eq_pure_bind]
    rfl

theorem SoundSchemas.exec_convertField_sanitizing (sound : w.SoundSchemas) (f : Nat) (v : Value) :
    exec (convertField d true (.field f) v) w =
      if !(w.field f).isArray || v.sequence?.isSome then exec (convertField d false (.field f) v) w
      else (.ok none, w) := by
  have array : exec (holdsArray d (.field f)) w = (.ok (w.field f).isArray, w) :=
    exec_fieldIsArray d sound.plain f
  unfold convertField
  rw [exec_bind_ok array, exec_bind_ok array]
  cases (w.field f).isArray with
  | false => rfl
  | true => cases v.sequence? <;> rfl

/-- The value of an entry that a schema has a place for is converted, any other one is lost. -/
theorem SoundSchemas.exec_entryValue_sanitizing (sound : w.SoundSchemas) (e : Value × Value) :
    exec (w.entryValue d s true e) w =
      if w.isAdmissible s e then exec (w.entryValue d s false e) w else (.ok none, w) := by
  unfold entryValue isAdmissible
  cases named : w.fieldNamed? s e.1 with
  | none => rfl
  | some v =>
    obtain ⟨f, rfl⟩ := sound.field_of_fieldNamed? named
    exact sound.exec_convertField_sanitizing f e.2

section Runs

variable {sanitizing : Bool}
  (mapping : ∀ u, Readable w.Resembles u → u.mapping? record = some entries)
  (stays : ∀ e ∈ entries, ∀ before u, Readable w.Resembles u →
    Readable w.Resembles (exec (convertEntry d s sanitizing before e) u).2)

include mapping stays

/-- A mapping that has the same entries throughout is converted like a copy of it. -/
theorem exec_convert_copy {u : World} (h : Readable w.Resembles u) :
    exec (convert d s record sanitizing) u
      = exec (convert d s (.freshDict entries) sanitizing) u := by
  have given := mapping u h
  cases record with
  | dict share own =>
    obtain rfl := Option.some.inj given
    rfl
  | live part readOnly =>
    have whole : ∀ u, Readable w.Resembles u → u.partEntries part = entries :=
      fun u h => Option.some.inj (mapping u h)
    have visits : ∀ e ∈ entries, ∀ before u, Readable w.Resembles u → Readable w.Resembles
        (exec (do return (← convertEntry d s sanitizing before e, true)) u).2 := by
      intro e there before u h
      have further := stays e there before u h
      rw [exec_bind]
      rcases run : exec (convertEntry d s sanitizing before e) u with ⟨_ | _, u'⟩ <;>
        rwa [run] at further
    show exec (_ >>= fun es => pure (Value.freshDict es)) u
      = exec (convertEntries d s sanitizing entries >>= fun es => pure (.freshDict es)) u
    rw [exec_bind, exec_walkPart_still whole visits [] h, visitEntries_eq_foldlM, exec_bind]
    rfl
  | _ => cases given

end Runs

section Sanitizing

variable (equal : Equivalence E) (reads : w.ReadersAgree d E) (sound : w.SoundSchemas)
  (alike : w.ReadsAlike d record entries)

include equal reads sound alike

/-- No conversion of an entry leaves the worlds that resemble a world. -/
theorem ReadsAlike.convertEntry_stays (s : Nat) (sanitizing : Bool) :
    ∀ e ∈ entries, ∀ before u, Readable w.Resembles u →
      Readable w.Resembles (exec (convertEntry d s sanitizing before e) u).2 := by
  intro e there before u h
  have whole : Readable w.Resembles (exec (u.entryValue d s false e) u).2 := by
    unfold entryValue
    rw [h.2.fieldNamed? s]
    cases named : w.fieldNamed? s e.1 with
    | none => exact h
    | some v =>
      obtain ⟨f, rfl⟩ := sound.field_of_fieldNamed? named
      obtain ⟨r, u', run, -, h'⟩ := ends_convertField w.vicinity_readable
        ((alike.converts equal reads sound s e there).2 f named) u h
      rwa [run]
  have value : Readable w.Resembles (exec (u.entryValue d s sanitizing e) u).2 := by
    cases sanitizing with
    | false => exact whole
    | true =>
      rw [h.1.exec_entryValue_sanitizing]
      split
      · exact whole
      · exact h
  rw [h.1.exec_convertEntry (alike.keyed e there), exec_map]
  rcases run : exec (u.entryValue d s sanitizing e) u with ⟨e | x, u'⟩ <;> rwa [run] at value

/-- **Sanitizing.** A mapping is converted and sanitized like a copy of the entries that its schema
has a place for is converted. -/
theorem ReadsAlike.exec_convert_sanitizing {u : World} (h : Readable w.Resembles u) :
    exec (convert d s record true) u
      = exec (convert d s (.freshDict (w.admissible s entries)) false) u := by
  have stays := alike.convertEntry_stays equal reads sound s
  have chosen : ∀ u, Readable w.Resembles u → ∀ e, u.isAdmissible s e = w.isAdmissible s e := by
    intro u h e
    simp only [isAdmissible, h.2.fieldNamed?, h.2.field]
  rw [exec_convert_copy alike.mapping (stays true) h]
  have same : exec (entries.foldlM (convertEntry d s true) []) u
      = exec ((entries.filter (w.isAdmissible s)).foldlM (convertEntry d s false) []) u :=
    exec_foldlM_filter entries
      (fun e there kept before u h => by
        rw [h.1.exec_convertEntry (alike.keyed e there), exec_map, h.1.exec_entryValue_sanitizing,
          chosen u h, if_pos kept, h.1.exec_convertEntry (alike.keyed e there), exec_map])
      (fun e there lost before u h => by
        rw [h.1.exec_convertEntry (alike.keyed e there), exec_map, h.1.exec_entryValue_sanitizing,
          chosen u h, if_neg (by simp [lost])]
        simp)
      (fun e there _ => stays false e there) [] u h
  show exec (convertEntries d s true entries >>= fun es => pure (Value.freshDict es)) u
    = exec (convertEntries d s false _ >>= fun es => pure (Value.freshDict es)) u
  rw [exec_bind, exec_bind, convertEntries, convertEntries, same]
  rfl

/-- A mapping that is converted is converted entry by entry. -/
theorem ReadsAlike.converted {u u' : World} (h : Readable w.Resembles u) {x : Value}
    (given : exec (convert d s record false) u = (.ok x, u')) :
    ∃ fs, x = .freshDict fs ∧ Readable w.Resembles u' ∧
      List.Forall₂ (w.Converted d E s) entries fs := by
  rcases exec_convert_cases w.vicinity_readable sound ⟨sound, .refl w⟩ alike.mapping
    (alike.converts equal reads sound s) h with ⟨_, _, run, -⟩ | ⟨fs, u₁, run, h', related⟩
  · rw [given] at run
    cases run
  · rw [given] at run
    obtain ⟨same, rfl⟩ := Prod.mk.inj run
    exact ⟨fs, Except.ok.inj same, h', related⟩

end Sanitizing

/-- A part of a mapping is read in the same way. -/
theorem ReadsAlike.sublist (alike : w.ReadsAlike d record entries) {chosen : Entries}
    (part : chosen.Sublist entries) : w.ReadsAlike d (.freshDict chosen) chosen where
  mapping _ _ := rfl
  keyed e there := alike.keyed e (part.subset there)
  worded e there := alike.worded e (part.subset there)

/-- Two results for entries that a schema has a place for are alike. -/
theorem SoundSchemas.alikeEntries (sound : w.SoundSchemas) (equal : Equivalence E)
    {es gs hs : Entries} (placed : ∀ e ∈ es, w.isAdmissible s e = true)
    (first : List.Forall₂ (w.Converted d E s) es gs)
    (second : List.Forall₂ (w.Converted d E s) es hs) : AlikeEntries E gs hs := by
  induction first generalizing hs with
  | nil =>
    cases second
    exact .nil
  | @cons e g es gs one _ ih =>
    cases second with
    | @cons _ h _ hs two rest =>
      obtain ⟨m, f, text, named, -⟩ := sound.of_isAdmissible (placed e List.mem_cons_self)
      obtain ⟨x, run, related⟩ := one.value named
      obtain ⟨x', run', related'⟩ := two.value named
      obtain rfl := Except.ok.inj (run.symm.trans run')
      obtain ⟨k, y⟩ := g
      obtain ⟨k', z⟩ := h
      obtain rfl : k = .str m := one.key.symm.trans text
      obtain rfl : k' = .str m := two.key.symm.trans text
      exact .cons m ((related.both equal related').alike equal.refl)
        (ih (fun e there => placed e (List.mem_cons_of_mem _ there)) rest)

/-- Where no key is there twice, a key of an admissible entry tells that its entry is admissible. -/
theorem SoundSchemas.contains_admissible (sound : w.SoundSchemas)
    (distinct : (Table.keys entries).Nodup) {e : Value × Value} (there : e ∈ entries) :
    Table.contains (w.admissible s entries) e.1 = w.isAdmissible s e := by
  rw [Bool.eq_iff_iff, Table.contains, Option.isSome_iff_exists]
  constructor
  · rintro ⟨v, found⟩
    obtain ⟨key, inside, same⟩ := Table.exists_key_of_get? found
    obtain ⟨e', chosen, rfl⟩ := List.mem_map.mp inside
    obtain ⟨there', placed⟩ := List.mem_filter.mp chosen
    obtain ⟨m, f, text, -⟩ := sound.of_isAdmissible placed
    rw [text, Value.text_beq, decide_eq_true_eq] at same
    obtain rfl : e' = e := List.inj_on_of_nodup_map distinct there' there
      (text.trans (Value.eq_str_of_text? same).symm)
    exact placed
  · intro placed
    obtain ⟨m, f, text, -⟩ := sound.of_isAdmissible placed
    refine Table.exists_get?_of_mem_keys (by rw [text]; simp) ?_
    exact List.mem_map_of_mem (List.mem_filter.mpr ⟨there, placed⟩)

/-- What the admissible entries are converted to is found in what the whole mapping is converted to
by their keys. -/
theorem SoundSchemas.converted_admissible (sound : w.SoundSchemas)
    (distinct : (Table.keys entries).Nodup) {fs : Entries}
    (converted : List.Forall₂ (w.Converted d E s) entries fs) :
    List.Forall₂ (w.Converted d E s) (w.admissible s entries) (w.restricted s entries fs) := by
  have both := (List.forall₂_and_left _ _).mpr ⟨fun e there => there, converted⟩
  refine (List.rel_filter (fun e f h => ?_) both).imp fun _ _ h => h.2
  show w.isAdmissible s e = true ↔ Table.contains (w.admissible s entries) f.1 = true
  rw [← h.2.key, sound.contains_admissible distinct h.1]

/-! ## Sessions -/

/-- A mapping is sanitized to some entries: with the entries that its schema has no place for, and
without them, whether it is sanitized then or not. -/
structure SanitizesTo (d : Dispatch) (w : World) (s : Nat) (record : Value) (entries : Entries)
    (u : World) (gs : Entries) (u' : World) : Prop where
  whole : exec (convert d s record true) u = (.ok (.freshDict gs), u')
  part : exec (convert d s (.freshDict (w.admissible s entries)) false) u
    = (.ok (.freshDict gs), u')
  again : exec (convert d s (.freshDict (w.admissible s entries)) true) u
    = (.ok (.freshDict gs), u')

/-- What becomes of an entry that is not sanitized: it has its key, without a field it is kept, and
a single value of an array is converted and put in a list. -/
structure Completes (d : Dispatch) (w : World) (E : Value → Value → Prop) (s : Nat)
    (e f : Value × Value) : Prop where
  key : e.1 = f.1
  unnamed : w.fieldNamed? s e.1 = none → f.2 = e.2
  single : ∀ g, w.fieldNamed? s e.1 = some (.field g) → (w.field g).isArray = true →
    e.2.sequence? = none → ∃ c y, w.conversion d g e.2 = .ok c ∧ f.2 = .fresh [y] ∧
      w.ItemAlike E g c y

theorem Converted.completes {e f : Value × Value} (converted : w.Converted d E s e f) :
    w.Completes d E s e f where
  key := converted.key
  unnamed named := (converted.value_of_unnamed named).symm
  single g named array single := by
    obtain ⟨x, run, related⟩ := converted.value named
    rw [fieldConversion, if_pos array, single, Option.getD_none, List.mapM_cons, List.mapM_nil]
      at run
    rw [FieldAlike, if_pos array] at related
    obtain ⟨xs, ys, rfl, list, related⟩ := related
    cases result : w.conversion d g e.2 with
    | error fault =>
      rw [result] at run
      cases run
    | ok c =>
      rw [result] at run
      obtain ⟨-, rfl⟩ := Value.list.inj (Except.ok.inj run)
      obtain ⟨y, _, alike, none, rfl⟩ := List.forall₂_cons_left_iff.mp related
      obtain rfl := List.forall₂_nil_left_iff.mp none
      exact ⟨c, y, rfl, list, alike⟩

end World

/-- **Conversions that sanitize.** In every session, where types read texts in one way and a mapping
without a key twice is read in one way: if it is converted, each of its entries without a place is
kept or put in a list. Then it is sanitized as well, as its other entries are converted without it,
sanitized or not; and the result is what the mapping was converted to under the keys of those
entries, in whatever order all this is done. -/
theorem convert_sanitizing {call : Provider} (user : call.Within World.Develops) {depth : Nat}
    {w₀ w : World} (start : w₀.NoObjects) (run : SchemaRun (call.dispatch depth) w₀ w)
    {E : Value → Value → Prop} (equal : Equivalence E)
    (reads : w.ReadersAgree (call.dispatch depth) E) {record : Value} {entries : Entries}
    (alike : w.ReadsAlike (call.dispatch depth) record entries)
    (distinct : (Table.keys entries).Nodup) (s : Nat) {x : Value} {w₁ : World}
    (given : exec (convert (call.dispatch depth) s record false) w = (.ok x, w₁)) :
    ∃ fs, x = .freshDict fs ∧
      List.Forall₂ (w.Completes (call.dispatch depth) E s) entries fs ∧
      Readable w.Resembles w₁ ∧
      ∀ u, Readable w.Resembles u → ∃ gs u',
        w.SanitizesTo (call.dispatch depth) s record entries u gs u' ∧ Readable w.Resembles u' ∧
        Alike E (.freshDict (w.restricted s entries fs)) (.freshDict gs) ∧
        ∀ v hs v', Readable w.Resembles v →
          w.SanitizesTo (call.dispatch depth) s record entries v hs v' →
          Alike E (.freshDict gs) (.freshDict hs) := by
  have sound := run.sound user start
  obtain ⟨fs, rfl, here, converted⟩ := alike.converted equal reads sound ⟨sound, .refl w⟩ given
  have part := alike.sublist (w.admissible_sublist (s := s) entries)
  have placed : ∀ e ∈ w.admissible s entries, w.isAdmissible s e = true :=
    fun e there => (List.mem_filter.mp there).2
  have restricted := sound.converted_admissible distinct converted
  refine ⟨fs, rfl, converted.imp fun _ _ h => h.completes, here, fun u h => ?_⟩
  rcases exec_convert_cases w.vicinity_readable sound ⟨sound, .refl w⟩ part.mapping
    (part.converts equal reads sound s) h with ⟨-, -, -, e, there, fault, failed⟩ |
      ⟨gs, u', converts, h', related⟩
  -- none of these entries fails, as none did when the whole mapping was converted
  · obtain ⟨e', -, g, given, -⟩ := exists_of_forall₂ restricted.flip there
    rw [failed] at given
    cases given
  · have whole := alike.exec_convert_sanitizing equal reads sound (s := s) h
    have again := part.exec_convert_sanitizing equal reads sound (s := s) h
    rw [World.admissible_admissible] at again
    refine ⟨gs, u', ⟨whole.trans converts, converts, again.trans converts⟩, h',
      .dict (sound.alikeEntries equal placed restricted related), fun v hs v' h'' other => ?_⟩
    obtain ⟨hs', same, -, related'⟩ := part.converted equal reads sound h'' other.part
    obtain ⟨-, rfl⟩ := Value.dict.inj same
    exact .dict (sound.alikeEntries equal placed related related')

/-- A seeded registry, and a schema with a text and an array of texts. -/
def titleSession : List SchemaOperation :=
  [.newRegistry, .define 0 (.seed true),
   .compile 0 (.ofFields [("title", .str "String"), ("tags", .fresh [.str "String"])]) .null .null]

/-- A schema below it with an array of numbers. -/
def marksOperation : SchemaOperation :=
  .compile 0 (.ofFields [("marks", .fresh [.str "Number"])]) .null (.schema 0)

/-- A report with a single tag, a name of no field, and marks of which one is not a number. -/
def report : List (String × Value) :=
  [("tags", .int 3), ("more", .int 1), ("marks", .fresh [.str "nan", .str "2"]), ("title", .int 5)]

/-- The marks and the inherited title of a report are kept; the tag is put in a list. -/
theorem convert_sanitizing_report :
    let d := convertingOnly.dispatch 3
    let w := (exec (marksOperation.perform d) (afterSession d titleSession (.empty "" []))).2
    let entries := report.map fun f => (Value.str f.1, f.2)
    convertingOnly.Within World.Develops ∧ (World.empty "" []).NoObjects ∧
    SchemaRun d (.empty "" []) w ∧ w.ReadersAgree d Value.EqualUpToMarks ∧
    w.ReadsAlike d (.ofFields report) entries ∧ (Table.keys entries).Nodup ∧
    (w.admissible 1 entries).map (·.1.text?) = [some "marks", some "title"] ∧
    ∃ fs w₁ gs w₂, exec (convert d 1 (.ofFields report) false) w = (.ok (.freshDict fs), w₁) ∧
      List.Forall₂ (w.Completes d Value.EqualUpToMarks 1) entries fs ∧
      w.SanitizesTo d 1 (.ofFields report) entries w₁ gs w₂ ∧
      Alike Value.EqualUpToMarks (.freshDict (w.restricted 1 entries fs)) (.freshDict gs) := by
  intro d w entries
  have start : (World.empty "" []).NoObjects := ⟨rfl, rfl, rfl, rfl⟩
  obtain ⟨above, names, kinds, otherKind, kept, converted⟩ :
      0 < (afterSession d titleSession (.empty "" [])).schemas.size ∧
      (∀ s ∈ w.schemas.toList, s.collectionName.isNull || s.collectionName.text?.isSome) ∧
      (∀ f ∈ w.fields.toList, w.holdsKind [.text, .number] f.type = true) ∧
      w.holdsKind [.text, .number] (default : FieldNode).type = true ∧
      (w.admissible 1 entries).map (·.1.text?) = [some "marks", some "title"] ∧
      (exec (convert d 1 (.ofFields report) false) w).1.isOk = true := by decide +kernel
  have run : SchemaRun d (.empty "" []) w :=
    .step (.of_extendsNone titleSession rfl) marksOperation fun p same =>
      Value.schema.inj same ▸ above
  have sound := run.sound convertingOnly_within start
  have reads : w.ReadersAgree d Value.EqualUpToMarks :=
    World.readersAgree_of_kinds servesCatalog_convertingOnly 2 fun f t held =>
      World.kind_of_holdsKind _ kinds otherKind held
  have opened : (Value.ofFields report).IsOpen w := by
    refine .ofFields fun f there => ?_
    simp only [report, List.mem_cons, List.not_mem_nil, or_false] at there
    rcases there with rfl | rfl | rfl | rfl
    case inr.inr.inl =>
      refine .list _ fun v there => ?_
      simp only [List.mem_cons, List.not_mem_nil, or_false] at there
      rcases there with rfl | rfl <;> exact .constant rfl
    all_goals exact .constant rfl
  have alike : w.ReadsAlike d (.ofFields report) entries :=
    World.readsAlike_of_open (World.namesAreTexts_of_all names) sound convertingOnly 3 rfl opened
      fun e there => by
        obtain ⟨f, -, rfl⟩ := List.mem_map.mp there
        rfl
  have distinct : (Table.keys entries).Nodup := by
    have texts : (report.map Prod.fst).Nodup := by decide
    have same : Table.keys entries = (report.map Prod.fst).map Value.str := rfl
    rw [same]
    exact texts.map fun _ _ => Value.str.inj
  clear_value w
  obtain ⟨x, first⟩ := exec_of_isOk converted
  obtain ⟨fs, rfl, completes, here, others⟩ := convert_sanitizing convertingOnly_within start run
    equalUpToMarks_equivalence reads alike distinct 1 first
  obtain ⟨gs, w₂, sanitizes, -, same, -⟩ := others _ here
  exact ⟨convertingOnly_within, start, run, reads, alike, distinct, kept, fs, _, gs, w₂, first,
    completes, sanitizes, same⟩

/-- A schema of a text and an array of texts. -/
def twoTextsSession : List SchemaOperation :=
  [.newRegistry, .define 0 (.seed false),
   .compile 0 (.ofFields [("x", .str "String"), ("y", .fresh [.str "String"])]) .null .null]

/-- A mapping with the lists that a new schema keeps, behind the schema as a single value of an
array: to convert the schema, which lists its names to be shown, changes what the lists are
converted to, and a mapping that is sanitized has lost the schema. -/
theorem sanitizing_differs :
    let d := dispatchWithin 3
    let w := (exec (makeSchema d .null .null (.registry 0))
      (afterSession d twoTextsSession (.empty "" []))).2
    let record := Value.ofFields [("y", .schema 1), ("x", .live (.fieldLists 1) false)]
    w.isAdmissible 0 (.str "x", .live (.fieldLists 1) false) = true ∧
    ∃ x w₁ y w₂, exec (convert d 0 record true) w = (.ok x, w₁) ∧
      exec (convert d 0 record false) w₁ = (.ok y, w₂) ∧
      x.textUnder "x" = some "{}" ∧ y.textUnder "x" = some "{(False, False): ()}" := by
  intro d w record
  obtain ⟨placed, sanitized, converted⟩ :
      w.isAdmissible 0 (.str "x", .live (.fieldLists 1) false) = true ∧
      ((exec (convert d 0 record true) w).1.toOption.bind (·.textUnder "x")) = some "{}" ∧
      ((exec (convert d 0 record false) (exec (convert d 0 record true) w).2).1.toOption.bind
        (·.textUnder "x")) = some "{(False, False): ()}" := by decide +kernel
  obtain ⟨x, first, text⟩ := exec_of_seen sanitized
  obtain ⟨y, second, text'⟩ := exec_of_seen converted
  exact ⟨placed, x, _, y, _, first, second, text, text'⟩

end DataShape
