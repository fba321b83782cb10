import DataShape.Proofs.Plain
import DataShape.Proofs.Provider

/-! # Wording in plain worlds

Messages show values. In a plain world no function of a provider takes part in that: to show a value
changes nothing but the field lists that schemas keep, and it fails only where an integer is too
long to be written or values are nested too deeply.

* `Fault.IsWording` — the faults that showing a value can end in.
* `Words` — an action that is no more than showing.
* `words_shown`, `words_textOf` — showing a value in a plain world, by induction on the value. -/

namespace DataShape

/-- Whether a fault can arise while a value is shown. -/
inductive Fault.IsWording : Fault → Prop where
  | tooLong : IsWording integerTooLong
  | tooDeep : IsWording .tooDeep

/-- An action changes nothing but kept field lists, and fails only as showing a value can fail. -/
def Words {α : Type} (a : Action α) (w : World) : Prop :=
  w.Relisted (exec a w).2 ∧ ∀ e, (exec a w).1 = .error e → e.IsWording

variable {α β : Type} {w : World}

theorem Words.of_relists {a : Action α} (h : Relists a w) : Words a w := by
  obtain ⟨x, w', run, relisted⟩ := h
  rw [Words, run]
  exact ⟨relisted, nofun⟩

theorem words_pure (x : α) : Words (pure x) w := ⟨.refl w, nofun⟩

theorem words_tooDeep : Words (throw .tooDeep : Action α) w :=
  ⟨.refl w, fun _ h => Except.error.inj h ▸ .tooDeep⟩

/-- A sequence shows if its steps do, each in a world that is as plain as the first. -/
theorem Words.bind {a : Action α} {f : α → Action β} (plain : w.Plain) (first : Words a w)
    (second : ∀ x w', w'.Plain → Words (f x) w') : Words (a >>= f) w := by
  obtain ⟨relisted, faults⟩ := first
  unfold Words
  rw [exec_bind]
  rcases run : exec a w with ⟨e | x, w₁⟩ <;> rw [run] at relisted faults
  · exact ⟨relisted, fun e' h => Except.error.inj h ▸ faults e rfl⟩
  · obtain ⟨relisted', faults'⟩ := second x w₁ (relisted.plain plain)
    exact ⟨relisted.trans relisted', faults'⟩

/-- After a step that leaves the world as it is, a sequence shows if what follows does. -/
theorem Words.after {a : Action α} {x : α} {f : α → Action β} (h : exec a w = (.ok x, w))
    (second : Words (f x) w) : Words (a >>= f) w := by
  unfold Words
  rw [exec_bind_ok h]
  exact second

/-! ## Names -/

section Names

variable (d : Dispatch)

theorem relists_schemaName (plain : w.Plain) (s : Nat) : Relists (schemaName d s) w := by
  unfold schemaName orElseValue
  refine .after (exec_get w) ((relists_truthOf d plain _).bind fun b w₁ _ => ?_)
  cases b <;> exact relists_of_still rfl

theorem relists_heldName (plain : w.Plain) (id : Nat) : Relists (heldName d id) w := by
  unfold heldName
  refine .after (exec_get w) ?_
  rw [plain.fieldType]
  cases (w.field id).type with
  | type t => exact relists_of_still rfl
  | schema s => exact relists_schemaName d plain s

theorem relists_baseName? (plain : w.Plain) (id : Nat) : Relists (baseName? d id) w := by
  unfold baseName?
  refine .after (exec_get w) ?_
  dsimp only
  rw [plain.baseOf]
  cases (w.type id).base <;> exact relists_of_still rfl

theorem relists_parentName? (plain : w.Plain) (id : Nat) : Relists (parentName? d id) w := by
  unfold parentName?
  refine .after (exec_get w) ?_
  dsimp only
  rw [plain.parentOf]
  cases (w.schema id).parent with
  | none => exact relists_of_still rfl
  | some p =>
    obtain ⟨name, w', run, relisted⟩ := relists_schemaName d plain p
    refine ⟨some name, w', ?_, relisted⟩
    show exec (some <$> schemaName d p) w = _
    rw [exec_map, run]

theorem exec_fieldIsArray (plain : w.Plain) (id : Nat) :
    exec (fieldIsArray d id) w = (.ok (w.field id).isArray, w) := by
  unfold fieldIsArray
  rw [exec_bind_ok (exec_get w)]
  dsimp only
  rw [plain.fields]
  rfl

end Names

/-! ## Values -/

theorem words_integerText (n : Int) : Words (ofExcept (integerText n)) w := by
  unfold integerText
  split
  · exact words_pure _
  · exact ⟨.refl w, fun _ h => Except.error.inj h ▸ .tooLong⟩

section Shown

variable {d : Dispatch} (display : ∀ (v : Value) (w : World), w.Plain → Words (d.display v) w)

include display

theorem words_displayType (plain : w.Plain) (id : Nat) : Words (displayType d id) w := by
  unfold displayType
  refine .after (exec_get w) ((Words.of_relists (relists_baseName? d plain id)).bind plain ?_)
  intro base w₁ plain₁
  cases base with
  | none => exact .after rfl ((display _ w₁ plain₁).bind plain₁ fun _ _ _ => words_pure _)
  | some name =>
    refine (display name w₁ plain₁).bind plain₁ fun text w₂ plain₂ => ?_
    exact .after rfl ((display _ w₂ plain₂).bind plain₂ fun _ _ _ => words_pure _)

theorem words_textThrough (plain : w.Plain) (v : Value) :
    Words (textThrough d.display v) w := by
  unfold textThrough
  split <;> first | exact words_pure _ | exact display _ w plain

theorem words_displayField (plain : w.Plain) (id : Nat) : Words (displayField d id) w := by
  unfold displayField
  refine .after (exec_get w) ((Words.of_relists (relists_heldName d plain id)).bind plain ?_)
  intro held w₁ plain₁
  refine (words_textThrough display plain₁ held).bind plain₁ fun text w₂ plain₂ => ?_
  refine (display _ w₂ plain₂).bind plain₂ fun name w₃ plain₃ => ?_
  exact .after (exec_fieldIsArray d plain₃ id) (words_pure _)

theorem words_displaySchema (plain : w.Plain) (id : Nat) : Words (displaySchema d id) w := by
  have shownWith : ∀ (parent : String) (w : World), w.Plain → Words (do
      let name ← d.display (← schemaName d id)
      let fields ← d.display (.fresh (← allFieldNames d id))
      return "Schema(" ++ name ++ ", fields=" ++ fields ++ parent ++ ")") w := by
    intro parent w plain
    refine (Words.of_relists (relists_schemaName d plain id)).bind plain fun name w₁ plain₁ => ?_
    refine (display name w₁ plain₁).bind plain₁ fun text w₂ plain₂ => ?_
    refine (Words.of_relists (relists_allFieldNames d plain₂ id)).bind plain₂ ?_
    intro names w₃ plain₃
    exact (display _ w₃ plain₃).bind plain₃ fun _ _ _ => words_pure _
  unfold displaySchema
  refine (Words.of_relists (relists_parentName? d plain id)).bind plain fun parent w₁ plain₁ => ?_
  cases parent with
  | none => exact shownWith _ w₁ plain₁
  | some name =>
    refine (display name w₁ plain₁).bind plain₁ fun text w₂ plain₂ => ?_
    exact shownWith _ w₂ plain₂

set_option linter.unusedSectionVars false

mutual

/-- Showing a value in a plain world is no more than showing, constructor by constructor. -/
theorem words_shown : ∀ (v : Value) {w : World}, w.Plain → Words (shown d v) w
  | .int n, w, _ => by
    rw [shown]
    exact words_integerText n
  | .list _ items, w, plain => by
    rw [shown]
    exact (words_shownItems items plain).bind plain fun _ _ _ => words_pure _
  | .tuple items, w, plain => by
    rw [shown]
    exact (words_shownItems items plain).bind plain fun _ _ _ => words_pure _
  | .dict _ entries, w, plain => by
    rw [shown]
    exact (words_shownEntries entries plain).bind plain fun _ _ _ => words_pure _
  | .live part readOnly, w, plain => by
    rw [shown]
    exact .after (exec_get w) ((display _ w plain).bind plain fun _ _ _ => words_pure _)
  | .type id, w, plain => by
    rw [shown]
    exact words_displayType display plain id
  | .schema id, w, plain => by
    rw [shown]
    exact words_displaySchema display plain id
  | .field id, w, plain => by
    rw [shown]
    exact words_displayField display plain id
  | .static _ _ f, w, plain => by
    rw [shown]
    exact (words_shown f plain).bind plain fun _ _ _ => words_pure _
  | .bound f r, w, plain => by
    rw [shown]
    exact (words_shown r plain).bind plain fun _ _ _ => words_pure _
  | .method r name, w, plain => by
    rw [shown]
    exact (words_shown r plain).bind plain fun _ _ _ => words_pure _
  | .capability name f g s, w, plain => by
    rw [shown]
    exact (words_shown name plain).bind plain fun _ _ plain₁ =>
      (words_shown f plain₁).bind plain₁ fun _ _ plain₂ =>
      (words_shown g plain₂).bind plain₂ fun _ _ plain₃ =>
      (words_shown s plain₃).bind plain₃ fun _ _ _ => words_pure _
  | .predicate p, w, plain => by
    rw [shown]
    exact words_shownPredicate p plain
  | .null, w, _ | .missing, w, _ | .bool _, w, _ | .float _, w, _ | .str _, w, _
  | .bytes _, w, _ | .date _, w, _ | .datetime _, w, _ | .time _, w, _ | .option _, w, _
  | .record .., w, _ | .native _, w, _ | .target _, w, _ | .registry _, w, _ | .table _, w, _
  | .function .., w, _ => by
    rw [shown]
    exact words_pure _
termination_by structural v => v

theorem words_shownItems : ∀ (items : List Value) {w : World}, w.Plain →
    Words (shownItems d items) w
  | [], w, _ => by
    rw [shownItems]
    exact words_pure _
  | v :: vs, w, plain => by
    rw [shownItems]
    exact (words_shown v plain).bind plain fun _ _ plain₁ =>
      (words_shownItems vs plain₁).bind plain₁ fun _ _ _ => words_pure _
termination_by structural items => items

theorem words_shownEntries : ∀ (entries : List (Value × Value)) {w : World}, w.Plain →
    Words (shownEntries d entries) w
  | [], w, _ => by
    rw [shownEntries]
    exact words_pure _
  | e :: es, w, plain => by
    rw [shownEntries]
    exact (words_shownEntry e plain).bind plain fun _ _ plain₁ =>
      (words_shownEntries es plain₁).bind plain₁ fun _ _ _ => words_pure _
termination_by structural entries => entries

theorem words_shownEntry : ∀ (e : Value × Value) {w : World}, w.Plain →
    Words (shownEntry d e) w
  | (k, v), w, plain => by
    rw [shownEntry]
    exact (words_shown k plain).bind plain fun _ _ plain₁ =>
      (words_shown v plain₁).bind plain₁ fun _ _ _ => words_pure _
termination_by structural e => e

theorem words_shownPredicate : ∀ (p : Predicate) {w : World}, w.Plain →
    Words (shownPredicate d p) w
  | .present _, w, _ => by
    rw [shownPredicate]
    exact words_pure _
  | .all ps, w, plain => by
    rw [shownPredicate]
    exact (words_shownParts ps plain).bind plain fun _ _ _ => words_pure _
  | .any ps, w, plain => by
    rw [shownPredicate]
    exact (words_shownParts ps plain).bind plain fun _ _ _ => words_pure _
  | .negation p, w, plain => by
    rw [shownPredicate]
    exact (words_shownPredicate p plain).bind plain fun _ _ _ => words_pure _
  | .structural _ expected, w, plain => by
    rw [shownPredicate]
    exact (words_shownEntries expected plain).bind plain fun _ _ _ => words_pure _
  | .test f, w, plain => by
    rw [shownPredicate]
    exact (words_shown f plain).bind plain fun _ _ _ => words_pure _
termination_by structural p => p

theorem words_shownParts : ∀ (ps : List Predicate) {w : World}, w.Plain →
    Words (shownParts d ps) w
  | [], w, _ => by
    rw [shownParts]
    exact words_pure _
  | p :: ps, w, plain => by
    rw [shownParts]
    exact (words_shownPredicate p plain).bind plain fun _ _ plain₁ =>
      (words_shownParts ps plain₁).bind plain₁ fun _ _ _ => words_pure _
termination_by structural ps => ps

end

theorem words_textOf (v : Value) (plain : w.Plain) : Words (textOf d v) w := by
  unfold textOf textThrough
  split <;> first | exact words_pure _ | exact words_shown display _ plain

end Shown

/-- However deep calls may be nested, the dispatch of a provider shows values in that way. -/
theorem Provider.words_display (call : Provider) (depth : Nat) (v : Value) (w : World)
    (plain : w.Plain) : Words ((call.dispatch depth).display v) w := by
  induction depth generalizing v w with
  | zero => exact words_tooDeep
  | succ depth ih => exact words_shown ih v plain

end DataShape
