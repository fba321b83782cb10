import DataShape.Proofs.Schema.Memo
import DataShape.Proofs.Schema.Outcome

/-! # Records of defaults

A record of defaults is put together field by field: an array gets an empty list, any other field
its own default or that of its type, and a nested record nothing. Where defaults are produced in one
way, whatever was produced before, so are records of them.

* `World.DefaultsAgree` — the defaults of fields and of types are produced in one way.
* `agrees_recordDefault` — so is what goes into a record for a field.
* `World.defaultEntry`, `World.defaultEntries` — the entries for names, told by a world.
* `World.exec_defaultRecord` — a record of defaults has them, or the first default fails that does
  so. -/

namespace DataShape

/-! ## Defaults -/

/-- What goes into a record for the default of a type: nothing for a missing one, and an empty list
for a list. -/
def Value.asTypeDefault : Value → Option Value
  | .missing => none
  | .list .. => some (.fresh [])
  | v => some v

theorem typeRecordDefault_type (d : Dispatch) (t : Nat) :
    typeRecordDefault d (.type t)
      = Value.asTypeDefault <$> computedMember d (.type t) "default_value" (typeDefault d t) := by
  unfold typeRecordDefault
  rw [map_eq_pure_bind]
  refine bind_congr fun v => ?_
  cases v <;> rfl

namespace World

/-- In all worlds that resemble a world the defaults of fields are read in one way, and so are those
of their types, as far as they go into records. -/
structure DefaultsAgree (d : Dispatch) (w : World) (E : Value → Value → Prop) : Prop where
  ofField : ∀ f, Agrees E (Readable w.Resembles)
    (computedMember d (.field f) "default" (fieldDefault d f))
  ofType : ∀ f t, (w.field f).type = .type t →
    Agrees (fun a b => Option.Rel E a.asTypeDefault b.asTypeDefault) (Readable w.Resembles)
      (computedMember d (.type t) "default_value" (typeDefault d t))

end World

theorem optionRel_equivalence {α : Type} {E : α → α → Prop} (equal : Equivalence E) :
    Equivalence (Option.Rel E) where
  refl x := by
    cases x with
    | none => exact .none
    | some v => exact .some (equal.refl v)
  symm := by
    rintro _ _ (⟨h⟩ | _)
    · exact .some (equal.symm h)
    · exact .none
  trans := by
    rintro _ _ _ (⟨h⟩ | _) second
    · cases second with
      | some h' => exact .some (equal.trans h h')
    · exact second

section Defaults

variable {d : Dispatch} {w : World} {E : Value → Value → Prop}

theorem World.Resembles.declaredDefault {u : World} (h : w.Resembles u) (f : Nat) :
    u.declaredDefault f = w.declaredDefault f := by
  rw [World.declaredDefault, h.field, ← World.declaredDefault]

theorem World.Plain.exec_givenDefault (plain : w.Plain) (f : Nat) :
    exec (givenDefault d f) w = (.ok (w.declaredDefault f), w) := by
  unfold givenDefault
  rw [exec_bind_ok (exec_get w), plain.storedOn]
  rfl

/-- Whether a field declares a default is told by the field. -/
theorem World.Plain.exec_hasDefault (plain : w.Plain) (f : Nat) :
    exec (hasDefault d f) w = (.ok (!(w.declaredDefault f).isMissing), w) := by
  unfold hasDefault
  rw [exec_bind_ok (plain.exec_givenDefault f)]
  rfl

/-- What goes into a record for a field: an empty list for an array, the default that it declares, or
the default of its type. -/
theorem World.Plain.exec_recordDefault (plain : w.Plain) (f : Nat) :
    exec (recordDefault d (.field f)) w = exec (if (w.field f).isArray then
      pure (some (.fresh [])) else if !(w.declaredDefault f).isMissing then
      some <$> computedMember d (.field f) "default" (fieldDefault d f)
      else typeRecordDefault d (w.field f).type.toValue) w := by
  have array : exec (holdsArray d (.field f)) w = (.ok (w.field f).isArray, w) :=
    exec_fieldIsArray d plain f
  unfold recordDefault
  rw [exec_bind_ok array]
  cases (w.field f).isArray with
  | true => rfl
  | false =>
    simp only [Bool.false_eq_true, if_false]
    rw [exec_bind_ok (plain.exec_hasDefault f)]
    cases (w.declaredDefault f).isMissing with
    | false => rfl
    | true =>
      simp only [Bool.not_true, Bool.false_eq_true, if_false]
      rw [exec_bind_ok (exec_get w), plain.fieldType]

/-- **The default of a field.** What goes into a record for a field is told by the field where
defaults are produced in one way. -/
theorem agrees_recordDefault (equal : Equivalence E) (defaults : w.DefaultsAgree d E) (f : Nat) :
    Agrees (Option.Rel E) (Readable w.Resembles) (recordDefault d (.field f)) := by
  have entered : ∀ {a : Action Value} {b : Action (Option Value)} {g : Value → Option Value},
      Agrees (fun x y => Option.Rel E (g x) (g y)) (Readable w.Resembles) a → b = g <$> a →
        Agrees (Option.Rel E) (Readable w.Resembles) b := by
    rintro a b g ⟨r, ends⟩ rfl
    rw [map_eq_pure_bind]
    exact ⟨_, ends.bind fun x y related => ends_pure related⟩
  suffices rest : Agrees (Option.Rel E) (Readable w.Resembles) (if (w.field f).isArray then
      pure (some (.fresh [])) else if !(w.declaredDefault f).isMissing then
      some <$> computedMember d (.field f) "default" (fieldDefault d f)
      else typeRecordDefault d (w.field f).type.toValue) by
    obtain ⟨r, ends⟩ := rest
    refine ⟨r, ends.congr fun u h => ?_⟩
    rw [h.1.plain.exec_recordDefault, h.2.field, h.2.declaredDefault]
  split
  · exact ⟨_, ends_pure (.some (equal.refl _))⟩
  · split
    · obtain ⟨r, ends⟩ := defaults.ofField f
      exact ⟨_, ends.bind fun x y related => ends_pure (.some related)⟩
    · cases held : (w.field f).type with
      | type t => exact entered (defaults.ofType f t held) (typeRecordDefault_type d t)
      | schema inner => exact ⟨_, ends_pure .none⟩

end Defaults

/-! ## Producing defaults -/

section Sources

variable {d : Dispatch} {w : World} (plain : w.Plain)

include plain

/-- The default of a field is made of the value that it declares. -/
theorem World.Plain.exec_fieldDefault (f : Nat) :
    exec (fieldDefault d f) w = exec (produceDefault d (w.declaredDefault f)) w := by
  unfold fieldDefault
  rw [exec_bind_ok (plain.exec_givenDefault f)]

/-- The default of a type is made of the value that the first type of its lineage has which has
one. -/
theorem World.Plain.exec_typeDefault (t : Nat) : exec (typeDefault d t) w = exec (produceDefault d
    ((w.attributeAlong? (w.lineage t) (.str "default_value")).getD .missing)) w := by
  have given : exec (typeAttribute d t (.str "default_value")) w
      = (.ok ((w.attributeAlong? (w.lineage t) (.str "default_value")).getD .missing), w) := by
    unfold typeAttribute inheritedAttribute
    rw [plain.exec_orStandIn]
    show exec (searchLineage d t _ _ >>= _) w = _
    rw [exec_bind_ok (plain.exec_searchLineage ..)]
    rfl
  unfold typeDefault
  rw [exec_bind_ok given]

end Sources

/-- Whether a value holds nothing and is its own copy. -/
def Value.isScalar : Value → Bool
  | .null | .missing | .bool _ | .int _ | .float _ | .str _ => true
  | _ => false

/-- To make a default of a value always gives the same, and changes nothing; a fault is none that
counts as an absence. -/
def Produces (d : Dispatch) (v : Value) (r : Except Fault Value) : Prop :=
  (∀ e, r = .error e → e.isAbsence = false) ∧ ∀ u, exec (produceDefault d v) u = (r, u)

/-- A scalar is its own default. -/
theorem produces_of_scalar {v : Value} (h : v.isScalar = true) (d : Dispatch) :
    Produces d v (.ok v) := by
  refine ⟨nofun, fun u => ?_⟩
  cases v <;> first | rfl | cases h

namespace World

variable {d : Dispatch} {w : World} {E : Value → Value → Prop}

/-- Defaults that always are the same are read in one way. -/
theorem defaultsAgree_of_produces (equal : Equivalence E)
    (fields : ∀ f, ∃ r, Produces d (w.declaredDefault f) r)
    (types : ∀ f t, (w.field f).type = .type t → ∃ r, Produces d
      ((w.attributeAlong? (w.lineage t) (.str "default_value")).getD .missing) r) :
    w.DefaultsAgree d E := by
  have computed : ∀ {F : Value → Value → Prop} {v host : Value} {name : String}
      {compute : Action Value}, (∀ x, F x x) → (∃ r, Produces d v r) →
      (∀ u, Readable w.Resembles u → exec compute u = exec (produceDefault d v) u) →
      Agrees F (Readable w.Resembles) (computedMember d host name compute) := by
    rintro F v host name compute refl ⟨r, present, produces⟩ same
    refine ⟨r, fun u h => ⟨r, u, ?_, ?_, h⟩⟩
    · have run := (same u h).trans (produces u)
      unfold computedMember
      cases r with
      | error e => exact exec_orElseOn_throw run (present e rfl) _
      | ok x => exact exec_orElseOn_ok run _ _
    · cases r with
      | error e => exact .error e
      | ok x => exact .ok (refl x)
  refine ⟨fun f => computed equal.refl (fields f) fun u h => ?_,
    fun f t held => computed (fun x => (optionRel_equivalence equal).refl _) (types f t held)
      fun u h => ?_⟩
  · rw [h.1.plain.exec_fieldDefault, h.2.declaredDefault]
  · rw [h.1.plain.exec_typeDefault]
    unfold attributeAlong?
    rw [h.2.lineage]
    simp only [h.2.type]

end World

/-! ## Entries -/

namespace World

section Entries

variable (d : Dispatch) (w : World) (s : Nat)

/-- The entry for a name in a record of defaults, if there is one. -/
def defaultEntry (n : Value) : Except Fault Entries :=
  (fun v => (v.map (Prod.mk n)).toList)
    <$> (exec (recordDefault d (.field (w.fieldUnder s n))) w).1

/-- The entries for names, one after the other. -/
def defaultEntries (names : List Value) : Except Fault Entries :=
  List.flatten <$> names.mapM (w.defaultEntry d s)

theorem defaultEntries_append (first second : List Value) :
    w.defaultEntries d s (first ++ second)
      = w.defaultEntries d s first >>= fun es => (es ++ ·) <$> w.defaultEntries d s second := by
  unfold defaultEntries
  rw [List.mapM_append]
  cases first.mapM (w.defaultEntry d s) with
  | error e => rfl
  | ok es =>
    cases second.mapM (w.defaultEntry d s) with
    | error e => rfl
    | ok fs => exact congrArg Except.ok List.flatten_append

theorem defaultEntries_cons (n : Value) (rest : List Value) (before : Entries) :
    (before ++ ·) <$> w.defaultEntries d s (n :: rest)
      = (exec (recordDefault d (.field (w.fieldUnder s n))) w).1 >>= fun v =>
          ((before ++ (v.map (Prod.mk n)).toList) ++ ·) <$> w.defaultEntries d s rest := by
  unfold defaultEntries
  rw [List.mapM_cons, defaultEntry]
  cases (exec (recordDefault d (.field (w.fieldUnder s n))) w).1 with
  | error e => rfl
  | ok v =>
    cases rest.mapM (w.defaultEntry d s) with
    | error e => rfl
    | ok es =>
      exact congrArg Except.ok (List.append_assoc before _ _).symm

/-- The entries fail just if the default for one of the names does. -/
theorem defaultEntries_fails_iff (names : List Value) :
    (∃ e, w.defaultEntries d s names = .error e) ↔ ∃ n ∈ names, ∃ e w',
      exec (recordDefault d (.field (w.fieldUnder s n))) w = (.error e, w') := by
  have entry : ∀ n, (∃ e, w.defaultEntry d s n = .error e) ↔ ∃ e w',
      exec (recordDefault d (.field (w.fieldUnder s n))) w = (.error e, w') := by
    intro n
    unfold defaultEntry
    rcases exec (recordDefault d (.field (w.fieldUnder s n))) w with ⟨e | v, w'⟩ <;>
      simp [Functor.map, Except.map]
  have flat : (∃ e, w.defaultEntries d s names = .error e)
      ↔ ∃ e, names.mapM (w.defaultEntry d s) = .error e := by
    unfold defaultEntries
    cases names.mapM (w.defaultEntry d s) <;> simp [Functor.map, Except.map]
  rw [flat, mapM_fails_iff]
  simp only [entry]

/-- The keys of the entries are names. -/
theorem key_of_defaultEntries {names : List Value} {es : Entries}
    (given : w.defaultEntries d s names = .ok es) : ∀ e ∈ es, e.1 ∈ names := by
  induction names generalizing es with
  | nil =>
    obtain rfl := Except.ok.inj given
    exact fun e there => absurd there List.not_mem_nil
  | cons n rest ih =>
    have whole := w.defaultEntries_cons d s n rest []
    rw [given] at whole
    cases made : (exec (recordDefault d (.field (w.fieldUnder s n))) w).1 with
    | error e =>
      rw [made] at whole
      cases whole
    | ok v =>
      cases others : w.defaultEntries d s rest with
      | error e =>
        rw [made, others] at whole
        cases whole
      | ok fs =>
        rw [made, others] at whole
        obtain rfl : es = (v.map (Prod.mk n)).toList ++ fs := Except.ok.inj whole
        intro e there
        rcases List.mem_append.mp there with own | later
        · obtain ⟨y, -, rfl⟩ := Option.map_eq_some_iff.mp (Option.mem_toList.mp own)
          exact List.mem_cons_self
        · exact List.mem_cons_of_mem n (ih others e later)

end Entries

end World

/-! ## Walks -/

/-- Two entries have the same name, and values that are related. -/
def EntryRelated (E : Value → Value → Prop) (e f : Value × Value) : Prop := e.1 = f.1 ∧ E e.2 f.2

/-- Enter the default of a field into a record. -/
def enterDefault (d : Dispatch) (entries : Entries) (field : Value) : Action Entries := do
  match ← recordDefault d field with
  | some v =>
      let name ← nameOfField d field
      if !name.hashable then throw .wrongType
      return Table.insert entries name v
  | none => return entries

theorem defaultRecord_eq (d : Dispatch) (s : Nat) (uiOnly : Value) :
    defaultRecord d s uiOnly = do
      return .freshDict (← visitFields d s [uiOnly] [] (enterDefault d)) := rfl

section Walk

variable {call : Provider} {depth : Nat} {w : World} {E : Value → Value → Prop} {s : Nat}
  {uiOnly : Bool} (equal : Equivalence E)
  (defaults : w.DefaultsAgree (call.dispatch depth) E) (sound : w.SoundSchemas)

include equal defaults sound

/-- The defaults of fields that are shown are entered one by one. By induction on the names, which
are distinct: each entry is put behind the others. -/
theorem ends_visitDefaults (names : List Value) (declared : ∀ n ∈ names, n ∈ w.declared s)
    (distinct : names.Nodup)
    (shown : uiOnly = true → ∀ n ∈ names, ∀ u, Readable w.Resembles u →
      exec (uiExclude (call.dispatch depth) (w.fieldUnder s n)) u = (.ok false, u)) :
    ∀ before before' : Entries, List.Forall₂ (EntryRelated E) before before' →
      (∀ n ∈ names, Table.get? before' n = none) →
      Ends (List.Forall₂ (EntryRelated E)) (Readable w.Resembles)
        (visitNames (call.dispatch depth) s uiOnly (enterDefault (call.dispatch depth)) names
          before')
        ((before ++ ·) <$> w.defaultEntries (call.dispatch depth) s names) := by
  have here : Readable w.Resembles w := ⟨sound, .refl w⟩
  induction names with
  | nil =>
    intro before before' alike _
    refine ends_pure ?_
    show List.Forall₂ _ (before ++ []) before'
    rwa [List.append_nil]
  | cons n rest ih =>
    intro before before' alike fresh
    have there := declared n List.mem_cons_self
    have texts : AllTexts (n :: rest) := fun m h => sound.declared_texts s m (declared m h)
    have ih := ih (fun m h => declared m (List.mem_cons_of_mem n h)) (List.nodup_cons.mp distinct).2
      fun flag m h => shown flag m (List.mem_cons_of_mem n h)
    obtain ⟨m, rfl⟩ := texts n List.mem_cons_self
    have found : ∀ u, Readable w.Resembles u → exec (findField (call.dispatch depth) s (.str m)) u
        = (.ok (.field (w.fieldUnder s (.str m))), u) := by
      intro u h
      rw [← h.2.declared] at there
      rw [h.1.exec_findField_of_declared _ there, h.2.fieldUnder]
    have entered : Ends (List.Forall₂ (EntryRelated E)) (Readable w.Resembles)
        (enterDefault (call.dispatch depth) before' (.field (w.fieldUnder s (.str m))) >>=
          visitNames (call.dispatch depth) s uiOnly (enterDefault (call.dispatch depth)) rest)
        ((before ++ ·) <$> w.defaultEntries (call.dispatch depth) s (.str m :: rest)) := by
      have given := (agrees_recordDefault equal defaults (w.fieldUnder s (.str m))).ends
        (optionRel_equivalence equal) here
      have named : ∀ u, Readable w.Resembles u → exec (nameOfField (call.dispatch depth)
          (.field (w.fieldUnder s (.str m)))) u = (.ok (.str m), u) := by
        intro u h
        show (Except.ok (u.fieldName _), u) = _
        rw [h.1.plain.fieldName, h.2.field,
          (sound.named_of_fieldNamed? (sound.fieldNamed?_eq_fieldUnder there)).2]
      rw [w.defaultEntries_cons, enterDefault, bind_assoc]
      refine given.bind ?_
      -- A default that is there goes behind the others, since its name is not among them.
      rintro _ _ (⟨related⟩ | _)
      · dsimp only
        rw [bind_assoc]
        refine .after named ?_
        show Ends _ _ (visitNames _ _ _ _ rest (Table.insert before' _ _)) _
        rw [Table.insert_of_get?_eq_none (fresh _ List.mem_cons_self)]
        exact ih _ _ (List.rel_append alike (.cons ⟨rfl, related⟩ .nil))
          (texts.get?_append_none distinct _ fresh)
      · rw [Option.map_none, Option.toList_none, List.append_nil]
        exact ih _ _ alike fun k h => fresh k (List.mem_cons_of_mem _ h)
    rw [visitNames]
    refine .after found ?_
    cases uiOnly with
    | false => exact entered
    | true =>
      simp only [if_true]
      exact .after (shown rfl _ List.mem_cons_self) entered

end Walk

/-! ## Records -/

namespace World

variable {call : Provider} {depth : Nat} {w u : World} {hidden : Nat → Bool} {uiOnly : Bool}

/-- All fields answer in one way whether they are left out of user interfaces, whoever asks them. -/
def FlagsTold (call : Provider) (depth : Nat) (w : World) (hidden : Nat → Bool) : Prop :=
  ∀ f, w.Answers (call.dispatch depth) f (hidden f) ∧ w.OnlyAnswers call f (hidden f)

theorem FlagsTold.resembling (told : w.FlagsTold call depth hidden) (h : w.Resembles u) :
    u.FlagsTold call depth hidden := fun f =>
  ⟨fun u' plain unshared same => (told f).1 u' plain unshared (same.trans (h.field f)),
    (told f).2.congr (h.field f)⟩

/-- Fields that say so in a mapping, or do not say it, do. -/
theorem flagsTold_of_flag? (told : ∀ f < w.fields.size, (w.flag? f).isSome = true)
    (call : Provider) (depth : Nat) :
    w.FlagsTold call depth fun f => (w.flag? f).getD false := by
  intro f
  have flag : w.flag? f = some ((w.flag? f).getD false) := by
    by_cases inside : f < w.fields.size
    · obtain ⟨b, given⟩ := Option.isSome_iff_exists.mp (told f inside)
      rw [given]
      rfl
    · have none : w.field f = default := by simp [field, Array.getD, inside]
      rw [flag?, none]
      rfl
  exact ⟨answers_of_flag? flag _, onlyAnswers_of_flag? flag call⟩

theorem Resembles.reference (h : w.Resembles u) (s : Nat) :
    u.reference hidden s ⟨uiOnly, false⟩ = w.reference hidden s ⟨uiOnly, false⟩ := by
  unfold World.reference World.covered
  simp only [h.declared, h.fieldUnder, Bool.false_eq_true, if_false]

/-- The reference list is a part of the list of all names, in the same order. -/
theorem reference_sublist (w : World) (hidden : Nat → Bool) (s : Nat) (uiOnly : Bool) :
    (w.reference hidden s ⟨uiOnly, false⟩).Sublist (w.declared s) := by
  unfold World.reference World.covered
  cases uiOnly with
  | false => exact List.Sublist.refl _
  | true => exact List.filter_sublist

/-- **A record of defaults.** In all worlds that resemble a world, with faithful lists, a record of
defaults has the entries that the world tells, or it fails as they do. -/
theorem exec_defaultRecord {E : Value → Value → Prop} (equal : Equivalence E)
    (defaults : w.DefaultsAgree (call.dispatch depth) E) (sound : w.SoundSchemas)
    (flags : uiOnly = true → w.FlagsTold call depth hidden) (s : Nat)
    (h : Readable w.Resembles u) (faithful : u.Faithful call) :
    ∃ r u', exec (defaultRecord (call.dispatch depth) s (.bool uiOnly)) u = (r, u') ∧
      Matches (fun es x => ∃ fs, x = .freshDict fs ∧ List.Forall₂ (EntryRelated E) es fs)
        (w.defaultEntries (call.dispatch depth) s (w.reference hidden s ⟨uiOnly, false⟩)) r ∧
      Readable w.Resembles u' := by
  have told : u.Told call depth hidden s ⟨uiOnly, false⟩ := fun shown n _ =>
    (flags shown).resembling h.2 _
  obtain ⟨u₁, listed, relisted, sound₁⟩ := h.1.exec_fieldNames faithful told
  rw [h.2.reference] at listed
  have h₁ : Readable w.Resembles u₁ := ⟨sound₁, h.2.relisted relisted⟩
  have sub := w.reference_sublist hidden s uiOnly
  -- The names that are listed for user interfaces are of fields that are shown whenever they are asked.
  have shown : uiOnly = true → ∀ n ∈ w.reference hidden s ⟨uiOnly, false⟩, ∀ v,
      Readable w.Resembles v →
      exec (uiExclude (call.dispatch depth) (w.fieldUnder s n)) v = (.ok false, v) := by
    intro shown n there v h
    have answer := ((flags shown) (w.fieldUnder s n)).1 v h.1.plain h.1.unshared (h.2.field _)
    rw [reference, if_pos shown] at there
    rwa [(Bool.not_eq_true' _).mp (List.mem_filter.mp there).2] at answer
  have walked := ends_visitDefaults equal defaults sound _ (fun n there => sub.subset there)
    (sub.nodup (sound.declared_nodup s)) shown [] [] .nil fun _ _ => rfl
  obtain ⟨r, u₂, run, matched, h₂⟩ := walked u₁ h₁
  have visited : exec (visitFields (call.dispatch depth) s [.bool uiOnly] []
      (enterDefault (call.dispatch depth))) u = (r, u₂) := by
    have chosen : exec (Projection.ofFlags (call.dispatch depth) [.bool uiOnly]) u₁
        = (.ok ⟨uiOnly, false⟩, u₁) := rfl
    rw [h.1.plain.exec_visitFields, exec_visitOwn_of_listed chosen listed, run]
  rw [defaultRecord_eq]
  generalize w.defaultEntries (call.dispatch depth) s (w.reference hidden s ⟨uiOnly, false⟩)
    = entries at matched ⊢
  have same : ([] ++ ·) <$> entries = entries := by cases entries <;> rfl
  rw [same] at matched
  cases matched with
  | error e => exact ⟨.error e, u₂, exec_bind_error visited _, .error e, h₂⟩
  | ok alike =>
    rw [exec_bind_ok visited]
    exact ⟨_, u₂, rfl, .ok ⟨_, rfl, alike⟩, h₂⟩

/-- It fails just if the default of a field that is listed does. -/
theorem defaultRecord_fails_iff {E : Value → Value → Prop} (equal : Equivalence E)
    (defaults : w.DefaultsAgree (call.dispatch depth) E) (sound : w.SoundSchemas)
    (faithful : w.Faithful call) (flags : uiOnly = true → w.FlagsTold call depth hidden) (s : Nat) :
    (∃ e w', exec (defaultRecord (call.dispatch depth) s (.bool uiOnly)) w = (.error e, w')) ↔
      ∃ n ∈ w.reference hidden s ⟨uiOnly, false⟩, ∃ e w',
        exec (recordDefault (call.dispatch depth) (.field (w.fieldUnder s n))) w
          = (.error e, w') := by
  obtain ⟨r, u', run, matched, -⟩ :=
    exec_defaultRecord equal defaults sound flags s ⟨sound, .refl w⟩ faithful
  rw [← defaultEntries_fails_iff, run]
  generalize w.defaultEntries (call.dispatch depth) s (w.reference hidden s ⟨uiOnly, false⟩)
    = entries at matched ⊢
  cases matched with
  | error e => exact iff_of_true ⟨e, u', rfl⟩ ⟨e, rfl⟩
  | ok related =>
    refine iff_of_false ?_ ?_
    · rintro ⟨e, w', same⟩
      cases same
    · rintro ⟨e, same⟩
      cases same

end World

end DataShape
