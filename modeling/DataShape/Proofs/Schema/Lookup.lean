import DataShape.Proofs.Schema.Listing

/-! # Names and fields of sound schemas

The fields of sound schemas are found under texts. The names that a schema declares are texts, none
is declared twice, and each leads to a field: the one of the schema nearest to it.

* `World.fieldNamed?` — the field that a schema has under a name.
* `SoundSchemas.exec_findField` — looking a field up changes nothing.
* `SoundSchemas.declared_nodup`, `SoundSchemas.exec_findField_of_declared` — the names of a schema
  and the fields that they lead to. -/

namespace DataShape

/-! ## Lists of texts -/

/-- All values of a list are texts. -/
def AllTexts (names : List Value) : Prop := ∀ n ∈ names, ∃ m, n = .str m

theorem AllTexts.hashable {names : List Value} (texts : AllTexts names) {n : Value}
    (h : n ∈ names) : n.hashable = true := by
  obtain ⟨m, rfl⟩ := texts n h
  rfl

/-- Where an entry was put behind others, the names after its own are still to come. -/
theorem AllTexts.get?_append_none {n : Value} {rest : List Value} (texts : AllTexts (n :: rest))
    (distinct : (n :: rest).Nodup) {before : Entries} (y : Value)
    (fresh : ∀ m ∈ n :: rest, Table.get? before m = none) :
    ∀ m ∈ rest, Table.get? (before ++ [(n, y)]) m = none := by
  intro m there
  obtain ⟨a, rfl⟩ := texts n List.mem_cons_self
  obtain ⟨b, rfl⟩ := texts m (List.mem_cons_of_mem _ there)
  have differs : a ≠ b := by
    rintro rfl
    exact (List.nodup_cons.mp distinct).1 there
  rw [Table.get?_append, fresh _ (List.mem_cons_of_mem _ there)]
  simp [differs]

theorem Value.same_str (a b : String) : (Value.str a).same (.str b) = (a == b) := by
  simp [Value.same, Value.identical, Value.eq]

/-- A text is in a list of texts if it is one of them. -/
theorem AllTexts.isIn_iff {names : List Value} (texts : AllTexts names) (m : String) :
    (Value.str m).isIn names = true ↔ .str m ∈ names := by
  rw [Value.isIn, List.any_eq_true]
  constructor
  · rintro ⟨n, there, same⟩
    obtain ⟨k, rfl⟩ := texts n there
    rw [Value.same_str, beq_iff_eq] at same
    rwa [← same]
  · exact fun there => ⟨_, there, by rw [Value.same_str, beq_self_eq_true]⟩

/-- Merged names are the inherited ones and the own ones. -/
theorem mem_mergeNames {own : List Value} (texts : AllTexts own) {inherited : List Value}
    (texts' : AllTexts inherited) {n : Value} :
    n ∈ mergeNames inherited own ↔ n ∈ inherited ∨ n ∈ own := by
  induction own generalizing inherited with
  | nil => simp [mergeNames]
  | cons first rest ih =>
    obtain ⟨m, rfl⟩ := texts first List.mem_cons_self
    have texts₁ : AllTexts rest := fun n h => texts n (List.mem_cons_of_mem _ h)
    have step : mergeNames inherited (.str m :: rest) = mergeNames
      (if (Value.str m).isIn inherited then inherited else inherited ++ [.str m]) rest := rfl
    rw [step, List.mem_cons]
    split
    · next known =>
      rw [texts'.isIn_iff] at known
      rw [ih texts₁ texts']
      constructor
      · exact fun h => h.imp id .inr
      · rintro (h | rfl | h)
        · exact .inl h
        · exact .inl known
        · exact .inr h
    · have texts₂ : AllTexts (inherited ++ [.str m]) := fun n h => by
        rcases List.mem_append.mp h with h | h
        · exact texts' n h
        · exact ⟨m, List.mem_singleton.mp h⟩
      rw [ih texts₁ texts₂, List.mem_append, List.mem_singleton, or_assoc]

theorem AllTexts.mergeNames {inherited own : List Value} (texts' : AllTexts inherited)
    (texts : AllTexts own) : AllTexts (mergeNames inherited own) := fun n h =>
  ((mem_mergeNames texts texts').mp h).elim (texts' n) (texts n)

/-- Merging names repeats none. -/
theorem AllTexts.nodup_mergeNames {inherited own : List Value} (texts' : AllTexts inherited)
    (texts : AllTexts own) (distinct : inherited.Nodup) :
    (DataShape.mergeNames inherited own).Nodup := by
  induction own generalizing inherited with
  | nil => exact distinct
  | cons first rest ih =>
    obtain ⟨m, rfl⟩ := texts first List.mem_cons_self
    have texts₁ : AllTexts rest := fun n h => texts n (List.mem_cons_of_mem _ h)
    show (DataShape.mergeNames
      (if (Value.str m).isIn inherited then inherited else inherited ++ [.str m]) rest).Nodup
    split
    · exact ih texts' texts₁ distinct
    · next unknown =>
      rw [texts'.isIn_iff] at unknown
      refine ih (fun n h => ?_) texts₁ ?_
      · rcases List.mem_append.mp h with h | h
        · exact texts' n h
        · exact ⟨m, List.mem_singleton.mp h⟩
      · refine List.nodup_append.mpr ⟨distinct, List.nodup_singleton _, ?_⟩
        rintro a ha b hb rfl
        exact unknown (List.mem_singleton.mp hb ▸ ha)

namespace World

/-! ## Fields -/

/-- The field of a name along a chain of schemas. -/
def fieldAlong? (w : World) (chain : List Nat) (name : Value) : Option Value :=
  chain.findSome? fun s => (w.schema s).fields.get? name

/-- The field that a schema or one of its parents has under a name. -/
def fieldNamed? (w : World) (s : Nat) (name : Value) : Option Value :=
  w.fieldAlong? (w.schemaChain s) name

/-- The number of the field that a schema has under a name that it declares. -/
def fieldUnder (w : World) (s : Nat) (name : Value) : Nat :=
  match w.fieldNamed? s name with
  | some (.field f) => f
  | _ => 0

theorem Relisted.fieldNamed? {w w' : World} (h : w.Relisted w') (s : Nat) (name : Value) :
    w'.fieldNamed? s name = w.fieldNamed? s name := by
  unfold World.fieldNamed? fieldAlong?
  rw [h.schemaChain]
  simp only [h.schemaFields]

theorem Relisted.fieldUnder {w w' : World} (h : w.Relisted w') (s : Nat) (name : Value) :
    w'.fieldUnder s name = w.fieldUnder s name := by
  unfold World.fieldUnder
  rw [h.fieldNamed?]

variable {w : World} (sound : w.SoundSchemas)

include sound

namespace SoundSchemas

theorem field_of_get? {s : Nat} {name v : Value} (h : (w.schema s).fields.get? name = some v) :
    ∃ f, v = .field f := by
  have listed := Table.mem_values_of_get? h
  obtain ⟨e, there, rfl⟩ := List.mem_map.mp listed
  obtain ⟨f, -, rfl⟩ := sound.fields s e there
  exact ⟨f, rfl⟩

theorem field_of_fieldAlong? {chain : List Nat} {name v : Value}
    (h : w.fieldAlong? chain name = some v) : ∃ f, v = .field f := by
  obtain ⟨s, -, found⟩ := List.exists_of_findSome?_eq_some h
  exact sound.field_of_get? found

/-- What a schema has under a name is a field. -/
theorem field_of_fieldNamed? {s : Nat} {name v : Value} (h : w.fieldNamed? s name = some v) :
    ∃ f, v = .field f := sound.field_of_fieldAlong? h

/-- By induction on the chain: a schema without the field asks the next one. -/
theorem exec_fieldAlong (d : Dispatch) {name : Value} (keyed : name.hashable = true)
    (chain : List Nat) :
    exec (fieldAlong d name chain) w = (.ok ((w.fieldAlong? chain name).getD .null), w) := by
  induction chain with
  | nil => rfl
  | cons s rest ih =>
    have own : exec (ownField d s name) w
        = (.ok (((w.schema s).fields.get? name).getD .null), w) := by
      unfold ownField
      rw [exec_bind_ok (sound.plain.exec_standIn? _ _)]
      simp only [keyed, Bool.not_true, Bool.false_eq_true, if_false]
      rfl
    rw [fieldAlong, sound.plain.exec_orStandIn, ownFieldOr, exec_bind_ok own]
    cases found : (w.schema s).fields.get? name with
    | some v =>
      obtain ⟨f, rfl⟩ := sound.field_of_get? found
      simp [fieldAlong?, found, Value.isNull]
    | none =>
      simp only [Option.getD_none, Value.isNull, if_true]
      rw [parentFieldOr, exec_bind_ok (sound.plain.exec_foreignParent? s)]
      simpa [fieldAlong?, found] using ih

/-- A field is looked up without any change. -/
theorem exec_findField (d : Dispatch) (s : Nat) {name : Value} (keyed : name.hashable = true) :
    exec (findField d s name) w = (.ok ((w.fieldNamed? s name).getD .null), w) := by
  unfold findField
  rw [exec_bind_ok (exec_get w)]
  exact sound.exec_fieldAlong d keyed _

/-! ## Declared names -/

theorem ownNames_texts (s : Nat) : AllTexts (w.schema s).fields.keys := by
  intro n h
  obtain ⟨e, there, rfl⟩ := List.mem_map.mp h
  obtain ⟨f, -, rfl⟩ := sound.fields s e there
  exact ⟨_, rfl⟩

theorem declaredAlong_texts (chain : List Nat) : AllTexts (w.declaredAlong chain) := by
  induction chain with
  | nil => exact fun _ h => absurd h List.not_mem_nil
  | cons s rest ih => exact ih.mergeNames (sound.ownNames_texts s)

/-- Declared names are texts. -/
theorem declared_texts (s : Nat) : AllTexts (w.declared s) := sound.declaredAlong_texts _

/-- No name is declared twice. -/
theorem declared_nodup (s : Nat) : (w.declared s).Nodup := by
  unfold declared
  induction w.schemaChain s with
  | nil => exact List.nodup_nil
  | cons s rest ih =>
    exact (sound.declaredAlong_texts rest).nodup_mergeNames (sound.ownNames_texts s) ih

/-- A declared name leads to a field. -/
theorem fieldNamed?_of_declared {s : Nat} {n : Value} (h : n ∈ w.declared s) :
    ∃ f, w.fieldNamed? s n = some (.field f) := by
  have along : ∀ chain : List Nat, n ∈ w.declaredAlong chain →
      ∃ v, w.fieldAlong? chain n = some v := by
    intro chain
    induction chain with
    | nil => exact fun h => absurd h List.not_mem_nil
    | cons s rest ih =>
      intro h
      rw [declaredAlong, mem_mergeNames (sound.ownNames_texts s) (sound.declaredAlong_texts rest)]
        at h
      unfold fieldAlong?
      rw [List.findSome?_cons]
      rcases h with inherited | own
      · cases (w.schema s).fields.get? n with
        | some v => exact ⟨v, rfl⟩
        | none => exact ih inherited
      · obtain ⟨m, rfl⟩ := sound.ownNames_texts s n own
        obtain ⟨v, found⟩ := Table.exists_get?_of_mem_keys (by simp) own
        exact ⟨v, by rw [found]⟩
  obtain ⟨v, found⟩ := along _ h
  obtain ⟨f, rfl⟩ := sound.field_of_fieldNamed? found
  exact ⟨f, found⟩

theorem fieldNamed?_eq_fieldUnder {s : Nat} {n : Value} (h : n ∈ w.declared s) :
    w.fieldNamed? s n = some (.field (w.fieldUnder s n)) := by
  obtain ⟨f, named⟩ := sound.fieldNamed?_of_declared h
  rw [fieldUnder, named]

/-- A declared name leads to the field that the schema has under it. -/
theorem exec_findField_of_declared (d : Dispatch) {s : Nat} {n : Value} (h : n ∈ w.declared s) :
    exec (findField d s n) w = (.ok (.field (w.fieldUnder s n)), w) := by
  rw [sound.exec_findField d s ((sound.declared_texts s).hashable h),
    sound.fieldNamed?_eq_fieldUnder h]
  rfl

/-- What a look-up of a declared name gives is the field that the schema has under it. -/
theorem findField_eq_ok {d : Dispatch} {s f : Nat} {n : Value} (h : n ∈ w.declared s) :
    exec (findField d s n) w = (.ok (.field f), w) ↔ w.fieldNamed? s n = some (.field f) := by
  rw [sound.exec_findField_of_declared d h, sound.fieldNamed?_eq_fieldUnder h]
  simp

/-- A field that is found under a text has the text as its name. -/
theorem named_of_fieldNamed? {s f : Nat} {m : String}
    (h : w.fieldNamed? s (.str m) = some (.field f)) :
    f < w.fields.size ∧ (w.field f).name = m := by
  obtain ⟨i, -, found⟩ := List.exists_of_findSome?_eq_some h
  have own : ∀ fields : Table Value Value,
      (∀ e ∈ fields, ∃ f < w.fields.size, e = (.str (w.field f).name, .field f)) →
      fields.get? (.str m) = some (.field f) → f < w.fields.size ∧ (w.field f).name = m := by
    intro fields
    induction fields with
    | nil => exact fun _ found => nomatch found
    | cons e rest ih =>
      intro entries found
      obtain ⟨g, inside, rfl⟩ := entries e List.mem_cons_self
      rw [Table.get?_cons] at found
      split at found
      · next same =>
        obtain rfl : g = f := by simpa using found
        exact ⟨inside, by simpa using same⟩
      · exact ih (fun e there => entries e (List.mem_cons_of_mem _ there)) found
  exact own _ (sound.fields i) found

end SoundSchemas

omit sound

/-! ## Fields of a schema that exists -/

/-- The field of a name is an own one, or the one of the parent. -/
theorem fieldNamed?_eq {w : World} (older : ∀ s p, (w.schema s).parent = some p → p < s) (s : Nat)
    (name : Value) :
    w.fieldNamed? s name
      = ((w.schema s).fields.get? name).or ((w.schema s).parent.bind (w.fieldNamed? · name)) := by
  rw [fieldNamed?, schemaChain_eq older, fieldAlong?, List.findSome?_cons]
  cases (w.schema s).fields.get? name with
  | some v => rfl
  | none => cases (w.schema s).parent <;> rfl

/-- A schema that exists goes on to have the fields that it has, by induction on its age. -/
theorem Extends.fieldNamed?_of_lt {w w' : World} (h : w.Extends w') (sound : w.SoundSchemas)
    (sound' : w'.SoundSchemas) (name : Value) (s : Nat) (inside : s < w.schemas.size) :
    w'.fieldNamed? s name = w.fieldNamed? s name := by
  induction s using Nat.strongRecOn with
  | _ s ih =>
    rw [fieldNamed?_eq sound.older, fieldNamed?_eq sound'.older, h.parent s inside,
      h.fields s inside]
    cases parent : (w.schema s).parent with
    | none => rfl
    | some p =>
      have lt := sound.older s p parent
      rw [Option.bind_some, Option.bind_some, ih p lt (Nat.lt_trans lt inside)]

/-- A name that a schema declares goes on to lead to its field. -/
theorem Extends.exec_findField {w w' : World} (h : w.Extends w') (sound : w.SoundSchemas)
    (sound' : w'.SoundSchemas) (d : Dispatch) {s : Nat} (inside : s < w.schemas.size) {name : Value}
    (there : name ∈ w.declared s) :
    exec (findField d s name) w' = (.ok (.field (w.fieldUnder s name)), w') := by
  rw [sound'.exec_findField d s ((sound.declared_texts s).hashable there),
    h.fieldNamed?_of_lt sound sound' name s inside, sound.fieldNamed?_eq_fieldUnder there]
  rfl

end World

end DataShape
