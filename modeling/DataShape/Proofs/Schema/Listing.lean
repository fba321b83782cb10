import DataShape.Proofs.Plain
import DataShape.Proofs.Provider
import DataShape.Proofs.Table
import DataShape.Schema.Basic
import Mathlib.Data.List.Nodup

/-! # Field lists of sound schemas

A schema lists the names that it inherits and then its own, and keeps the list. While nothing is
set on objects and fields are only added to the newest schema, a kept list says what would be
computed anew; a list that was kept for user interfaces leaves some of the names out.

* `World.declared` — the names of all fields of a schema, computed anew.
* `World.SoundSchemas` — the invariant of schemas and of the lists that they keep.
* `World.Develops` — sound schemas stay sound, and those that exist stay as they are.
* `SoundSchemas.exec_allFieldNames`, `along_fieldList_develops` — listing.
* `Plain.exec_fieldNames`, `exec_visitOwn_of_listed` — what is listed and visited for flags. -/

namespace DataShape

namespace World

/-! ## Declared names -/

/-- The names that a chain of schemas declares, those of the last schema first. -/
def declaredAlong (w : World) : List Nat → List Value
  | [] => []
  | s :: rest => mergeNames (w.declaredAlong rest) (w.schema s).fields.keys

/-- The names of all fields of a schema. -/
def declared (w : World) (s : Nat) : List Value := w.declaredAlong (w.schemaChain s)

/-- A number without a schema. -/
theorem schema_of_size_le {w : World} {s : Nat} (h : w.schemas.size ≤ s) :
    w.schema s = default := by
  simp [schema, Array.getD, Nat.not_lt.mpr h]

theorem lt_size_of_parent {w : World} {s p : Nat} (h : (w.schema s).parent = some p) :
    s < w.schemas.size := by
  by_contra outside
  rw [schema_of_size_le (Nat.le_of_not_lt outside)] at h
  cases h

/-- Where parents are older than their children, the chain of a schema goes on with the chain of its
parent. -/
theorem schemaChain_eq {w : World} (older : ∀ s p, (w.schema s).parent = some p → p < s)
    (s : Nat) : w.schemaChain s = s :: (w.schema s).parent.elim [] w.schemaChain := by
  unfold schemaChain
  cases hp : (w.schema s).parent with
  | none => exact ancestry_of_none hp _
  | some p =>
    have inside := lt_size_of_parent hp
    have lt := older s p hp
    obtain ⟨n, size⟩ : ∃ n, w.schemas.size = n + 1 := ⟨w.schemas.size - 1, by omega⟩
    have rest := ancestry_stable older p (n + 1) n (by omega) (by omega)
    rw [size, Option.elim_some, rest, ancestry, hp, Option.elim_some]

theorem declared_eq {w : World} (older : ∀ s p, (w.schema s).parent = some p → p < s) (s : Nat) :
    w.declared s
      = mergeNames ((w.schema s).parent.elim [] w.declared) (w.schema s).fields.keys := by
  rw [declared, schemaChain_eq older, declaredAlong]
  cases (w.schema s).parent <;> rfl

/-- What a schema declares depends on the schemas that are not younger, by induction on its age. -/
theorem declared_congr {w w' : World} (older : ∀ s p, (w.schema s).parent = some p → p < s)
    (older' : ∀ s p, (w'.schema s).parent = some p → p < s) {bound : Nat}
    (parent : ∀ s < bound, (w'.schema s).parent = (w.schema s).parent)
    (fields : ∀ s < bound, (w'.schema s).fields = (w.schema s).fields) (s : Nat) (h : s < bound) :
    w'.declared s = w.declared s := by
  induction s using Nat.strongRecOn with
  | _ s ih =>
    rw [declared_eq older, declared_eq older', parent s h, fields s h]
    cases hp : (w.schema s).parent with
    | none => rfl
    | some p =>
      have lt := older s p hp
      rw [Option.elim_some, Option.elim_some, ih p lt (Nat.lt_trans lt h)]

theorem Relisted.declared {w w' : World} (h : w.Relisted w') (s : Nat) :
    w'.declared s = w.declared s := by
  have along : ∀ chain : List Nat, w'.declaredAlong chain = w.declaredAlong chain := by
    intro chain
    induction chain with
    | nil => rfl
    | cons s rest ih => rw [declaredAlong, declaredAlong, ih, h.schemaFields]
  rw [World.declared, World.declared, h.schemaChain, along]

/-! ## The invariant -/

/-- The list that covers all fields but those that are left out of user interfaces. -/
abbrev shownOnly : Projection := ⟨true, false⟩

/-- Nothing is set on objects, parents are older than their children, the own fields are fields
under their names, and the lists that schemas keep are what they should be. -/
structure SoundSchemas (w : World) : Prop where
  plain : w.Plain
  unshared : w.sharedParts = []
  older : ∀ s p, (w.schema s).parent = some p → p < s
  served : ∀ s < w.schemas.size, ∃ r, (w.schema s).registry = .registry r
  fields : ∀ s, ∀ e ∈ (w.schema s).fields,
    ∃ f < w.fields.size, e = (.str (w.field f).name, .field f)
  full : ∀ s names, (w.schema s).fieldLists.get? .all = some names → names = w.declared s
  shown : ∀ s names, (w.schema s).fieldLists.get? shownOnly = some names →
    names.Sublist (w.declared s)

/-- A world without objects has sound schemas. -/
theorem SoundSchemas.of_no_objects {w : World} (types : w.types = #[]) (fields : w.fields = #[])
    (schemas : w.schemas = #[]) (unshared : w.sharedParts = []) : w.SoundSchemas := by
  have schema : ∀ s, w.schema s = default := fun s => by
    rw [World.schema, schemas]
    rfl
  refine ⟨.of_no_objects types fields schemas, unshared, ?_, ?_, ?_, ?_, ?_⟩ <;> intro s
  · intro p h
    rw [schema] at h
    cases h
  · intro h
    rw [schemas] at h
    cases h
  · intro e h
    rw [schema] at h
    cases h
  · intro names h
    rw [schema] at h
    cases h
  · intro names h
    rw [schema] at h
    cases h

/-- A world in which a schema keeps a list. -/
def withList (w : World) (s : Nat) (p : Projection) (names : List Value) : World :=
  w.modifySchema s fun n => { n with fieldLists := n.fieldLists.insert p names }

/-- A list that is found after one was kept is that one, or it was kept before. -/
theorem kept_of_withList {w : World} {s i : Nat} {p q : Projection} {names found : List Value}
    (h : ((w.withList s p names).schema i).fieldLists.get? q = some found) :
    (s = i ∧ p = q ∧ found = names) ∨ (w.schema i).fieldLists.get? q = some found := by
  rw [withList, schema_modifySchema] at h
  split at h
  · next here =>
    by_cases same : p = q
    · subst same
      rw [Table.get?_insert_self] at h
      exact .inl ⟨here.1, rfl, (Option.some.inj h).symm⟩
    · rw [Table.get?_insert_of_ne _ _ same] at h
      exact .inr h
  · exact .inr h

/-- To keep a list is sound if the list is what it should be. -/
theorem SoundSchemas.withList {w : World} (sound : w.SoundSchemas) (s : Nat) {p : Projection}
    {names : List Value} (full : p = .all → names = w.declared s)
    (shown : p = shownOnly → names.Sublist (w.declared s)) :
    (w.withList s p names).SoundSchemas := by
  have relisted : w.Relisted (w.withList s p names) := w.relisted_keep s p names
  refine ⟨relisted.plain sound.plain, sound.unshared, ?_, ?_, ?_, ?_, ?_⟩
  · intro i
    rw [relisted.schemaParent]
    exact sound.older i
  · intro i h
    rw [relisted.size] at h
    rw [relisted.part SchemaNode.registry fun _ _ => rfl]
    exact sound.served i h
  · intro i
    rw [relisted.schemaFields]
    exact sound.fields i
  · intro i found h
    rw [relisted.declared]
    rcases kept_of_withList h with ⟨rfl, same, rfl⟩ | kept
    · exact full same
    · exact sound.full i found kept
  · intro i found h
    rw [relisted.declared]
    rcases kept_of_withList h with ⟨rfl, same, rfl⟩ | kept
    · exact shown same
    · exact sound.shown i found kept

/-! ## Listing all fields -/

variable {w : World} (d : Dispatch)

/-- Two worlds differ in kept lists of all fields, and in nothing else. -/
structure Listed (w w' : World) : Prop where
  relisted : w.Relisted w'
  sound : w'.SoundSchemas
  others : ∀ s p, p ≠ .all → (w'.schema s).fieldLists.get? p = (w.schema s).fieldLists.get? p

theorem Listed.refl (sound : w.SoundSchemas) : w.Listed w := ⟨.refl w, sound, fun _ _ _ => rfl⟩

theorem Listed.trans {u v w : World} (first : u.Listed v) (second : v.Listed w) : u.Listed w :=
  ⟨first.relisted.trans second.relisted, second.sound,
    fun s p other => (second.others s p other).trans (first.others s p other)⟩

theorem Listed.shown {w w' : World} (h : w.Listed w') (s : Nat) :
    (w'.schema s).fieldLists.get? shownOnly = (w.schema s).fieldLists.get? shownOnly :=
  h.others s shownOnly (by decide)

/-- To keep the list of all fields changes no other list. -/
theorem SoundSchemas.listed_withList (sound : w.SoundSchemas) {s : Nat} {names : List Value}
    (h : names = w.declared s) : w.Listed (w.withList s .all names) where
  relisted := w.relisted_keep s .all names
  sound := sound.withList s (fun _ => h) nofun
  others i p other := by
    rw [World.withList, schema_modifySchema]
    split
    · exact Table.get?_insert_of_ne _ _ (Ne.symm other)
    · rfl

/-- An action gives a result, and the world that it leaves differs in kept lists of all fields. -/
def Lists {α : Type} (a : Action α) (w : World) (x : α) : Prop :=
  ∃ w', exec a w = (.ok x, w') ∧ w.Listed w'

theorem Lists.of_still {α : Type} {a : Action α} {x : α} (sound : w.SoundSchemas)
    (h : exec a w = (.ok x, w)) : Lists a w x := ⟨w, h, .refl sound⟩

/-- A sequence lists if its steps do, each in the world that it finds. -/
theorem Lists.bind {α β : Type} {a : Action α} {f : α → Action β} {x : α} {y : β}
    (first : Lists a w x) (second : ∀ w', w.Listed w' → Lists (f x) w' y) :
    Lists (a >>= f) w y := by
  obtain ⟨w₁, run, listed⟩ := first
  obtain ⟨w₂, run', listed'⟩ := second w₁ listed
  exact ⟨w₂, by rw [exec_bind_ok run, run'], listed.trans listed'⟩

/-- After a step that leaves the world as it is, a sequence lists if what follows does. -/
theorem Lists.after {α β : Type} {a : Action α} {x : α} {f : α → Action β} {y : β}
    (h : exec a w = (.ok x, w)) (second : Lists (f x) w y) : Lists (a >>= f) w y := by
  obtain ⟨w', run, listed⟩ := second
  exact ⟨w', by rw [exec_bind_ok h, run], listed⟩

/-- Only the run of an action matters. -/
theorem Lists.congr {α : Type} {a b : Action α} {x : α} (h : exec a w = exec b w)
    (lists : Lists b w x) : Lists a w x := by
  unfold Lists
  rw [h]
  exact lists

/-- A list of all fields is given as it is kept, or it is computed and kept. -/
theorem SoundSchemas.lists_listedNames (sound : w.SoundSchemas) (s : Nat)
    {compute : Action (List Value)} (computed : Lists compute w (w.declared s)) :
    Lists (listedNames d s .all compute) w (w.declared s) := by
  unfold Lists
  rw [sound.plain.exec_listedNames]
  split
  · next names kept =>
    exact ⟨w, by rw [sound.full s names kept], .refl sound⟩
  · refine computed.bind fun w₁ listed => ?_
    exact ⟨_, rfl, listed.sound.listed_withList (listed.relisted.declared s).symm⟩

theorem SoundSchemas.exec_ownFieldNames (sound : w.SoundSchemas) (s : Nat) :
    exec (ownFieldNames d s) w = (.ok (w.schema s).fields.keys, w) := by
  unfold ownFieldNames
  rw [exec_bind_ok (sound.plain.exec_standIn? _ _)]
  rfl

/-- By induction on the age of the schema: its parent, if it has one, is older. -/
theorem SoundSchemas.lists_namesAlong (s : Nat) : ∀ {w : World}, w.SoundSchemas →
    Lists (namesAlong d (w.schemaChain s)) w (w.declared s) := by
  induction s using Nat.strongRecOn with
  | _ s ih =>
    intro w sound
    have inherited : Lists (namesAlong d ((w.schema s).parent.elim [] w.schemaChain)) w
        ((w.schema s).parent.elim [] w.declared) := by
      cases hp : (w.schema s).parent with
      | none => exact .of_still sound rfl
      | some p => exact ih p (sound.older s p hp) sound
    rw [schemaChain_eq sound.older, namesAlong]
    refine .congr (sound.plain.exec_orStandIn ..) (sound.lists_listedNames d s ?_)
    refine .after (sound.plain.exec_foreignParent? s) (inherited.bind fun w₁ listed => ?_)
    refine .after (listed.sound.exec_ownFieldNames d s) ?_
    rw [listed.relisted.schemaFields, declared_eq sound.older]
    exact .of_still listed.sound rfl

/-- All field names of a schema are listed as they are declared. -/
theorem SoundSchemas.exec_allFieldNames (sound : w.SoundSchemas) (s : Nat) :
    Lists (allFieldNames d s) w (w.declared s) := by
  unfold allFieldNames
  exact .after (exec_get w) (lists_namesAlong d s sound)

theorem SoundSchemas.lists_inheritedNames (sound : w.SoundSchemas) (s : Nat) :
    Lists (inheritedNames d s) w ((w.schema s).parent.elim [] w.declared) := by
  unfold inheritedNames
  refine .after (exec_get w) ?_
  rw [sound.plain.parentOf]
  cases (w.schema s).parent with
  | none => exact .of_still sound rfl
  | some p => exact sound.exec_allFieldNames d p

/-- The names that a projection covers before flags are asked: all names, or the own ones. -/
def covered (w : World) (s : Nat) (ownOnly : Bool) : List Value :=
  if ownOnly then mergeNames [] (w.schema s).fields.keys else w.declared s

/-- The names that a projection covers are put together, each of them once. -/
theorem SoundSchemas.lists_coveredNames (sound : w.SoundSchemas) (s : Nat) (ownOnly : Bool) :
    Lists (declaredNames d s ownOnly) w (w.covered s ownOnly) := by
  unfold declaredNames
  cases ownOnly with
  | true =>
    exact .after (exec_pure ..) (.after (sound.exec_ownFieldNames d s) (.of_still sound rfl))
  | false =>
    refine (sound.lists_inheritedNames d s).bind fun w₁ listed => ?_
    refine .after (listed.sound.exec_ownFieldNames d s) ?_
    rw [covered, if_neg Bool.false_ne_true, listed.relisted.schemaFields, declared_eq sound.older]
    exact .of_still listed.sound rfl

/-- The declared names are put together as they are declared. -/
theorem SoundSchemas.lists_declaredNames (sound : w.SoundSchemas) (s : Nat) :
    Lists (declaredNames d s false) w (w.declared s) := sound.lists_coveredNames d s false

/-- Without flags all declared names are listed. -/
theorem SoundSchemas.lists_fieldList (sound : w.SoundSchemas) (s : Nat) :
    Lists (fieldList d s .all) w (w.declared s) := by
  refine sound.lists_listedNames d s ?_
  show Lists (declaredNames d s false >>= pure) w _
  rw [bind_pure]
  exact sound.lists_declaredNames d s

/-- The list of a projection, without a kept one: the names that it covers, of which those are left
out that are not shown. -/
def computedNames (d : Dispatch) (s : Nat) (p : Projection) : Action (List Value) := do
  let declared ← declaredNames d s p.ownOnly
  if p.uiOnly then declared.filterM (isShown d s) else return declared

/-- A list that a schema keeps is given back. -/
theorem Plain.exec_fieldList_of_kept (plain : w.Plain) {s : Nat} {p : Projection}
    {names : List Value} (kept : (w.schema s).fieldLists.get? p = some names) :
    exec (fieldList d s p) w = (.ok names, w) := by
  unfold fieldList
  rw [plain.exec_listedNames, kept]

/-- Any other one is computed, and then kept. -/
theorem Plain.exec_fieldList_of_missed (plain : w.Plain) {s : Nat} {p : Projection}
    (missed : (w.schema s).fieldLists.get? p = none) :
    exec (fieldList d s p) w = match exec (computedNames d s p) w with
      | (.ok names, w₁) => (.ok names, w₁.withList s p names)
      | (.error e, w₁) => (.error e, w₁) := by
  unfold fieldList
  rw [plain.exec_listedNames, missed, ← computedNames]
  dsimp only
  rw [exec_bind]
  rcases exec (computedNames d s p) w with ⟨e | names, w₁⟩ <;> rfl

variable {d} in
theorem SoundSchemas.computedNames_eq_ok (sound : w.SoundSchemas) {s : Nat} {p : Projection}
    {names : List Value} {w' : World} (run : exec (computedNames d s p) w = (.ok names, w')) :
    ∃ w₁, w.Listed w₁ ∧
      ((p.uiOnly = false ∧ names = w.covered s p.ownOnly ∧ w' = w₁) ∨
        (p.uiOnly = true ∧
          exec ((w.covered s p.ownOnly).filterM (isShown d s)) w₁ = (.ok names, w'))) := by
  obtain ⟨w₁, covered, listed⟩ := sound.lists_coveredNames d s p.ownOnly
  unfold computedNames at run
  rw [exec_bind_ok covered] at run
  refine ⟨w₁, listed, ?_⟩
  cases flag : p.uiOnly with
  | false =>
    rw [flag] at run
    obtain ⟨rfl, rfl⟩ := exec_pure_eq_ok.mp run
    exact .inl ⟨rfl, rfl, rfl⟩
  | true =>
    rw [flag] at run
    exact .inr ⟨rfl, run⟩

/-! ## Development -/

/-- Fields are only added: the ones that exist keep their names. -/
structure KeepsNames (w w' : World) : Prop where
  size : w.fields.size ≤ w'.fields.size
  name : ∀ f < w.fields.size, (w'.field f).name = (w.field f).name

theorem KeepsNames.refl (w : World) : w.KeepsNames w := ⟨Nat.le_refl _, fun _ _ => rfl⟩

theorem KeepsNames.trans {u v w : World} (first : u.KeepsNames v) (second : v.KeepsNames w) :
    u.KeepsNames w where
  size := Nat.le_trans first.size second.size
  name f h := (second.name f (Nat.lt_of_lt_of_le h first.size)).trans (first.name f h)

theorem KeepsNames.of_fields {w w' : World} (h : w'.fields = w.fields) : w.KeepsNames w' := by
  refine ⟨Nat.le_of_eq (by rw [h]), fun f _ => ?_⟩
  rw [field, h]
  rfl

/-- A change of one field that keeps its name. -/
theorem KeepsNames.modifyField (w : World) (id : Nat) {change : FieldNode → FieldNode}
    (h : ∀ n, (change n).name = n.name) : w.KeepsNames (w.modifyField id change) := by
  refine ⟨Nat.le_of_eq Array.size_modify.symm, fun f _ => ?_⟩
  rw [field_modifyField]
  split
  · exact h _
  · rfl

/-- What a schema has as a field under its name, it has so afterwards. -/
theorem KeepsNames.entry {w w' : World} (h : w.KeepsNames w') {e : Value × Value}
    (entry : ∃ f < w.fields.size, e = (.str (w.field f).name, .field f)) :
    ∃ f < w'.fields.size, e = (.str (w'.field f).name, .field f) := by
  obtain ⟨f, inside, rfl⟩ := entry
  exact ⟨f, Nat.lt_of_lt_of_le inside h.size, by rw [h.name f inside]⟩

/-- Schemas are only added: the ones that exist keep their parents and their own fields. -/
structure Extends (w w' : World) : Prop where
  names : w.KeepsNames w'
  size : w.schemas.size ≤ w'.schemas.size
  parent : ∀ s < w.schemas.size, (w'.schema s).parent = (w.schema s).parent
  fields : ∀ s < w.schemas.size, (w'.schema s).fields = (w.schema s).fields

theorem Extends.refl (w : World) : w.Extends w :=
  ⟨.refl w, Nat.le_refl _, fun _ _ => rfl, fun _ _ => rfl⟩

theorem Extends.trans {u v w : World} (first : u.Extends v) (second : v.Extends w) :
    u.Extends w where
  names := first.names.trans second.names
  size := Nat.le_trans first.size second.size
  parent s h := (second.parent s (Nat.lt_of_lt_of_le h first.size)).trans (first.parent s h)
  fields s h := (second.fields s (Nat.lt_of_lt_of_le h first.size)).trans (first.fields s h)

theorem Extends.of_schemas {w w' : World} (names : w.KeepsNames w') (h : w'.schemas = w.schemas) :
    w.Extends w' := by
  have schema : ∀ s, w'.schema s = w.schema s := fun s => by rw [World.schema, h]; rfl
  exact ⟨names, Nat.le_of_eq (by rw [h]), fun s _ => by rw [schema], fun s _ => by rw [schema]⟩

theorem Relisted.extends {w w' : World} (h : w.Relisted w') : w.Extends w' :=
  ⟨.of_fields h.fields, Nat.le_of_eq h.size.symm, fun s _ => h.schemaParent s,
    fun s _ => h.schemaFields s⟩

/-- A schema that exists goes on to declare what it declares. -/
theorem Extends.declared_of_lt {w w' : World} (h : w.Extends w') (sound : w.SoundSchemas)
    (sound' : w'.SoundSchemas) (s : Nat) (inside : s < w.schemas.size) :
    w'.declared s = w.declared s :=
  declared_congr sound.older sound'.older h.parent h.fields s inside

/-- A number without a schema declares nothing. -/
theorem declared_of_size_le {w : World} {s : Nat} (h : w.schemas.size ≤ s) : w.declared s = [] := by
  have alone : (w.schema s).parent = none := by
    rw [schema_of_size_le h]
    rfl
  rw [declared, schemaChain, ancestry_of_none alone, declaredAlong, declaredAlong,
    schema_of_size_le h]
  rfl

theorem Extends.declared_sublist {w w' : World} (h : w.Extends w') (sound : w.SoundSchemas)
    (sound' : w'.SoundSchemas) (s : Nat) : (w.declared s).Sublist (w'.declared s) := by
  rcases Nat.lt_or_ge s w.schemas.size with inside | outside
  · rw [h.declared_of_lt sound sound' s inside]
  · rw [declared_of_size_le outside]
    exact List.nil_sublist _

/-- Sound schemas stay sound, and schemas are only added. -/
def Develops (w w' : World) : Prop := w.SoundSchemas → w'.SoundSchemas ∧ w.Extends w'

/-- A world is as sound as before if its schemas keep what matters. -/
theorem SoundSchemas.of_kept {w w' : World} (sound : w.SoundSchemas) (plain : w'.Plain)
    (names : w.KeepsNames w') (unshared : w'.sharedParts = [])
    (size : w'.schemas.size = w.schemas.size)
    (parent : ∀ s, (w'.schema s).parent = (w.schema s).parent)
    (fields : ∀ s, (w'.schema s).fields = (w.schema s).fields)
    (registry : ∀ s, (w'.schema s).registry = (w.schema s).registry)
    (lists : ∀ s, (w'.schema s).fieldLists = (w.schema s).fieldLists) : w'.SoundSchemas := by
  have older : ∀ s p, (w'.schema s).parent = some p → p < s := fun s => by
    rw [parent]
    exact sound.older s
  have declared : ∀ s, w'.declared s = w.declared s := fun s =>
    declared_congr sound.older older (fun s _ => parent s) (fun s _ => fields s) s
      (Nat.lt_succ_self s)
  refine ⟨plain, unshared, older, ?_, ?_, ?_, ?_⟩ <;> intro s
  · rw [size, registry]
    exact sound.served s
  · intro e h
    rw [fields] at h
    exact names.entry (sound.fields s e h)
  · rw [lists, declared]
    exact sound.full s
  · rw [lists, declared]
    exact sound.shown s

/-- A step that leaves schemas as they are develops them. -/
theorem develops_of_kept {w w' : World} (plain : w.Plain → w'.Plain)
    (apart : w.sharedParts = [] →
      w'.sharedParts = [] ∧ w.KeepsNames w' ∧ w'.schemas = w.schemas) :
    w.Develops w' := by
  intro sound
  obtain ⟨unshared, names, schemas⟩ := apart sound.unshared
  have schema : ∀ s, w'.schema s = w.schema s := fun s => by rw [World.schema, schemas]; rfl
  refine ⟨sound.of_kept (plain sound.plain) names unshared (by rw [schemas]) ?_ ?_ ?_ ?_,
    .of_schemas names schemas⟩ <;> intro s <;> rw [schema]

instance Develops.frame : Frame Develops where
  refl w sound := ⟨sound, .refl w⟩
  trans first second sound := by
    obtain ⟨sound₁, extends₁⟩ := first sound
    obtain ⟨sound₂, extends₂⟩ := second sound₁
    exact ⟨sound₂, extends₁.trans extends₂⟩
  log w l := develops_of_kept (fun h => ⟨h.types, h.fields, h.schemas⟩) fun h =>
    ⟨h, .of_fields rfl, rfl⟩
  identity w n := develops_of_kept (fun h => ⟨h.types, h.fields, h.schemas⟩) fun h =>
    ⟨h, .of_fields rfl, rfl⟩

/-- What only lists develops. -/
theorem Lists.develops {α : Type} {a : Action α}
    (h : ∀ w : World, w.SoundSchemas → ∃ x, Lists a w x) : Along Develops a where
  out w sound := by
    obtain ⟨x, w', run, listed⟩ := h w sound
    rw [run]
    exact ⟨listed.sound, listed.relisted.extends⟩

/-- To keep a list that was computed is sound. -/
theorem SoundSchemas.withList_computed {d : Dispatch} {w w' : World} (sound : w.SoundSchemas)
    {s : Nat} {p : Projection} {names : List Value}
    (run : exec (computedNames d s p) w = (.ok names, w')) (sound' : w'.SoundSchemas)
    (extends' : w.Extends w') : (w'.withList s p names).SoundSchemas := by
  obtain ⟨w₁, listed, given⟩ := sound.computedNames_eq_ok run
  refine sound'.withList s ?_ ?_
  · rintro rfl
    rcases given with ⟨-, rfl, rfl⟩ | ⟨shown, -⟩
    · exact (listed.relisted.declared s).symm
    · cases shown
  · rintro rfl
    rcases given with ⟨all, -⟩ | ⟨-, filtered⟩
    · cases all
    · exact (sublist_of_filterM filtered).trans (extends'.declared_sublist sound sound' s)

/-! ## Flags -/

section Flags

variable {d : Dispatch} {w w' : World} {flags : List Value} {p : Projection} {s : Nat}

/-- What flags list is what the projection lists that they are for. -/
theorem Plain.exec_fieldNames (plain : w.Plain)
    (chosen : exec (Projection.ofFlags d flags) w = (.ok p, w)) :
    exec (fieldNames d s flags) w = exec (fieldList d s p) w := by
  unfold fieldNames
  rw [plain.exec_orStandIn, exec_bind_ok chosen]

/-- Fields are visited as they were listed for both flags. -/
theorem exec_visitOwn_of_listed {σ : Type} {names : List Value} {start : σ}
    {visit : σ → Value → Action σ}
    (chosen : exec (Projection.ofFlags d flags) w' = (.ok p, w'))
    (listed : exec (fieldNames d s (bothFlags flags)) w = (.ok names, w')) :
    exec (visitOwn d s flags start visit) w
      = exec (visitNames d s p.uiOnly visit names start) w' := by
  unfold visitOwn
  rw [exec_bind_ok listed, exec_bind_ok chosen]

theorem Plain.exec_visitFields {σ : Type} {start : σ} {visit : σ → Value → Action σ}
    (plain : w.Plain) :
    exec (visitFields d s flags start visit) w = exec (visitOwn d s flags start visit) w := by
  unfold visitFields
  rw [exec_bind_ok (plain.exec_standIn? _ _)]

end Flags

end World

/-- Where the functions of a provider develop schemas, the whole dispatch does. -/
theorem Provider.dispatch_develops {call : Provider} (user : call.Within World.Develops)
    (depth : Nat) : (call.dispatch depth).Within World.Develops :=
  Provider.dispatch_within_of user (fun d _ _ _ s =>
    World.Lists.develops fun _ sound => ⟨_, sound.exec_allFieldNames d s⟩) depth

/-- To list fields follows a relation that matters for worlds with sound schemas only, where it is
followed when a list that was computed is kept. -/
theorem along_fieldList_of {R : World → World → Prop} {d : Dispatch} [d.Within R] {s : Nat}
    {p : Projection} (assuming : ∀ {w w' : World}, (w.SoundSchemas → R w w') → R w w')
    (keeps : ∀ {w w₁ : World} {names : List Value}, w.SoundSchemas →
      exec (World.computedNames d s p) w = (.ok names, w₁) → R w w₁ →
      R w (w₁.withList s p names)) : Along R (fieldList d s p) where
  out w := assuming fun sound => by
    have computed : Along R (World.computedNames d s p) := by
      unfold World.computedNames
      infer_instance
    cases listed : (w.schema s).fieldLists.get? p with
    | some names =>
      rw [sound.plain.exec_fieldList_of_kept d listed]
      exact Frame.refl w
    | none =>
      rw [sound.plain.exec_fieldList_of_missed d listed]
      rcases run : exec (World.computedNames d s p) w with ⟨e | names, w₁⟩
      · exact Along.of_error run
      · exact keeps sound run (Along.of_ok run)

/-- To list the fields that a projection covers develops schemas: a list for user interfaces leaves
out some of the declared names, whatever their fields say. -/
instance along_fieldList_develops {d : Dispatch} [d.Within World.Develops] (s : Nat)
    (p : Projection) : Along World.Develops (fieldList d s p) := by
  refine along_fieldList_of (fun h sound => h sound sound) fun {w w₁ names} sound run develops _ => ?_
  obtain ⟨sound₁, extends₁⟩ := develops sound
  have kept : w₁.Relisted (w₁.withList s p names) := w₁.relisted_keep s p names
  exact ⟨sound.withList_computed run sound₁ extends₁, extends₁.trans kept.extends⟩

section Names

variable {d : Dispatch} {w w' : World}

/-- What a list leaves out are names; it has no others than those that the schema declares. -/
theorem World.SoundSchemas.sublist_of_fieldList (sound : w.SoundSchemas) {s : Nat} {p : Projection}
    {names : List Value} (all : p.ownOnly = false)
    (run : exec (fieldList d s p) w = (.ok names, w')) : names.Sublist (w.declared s) := by
  obtain ⟨uiOnly, ownOnly⟩ := p
  obtain rfl : ownOnly = false := all
  cases listed : (w.schema s).fieldLists.get? ⟨uiOnly, false⟩ with
  | some kept =>
    rw [sound.plain.exec_fieldList_of_kept d listed] at run
    obtain rfl := Except.ok.inj (Prod.mk.inj run).1
    cases uiOnly with
    | false => exact (sound.full s _ listed) ▸ List.Sublist.refl _
    | true => exact sound.shown s _ listed
  | none =>
    rw [sound.plain.exec_fieldList_of_missed d listed] at run
    rcases given : exec (World.computedNames d s ⟨uiOnly, false⟩) w with ⟨e | computed, w₁⟩ <;>
      rw [given] at run
    · cases run
    · obtain rfl := Except.ok.inj (Prod.mk.inj run).1
      obtain ⟨w₃, -, ⟨-, rfl, -⟩ | ⟨-, filtered⟩⟩ := sound.computedNames_eq_ok given
      · exact List.Sublist.refl _
      · exact sublist_of_filterM filtered

/-- Where flags leave out no inherited names, all names are listed, or some of them. -/
theorem World.SoundSchemas.sublist_of_fieldNames {R : World → World → Prop} [d.Within R]
    (develops : ∀ u v, R u v → u.Develops v) (sound : w.SoundSchemas) {s : Nat}
    (inside : s < w.schemas.size) {flags : List Value}
    (all : (flags[1]?).getD (.bool false) = .bool false) {names : List Value}
    (run : exec (fieldNames d s flags) w = (.ok names, w')) : names.Sublist (w.declared s) := by
  have along : Along R (Projection.ofFlags d flags) := by
    unfold Projection.ofFlags
    infer_instance
  unfold fieldNames at run
  rw [sound.plain.exec_orStandIn] at run
  obtain ⟨p, w₁, chosen, listed⟩ := exec_bind_eq_ok.mp run
  obtain ⟨sound₁, extends₁⟩ := develops w w₁ (Along.of_ok chosen) sound
  have all' : p.ownOnly = false := by
    unfold Projection.ofFlags at chosen
    obtain ⟨b, w₂, -, rest⟩ := exec_bind_eq_ok.mp chosen
    dsimp only at rest
    rw [all] at rest
    obtain ⟨rfl, -⟩ := exec_pure_eq_ok.mp rest
    rfl
  rw [← extends₁.declared_of_lt sound sound₁ s inside]
  exact sound₁.sublist_of_fieldList all' listed

end Names

end DataShape
