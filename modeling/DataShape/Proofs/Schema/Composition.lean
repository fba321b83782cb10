import DataShape.Proofs.Schema.Children
import DataShape.Proofs.Schema.Founded
import DataShape.Proofs.Schema.Run

/-! # Schemas are composed of older ones

A schema is composed of others: its parent, and the schemas whose records its fields hold. All of
them were there before it, since a template can only refer to what there is when it is compiled. So
it is for schemas that were left behind by a compilation that failed.

* `World.Underlies` — one schema is the parent of another one, or held by a field of it.
* `World.Persists` — sound schemas stay sound, and those that there are stay composed as they are.
* `World.Composes` — what was added is composed of what was there before.
* `composes_perform` — so it is after every call that compiles a template.
* `CompositionRun` — sessions of such calls; `CompositionRun.before` — what underlies a schema was
  there when the schema was not. -/

namespace DataShape

namespace World

/-! ## Composition -/

/-- A schema is the parent of another one, or an own field of that one holds records of it. -/
inductive Underlies (w : World) (t s : Nat) : Prop where
  | parent (above : (w.schema s).parent = some t)
  | nested {e : Value × Value} {f : Nat} (there : e ∈ (w.schema s).fields) (field : e.2 = .field f)
      (held : (w.field f).type = .schema t)

/-- Whether a value is a field that holds records of a schema. -/
def isFieldOf (w : World) (t : Nat) (v : Value) : Bool :=
  match v with
  | .field f => (w.field f).type == .schema t
  | _ => false

instance (w : World) (t s : Nat) : Decidable (w.Underlies t s) :=
  decidable_of_iff ((w.schema s).parent = some t ∨
      ((w.schema s).fields.any fun e => w.isFieldOf t e.2) = true) <| by
    constructor
    · rintro (above | nested)
      · exact .parent above
      · obtain ⟨e, there, holds⟩ := List.any_eq_true.mp nested
        unfold isFieldOf at holds
        split at holds
        · next f field => exact .nested there field (beq_iff_eq.mp holds)
        · cases holds
    · rintro (above | ⟨there, field, held⟩)
      · exact .inl above
      · refine .inr (List.any_eq_true.mpr ⟨_, there, ?_⟩)
        rw [field, isFieldOf, held, beq_self_eq_true]

/-- What other schemas underlie is a schema. -/
theorem Underlies.lt_size {w : World} {t s : Nat} (h : w.Underlies t s) : s < w.schemas.size := by
  by_contra outside
  have none : w.schema s = default := schema_of_size_le (Nat.le_of_not_lt outside)
  cases h with
  | parent above =>
    rw [none] at above
    cases above
  | nested there _ _ =>
    rw [none] at there
    cases there

/-- Sound schemas stay sound, and the schemas that there are keep their parents, their own fields,
and what these hold. -/
def Persists (w w' : World) : Prop :=
  w.SoundSchemas → w'.SoundSchemas ∧ w.Extends w' ∧
    ∀ f < w.fields.size, (w'.field f).type = (w.field f).type

theorem Persists.develops {w w' : World} (h : w.Persists w') : w.Develops w' := fun sound =>
  ⟨(h sound).1, (h sound).2.1⟩

instance Persists.developing : Developing Persists where
  refl w sound := ⟨sound, .refl w, fun _ _ => rfl⟩
  trans first second sound := by
    obtain ⟨sound₁, extends₁, held₁⟩ := first sound
    obtain ⟨sound₂, extends₂, held₂⟩ := second sound₁
    exact ⟨sound₂, extends₁.trans extends₂, fun f inside =>
      (held₂ f (Nat.lt_of_lt_of_le inside extends₁.names.size)).trans (held₁ f inside)⟩
  log w l sound := by
    obtain ⟨sound', extends'⟩ := Frame.log (R := Develops) w l sound
    exact ⟨sound', extends', fun _ _ => rfl⟩
  identity w n sound := by
    obtain ⟨sound', extends'⟩ := Frame.identity (R := Develops) w n sound
    exact ⟨sound', extends', fun _ _ => rfl⟩
  assuming h sound := h sound sound
  apart plain apart sound := by
    obtain ⟨sound', extends'⟩ := Developing.apart (R := Develops) plain apart sound
    refine ⟨sound', extends', fun f inside => ?_⟩
    rw [(apart sound.unshared).2.1.field f inside]
  added _ adds _ := ⟨adds.building.sound, adds.extends, fun f inside => by
    rw [adds.nodes.field f inside]⟩

/-- Where kept lists are as they should be, it does not matter which there are. -/
theorem Relisted.persists {w w' : World} (h : w.Relisted w') (sound' : w'.SoundSchemas) :
    w.Persists w' := fun _ => ⟨sound', h.extends, fun f _ => by rw [h.field]⟩

/-- Of a schema that was there before, the same schemas are underlying. -/
theorem Persists.underlies {w w' : World} (h : w.Persists w') (sound : w.SoundSchemas) {t s : Nat}
    (inside : s < w.schemas.size) (under : w'.Underlies t s) : w.Underlies t s := by
  obtain ⟨-, extends', held'⟩ := h sound
  cases under with
  | parent above => exact .parent ((extends'.parent s inside).symm.trans above)
  | @nested e f there field held =>
    rw [extends'.fields s inside] at there
    obtain ⟨g, exists', rfl⟩ := sound.fields s e there
    obtain rfl : g = f := Value.field.inj field
    exact .nested there rfl ((held' g exists').symm.trans held)

/-! ## What was added -/

/-- Schemas persist, and what underlies a schema that was added was there before. -/
structure Composes (w w' : World) : Prop where
  sound : w'.SoundSchemas
  persists : w.Persists w'
  below : ∀ t s, w.schemas.size ≤ s → w'.Underlies t s → t < w.schemas.size

/-- Schemas persist, and none is added. -/
structure Rests (w w' : World) : Prop where
  persists : w.Persists w'
  size : w'.schemas.size = w.schemas.size

theorem Rests.composes {w w' : World} (h : w.Rests w') (sound : w.SoundSchemas) :
    w.Composes w' where
  sound := (h.persists sound).1
  persists := h.persists
  below t s newer under := by
    have inside := under.lt_size
    rw [h.size] at inside
    exact absurd inside (Nat.not_lt.mpr newer)

theorem Rests.trans {u v w : World} (first : u.Rests v) (second : v.Rests w) : u.Rests w :=
  ⟨Frame.trans first.persists second.persists, second.size.trans first.size⟩

/-- Rest before an addition. -/
theorem Composes.after {u v w : World} (rests : u.Rests v) (h : v.Composes w) : u.Composes w where
  sound := h.sound
  persists := Frame.trans rests.persists h.persists
  below t s newer under := by
    rw [← rests.size] at newer ⊢
    exact h.below t s newer under

/-- Rest after an addition. -/
theorem Composes.rest {u v w : World} (h : u.Composes v) (rests : v.Rests w) : u.Composes w where
  sound := (rests.persists h.sound).1
  persists := Frame.trans h.persists rests.persists
  below t s newer under := by
    have inside := under.lt_size
    rw [rests.size] at inside
    exact h.below t s newer (rests.persists.underlies h.sound inside under)

/-- What follows the development of schemas and is idle rests. -/
theorem Rests.of_idle {w : World} (sound : w.SoundSchemas) {α : Type} (a : Action α)
    [idle : Along Idle a] [along : Along Persists a] : w.Rests (exec a w).2 :=
  ⟨along.out w, (idle.out w sound.plain).schemasSize⟩

end World

/-! ## References of templates -/

namespace World

/-- What a live part of a field or of a schema belongs to is there. -/
def HasPart (w : World) : Part → Prop
  | .fieldAttributes f => f < w.fields.size
  | .schemaFields s => s < w.schemas.size
  | .fieldLists s => s < w.schemas.size
  | _ => True

/-- A specification refers to a schema, as the schema itself or as the type that it names. -/
def Refers (w : World) (spec : Value) (t : Nat) : Prop :=
  spec.unlisted = .schema t ∨
    ∃ entries, w.mapping? spec.unlisted = some entries ∧
      Table.get? entries (.str "type") = some (.schema t)

/-- Whatever a specification refers to is there. -/
structure Offers (w : World) (spec : Value) : Prop where
  parts : ∀ part readOnly, spec.unlisted = .live part readOnly → w.HasPart part
  schemas : ∀ t, w.Refers spec t → t < w.schemas.size

/-- A specification that is a schema refers to it. -/
theorem Offers.of_schema {w : World} {spec : Value} {t : Nat} (here : spec.unlisted = .schema t)
    (inside : t < w.schemas.size) : w.Offers spec where
  parts part readOnly live := by
    rw [here] at live
    cases live
  schemas u refers := by
    rw [Refers, here] at refers
    rcases refers with same | ⟨entries, mapped, -⟩
    · exact Value.schema.inj same ▸ inside
    · cases mapped

/-- A mapping refers to the schema that it has as its type. -/
theorem Offers.of_dict {w : World} {spec : Value} {share : Nat} {entries : Entries}
    (here : spec.unlisted = .dict share entries)
    (inside : ∀ t, Table.get? entries (.str "type") = some (.schema t) → t < w.schemas.size) :
    w.Offers spec where
  parts part readOnly live := by
    rw [here] at live
    cases live
  schemas u refers := by
    rw [Refers, here] at refers
    rcases refers with same | ⟨found, mapped, type⟩
    · cases same
    · exact inside u (Option.some.inj mapped ▸ type)

/-- A name refers to no schema. -/
theorem Offers.of_str {w : World} {spec : Value} {name : String}
    (here : spec.unlisted = .str name) : w.Offers spec where
  parts part readOnly live := by
    rw [here] at live
    cases live
  schemas u refers := by
    rw [Refers, here] at refers
    rcases refers with same | ⟨entries, mapped, -⟩
    · cases same
    · cases mapped

end World

section Specification

variable {d : Dispatch} {w w' : World} {s r : Nat}
  (served : (w.schema s).registry = .registry r)

include served

/-- A reference that is resolved stands for itself if it is a schema; a name stands for a type. -/
theorem schema_of_resolveReference {field : String} {reference : Value} {t : Nat}
    (run : exec (resolveReference d s field reference) w = (.ok (.schema t), w')) :
    reference = .schema t := by
  unfold resolveReference at run
  split at run
  · cases (exec_pure_eq_ok.mp run).1
  · exact (exec_pure_eq_ok.mp run).1
  · rw [exec_bind_ok (exec_get w), served] at run
    obtain ⟨id, w₁, -, run⟩ := exec_bind_eq_ok.mp run
    cases (exec_pure_eq_ok.mp run).1
  · simp [exec_bind_eq_ok] at run

/-- The schema that a specification is read to hold is one that it refers to. -/
theorem refers_of_readSpec {field : String} {spec : Value} {read : FieldSpec} {t : Nat}
    (run : exec (readSpec d s field spec) w = (.ok read, w')) (type : read.type = .schema t) :
    w.Refers spec t := by
  obtain ⟨reference, resolved, given⟩ := readSpec_eq_ok run
  rw [type] at resolved
  obtain rfl := schema_of_resolveReference served resolved
  rcases given with ⟨here, -⟩ | ⟨entries, mapped, found, -⟩
  · exact .inl here.symm
  · exact .inr ⟨entries, mapped, found⟩

end Specification

/-! ## A schema that is being composed -/

/-- A schema is being compiled, neither types nor registries change meanwhile, and its own fields
hold records of schemas that were there before only. -/
structure World.Composing (w₀ w : World) (s : Nat) : Prop where
  adds : w₀.Adds w s
  types : w.types = w₀.types
  registries : w.registries = w₀.registries
  nested : ∀ e ∈ (w.schema s).fields, ∀ f t, e.2 = .field f → (w.field f).type = .schema t →
    t < w₀.schemas.size

namespace World.Composing

variable {w₀ w : World} {s : Nat} (composing : w₀.Composing w s)

include composing

theorem inside : s < w.schemas.size := composing.adds.building.inside

theorem persists : w₀.Persists w := fun sound =>
  Developing.added (R := Persists) sound composing.adds sound

/-- The schema is the only one that was added. -/
theorem composes : w₀.Composes w where
  sound := composing.adds.building.sound
  persists := composing.persists
  below t i newer under := by
    have inside := under.lt_size
    rw [composing.adds.building.newest] at inside
    rw [← composing.adds.fresh] at newer
    -- Only one schema was added, so the newer one is the one that is being compiled.
    obtain rfl : i = s := by omega
    cases under with
    | parent above =>
      rw [← composing.adds.fresh]
      exact composing.adds.building.sound.older i t above
    | nested there field held => exact composing.nested _ there _ t field held

/-- What could be looked up before is still the same. -/
theorem mapping?_eq {v : Value} (parts : ∀ part readOnly, v = .live part readOnly → w₀.HasPart part) :
    w.mapping? v = w₀.mapping? v := by
  have type : ∀ t, w.type t = w₀.type t := fun t => by rw [World.type, composing.types]; rfl
  have registry : ∀ r, w.registry r = w₀.registry r := fun r => by
    rw [World.registry, composing.registries]
    rfl
  cases v with
  | live part readOnly =>
    have there := parts part readOnly rfl
    refine congrArg some ?_
    cases part with
    | typeAttributes t => exact congrArg TypeNode.attributes (type t)
    | fieldAttributes f => exact congrArg FieldNode.attributes (composing.adds.nodes.field f there)
    | schemaFields i => exact composing.adds.fields i (composing.adds.fresh ▸ there)
    | fieldLists i =>
      exact congrArg (List.map fieldListEntry) (composing.adds.lists i (composing.adds.fresh ▸ there))
    | registryTypes r =>
      exact congrArg (fun n : RegistryNode => n.types.map fun e => (Value.str e.1, Value.type e.2))
        (registry r)
    | tableEntries owner =>
      cases owner with
      | type t => exact congrArg TypeNode.capabilities (type t)
      | registrySchemas r => exact congrArg RegistryNode.schemaCapabilities (registry r)
      | registryFields r => exact congrArg RegistryNode.fieldCapabilities (registry r)
  | _ => rfl

/-- What a specification refers to was there before. -/
theorem lt_of_refers {spec : Value} (offers : w₀.Offers spec) {t : Nat} (refers : w.Refers spec t) :
    t < w₀.schemas.size := by
  refine offers.schemas t ?_
  unfold Refers at refers ⊢
  rwa [composing.mapping?_eq offers.parts] at refers

end World.Composing

section Compile

variable {call : Provider} {depth : Nat} {w₀ w w' : World} {s : Nat}

/-- A field that is compiled is a new one, and holds records of a schema only if its specification
refers to it. -/
theorem type_of_compileField {d : Dispatch} (building : w.Building s) {name spec : Value} {id : Nat}
    (run : exec (compileField d s name spec) w = (.ok id, w')) :
    w'.types = w.types ∧ w'.registries = w.registries ∧ w.fields.size ≤ id ∧
      ∀ t, (w'.field id).type = .schema t → w.Refers spec t := by
  obtain ⟨r, served⟩ := building.served
  obtain ⟨n, read, held, -, -, first, type, rfl, rfl⟩ :=
    (exec_compileField_eq_ok building.sound.plain building.sound.unshared served).mp run
  refine ⟨rfl, rfl, Nat.le_refl _, fun t nested => ?_⟩
  rw [World.field_push, if_pos rfl] at nested
  obtain rfl : held = .schema t := nested
  exact refers_of_readSpec served first type.symm

/-- A field that is put among those of the schema goes on composing it. -/
theorem World.Composing.placed (composing : w₀.Composing w s) {name spec : Value} {id : Nat}
    {d : Dispatch} (offers : w₀.Offers spec)
    (run : exec (compileField d s name spec) w = (.ok id, w')) :
    ∃ w'', exec (placeField s name (.field id)) w' = (.ok ⟨⟩, w'') ∧ w₀.Composing w'' s := by
  obtain ⟨⟨n, rfl, inside, named⟩, building₁, nodes, schemas⟩ :=
    building_compileField composing.adds.building run
  obtain ⟨types, registries, newer, refers⟩ :=
    type_of_compileField composing.adds.building run
  have here := w'.schema_modifySchema s fun node =>
    { node with fields := Table.insert (w'.schema s).fields (.str n) (.field id) }
  have same : w'.schema s = w.schema s := by rw [World.schema, schemas]; rfl
  have exists' : s < w'.schemas.size := by
    rw [schemas]
    exact composing.inside
  have here := here s
  rw [if_pos ⟨rfl, exists'⟩] at here
  refine ⟨_, exec_placeField building₁.sound.plain building₁.sound.unshared .., ?_, ?_, ?_, ?_⟩
  · exact (composing.adds.compiled building₁ nodes schemas).placed inside named
  · exact types.trans composing.types
  · exact registries.trans composing.registries
  · intro e there f t field held
    change (w'.field f).type = .schema t at held
    rw [here] at there
    rcases Table.of_mem_insert there with old | ⟨value, -⟩
    · rw [same] at old
      -- An own field that was there before is an older one, and did not change.
      obtain ⟨g, existed, rfl⟩ := composing.adds.building.sound.fields s e old
      obtain rfl : g = f := Value.field.inj field
      rw [nodes.field g existed] at held
      exact composing.nested _ old g t rfl held
    -- The new entry is the field that was compiled, which holds what its specification refers to.
    · obtain rfl : id = f := Value.field.inj (value.symm.trans field)
      exact composing.lt_of_refers offers (refers t held)

variable [(call.dispatch depth).Within World.Persists]

/-- By induction on the template: a field that is compiled is put among those of the schema, and a
fault ends the compilation. -/
theorem composing_compileFields (entries : List (Value × Value)) :
    ∀ {w : World}, w₀.Composing w s → (∀ e ∈ entries, w₀.Offers e.2) →
      w₀.Composes (exec (compileFields (call.dispatch depth) s entries) w).2 := by
  induction entries with
  | nil => exact fun composing _ => composing.composes
  | cons entry rest ih =>
    intro w composing offers
    obtain ⟨name, spec⟩ := entry
    rw [compileFields, exec_bind]
    rcases run : exec (compileField (call.dispatch depth) s name spec) w with ⟨e | id, w₁⟩
    -- The schema stays behind with the fields that were compiled before the fault.
    · refine composing.composes.rest ⟨?_, ?_⟩
      · exact follows_of_compileField composing.adds.building run
      · have building := composing.adds.building
        obtain ⟨r, served⟩ := building.served
        exact (resembles_of_compileField_error building.sound.plain building.sound.unshared served
          run).schemasSize
    · obtain ⟨w₂, placed, composing₂⟩ := composing.placed (offers _ List.mem_cons_self) run
      dsimp only
      rw [exec_bind_ok placed]
      exact ih composing₂ fun e there => offers e (List.mem_cons_of_mem _ there)

end Compile

/-! ## Whole calls -/

/-- Where neither schemas nor fields change, schemas rest. -/
theorem World.Rests.of_keeps {w w' : World} (plain : w'.Plain) (keeps : w.KeepsSchemas w') :
    w.Rests w' where
  persists := Developing.apart (fun _ => plain) fun unshared =>
    ⟨keeps.sharedParts.trans unshared, .of_fields keeps.fields, keeps.schemas⟩
  size := by rw [keeps.schemas]

namespace CompileCall

/-- The schema that a call is to extend. -/
def above (c : CompileCall) : Option Nat :=
  match c.parent with
  | .schema p => some p
  | _ => none

/-- The world in which a call makes its schema, once the registry was found for it. -/
def opening (d : Dispatch) (c : CompileCall) (w : World) : World :=
  (exec (registryForSchema d (objectOrNull .registry c.registry) c.above) w).2

/-- Whatever the template refers to is there. -/
def Available (d : Dispatch) (w : World) (c : CompileCall) : Prop :=
  ∀ entries, w.mapping? c.template = some entries → ∀ e ∈ entries, (c.opening d w).Offers e.2

end CompileCall

section Calls

variable {call : Provider} {depth : Nat} {w : World}

/-- A registry is found for a new schema; at most the shared one is made for it. -/
theorem exec_registryForSchema_rests (call : Provider) (depth : Nat) (sound : w.SoundSchemas)
    (given : Option Nat) {above : Option Nat} (exists' : ∀ p, above = some p → p < w.schemas.size) :
    ∃ result w₀, exec (registryForSchema (call.dispatch (depth + 1))
        (objectOrNull .registry given) above) w = (result, w₀) ∧ w.Rests w₀ ∧
      ((∃ r, result = .ok (.registry r)) ∨ ∃ e, result = .error e) := by
  have still : w.Rests w := ⟨Frame.refl w, rfl⟩
  cases given with
  | some r => exact ⟨_, w, rfl, still, .inl ⟨r, rfl⟩⟩
  | none =>
    cases above with
    | some p =>
      obtain ⟨r, served⟩ := sound.served p (exists' p rfl)
      exact ⟨.ok (w.schema p).registry, w, rfl, still, .inl ⟨r, congrArg Except.ok served⟩⟩
    | none =>
      have taken : exec (registryForSchema (call.dispatch (depth + 1))
          (objectOrNull .registry none) none) w
            = exec (do return .registry (← sharedRegistry (call.dispatch (depth + 1)))) w := rfl
      rw [taken, exec_bind]
      rcases shared : exec (sharedRegistry (call.dispatch (depth + 1))) w with ⟨e | r, w₁⟩ <;>
        obtain ⟨plain, keeps⟩ := keeps_sharedRegistry sound.plain shared
      · exact ⟨_, w₁, rfl, .of_keeps plain keeps, .inr ⟨e, rfl⟩⟩
      · exact ⟨_, w₁, rfl, .of_keeps plain keeps, .inl ⟨r, rfl⟩⟩

/-- A schema that is made has no fields yet, and neither types nor registries change. -/
theorem composing_makeSchema (d : Dispatch) (sound : w.SoundSchemas) (collectionName : Value)
    (r : Nat) {above : Option Nat} (exists' : ∀ p, above = some p → p < w.schemas.size) :
    ∃ w', exec (makeSchema d collectionName (objectOrNull .schema above) (.registry r)) w
        = (.ok w.schemas.size, w') ∧ w.Composing w' w.schemas.size := by
  obtain ⟨w', made, adds, -, fields, -⟩ := adds_makeSchema d sound collectionName r above exists'
  have others : w'.types = w.types ∧ w'.registries = w.registries := by
    obtain rfl := congrArg Prod.snd made
    cases above <;> exact ⟨rfl, rfl⟩
  refine ⟨w', made, adds, others.1, others.2, fun e there => ?_⟩
  rw [fields] at there
  cases there

variable [(call.dispatch (depth + 1)).Within World.Persists]

/-- A new schema is composed of what its entries refer to, also where one of them cannot be
compiled. -/
theorem composes_entries (sound : w.SoundSchemas) (collectionName : Value) (r : Nat)
    {above : Option Nat} (exists' : ∀ p, above = some p → p < w.schemas.size) {entries : Entries}
    (offers : ∀ e ∈ entries, w.Offers e.2) :
    w.Composes (exec (do
      let schema ← makeSchema (call.dispatch (depth + 1)) collectionName
        (objectOrNull .schema above) (.registry r)
      compileFields (call.dispatch (depth + 1)) schema entries
      logCompiled (call.dispatch (depth + 1)) schema
      return schema) w).2 := by
  obtain ⟨w₁, made, composing⟩ :=
    composing_makeSchema (call.dispatch (depth + 1)) sound collectionName r exists'
  have composes : w.Composes
      (exec (compileFields (call.dispatch (depth + 1)) w.schemas.size entries) w₁).2 :=
    composing_compileFields entries composing offers
  rw [exec_bind_ok made, exec_bind]
  rcases compiled : exec (compileFields (call.dispatch (depth + 1)) w.schemas.size entries)
    w₁ with ⟨e | _, w₂⟩ <;> rw [compiled] at composes
  · exact composes
  · -- What is left is to log that the schema was compiled.
    exact composes.rest (.of_idle composes.sound (do
      logCompiled (call.dispatch (depth + 1)) w.schemas.size
      return w.schemas.size))

/-- **One call.** Whatever a call that compiles a template adds, also where it fails, is composed of
what was there before. -/
theorem composes_perform (sound : w.SoundSchemas) {c : CompileCall} (possible : c.Possible w)
    (available : c.Available (call.dispatch (depth + 1)) w) :
    w.Composes (exec (c.perform (call.dispatch (depth + 1))) w).2 := by
  obtain ⟨template, collectionName, parent, given⟩ := c
  unfold CompileCall.perform compileSchema
  dsimp only
  rw [exec_bind_ok (exec_mappingOf? template w)]
  cases mapped : w.mapping? template with
  | none => exact (World.Rests.of_idle sound _).composes sound
  | some entries =>
    by_cases schema : ∃ above, parent = objectOrNull .schema above
    · obtain ⟨above, rfl⟩ := schema
      have exists' : ∀ p, above = some p → p < w.schemas.size := fun p same =>
        possible p (by rw [same]; rfl)
      -- The registry is found first; the shared one may have to be made for that.
      obtain ⟨result, w₀, found, rests, outcome⟩ :=
        exec_registryForSchema_rests call depth sound given exists'
      have opening : CompileCall.opening (call.dispatch (depth + 1))
          ⟨template, collectionName, objectOrNull .schema above, given⟩ w = w₀ := by
        have same : CompileCall.above
            ⟨template, collectionName, objectOrNull .schema above, given⟩ = above := by
          cases above <;> rfl
        rw [CompileCall.opening, same, found]
      have offers := available entries mapped
      rw [opening] at offers
      rcases outcome with ⟨r, rfl⟩ | ⟨e, rfl⟩
      · rw [exec_bind, exec_makeSchema_of_ok found, ← exec_bind]
        refine (composes_entries (rests.persists sound).1 collectionName r (fun p same => ?_)
          offers).after rests
        rw [rests.size]
        exact exists' p same
      · rw [exec_bind_error (exec_makeSchema_of_error found _)]
        exact rests.composes sound
    · obtain ⟨e, run⟩ := exec_makeSchema_of_not_schema (d := call.dispatch (depth + 1)) (w := w)
        (fun above same => schema ⟨above, same⟩) collectionName (objectOrNull .registry given)
      rw [exec_bind_error run]
      exact (World.Rests.of_idle sound (shown (call.dispatch (depth + 1)) parent)).composes sound

end Calls

/-! ## Sessions -/

/-- Sessions of calls that compile templates, failed ones included, in any order. A call extends a
schema and refers to schemas that are there; between two calls there may be steps that add no schema
and leave those that there are composed as they are. -/
inductive CompositionRun (call : Provider) (w₀ : World) : World → Prop where
  | start : CompositionRun call w₀ w₀
  | meanwhile {w w' : World} (run : CompositionRun call w₀ w) (step : w.Rests w') :
      CompositionRun call w₀ w'
  | compile {w : World} (run : CompositionRun call w₀ w) (depth : Nat) (c : CompileCall)
      (possible : c.Possible w) (available : c.Available (call.dispatch (depth + 1)) w) :
      CompositionRun call w₀ (exec (c.perform (call.dispatch (depth + 1))) w).2

/-- Where the functions of a provider leave schemas composed as they are, the whole dispatch does. -/
theorem Provider.dispatch_persists {call : Provider} (user : call.Within World.Persists)
    (depth : Nat) : (call.dispatch depth).Within World.Persists := by
  refine Provider.dispatch_within_of user (fun d _ _ _ s => ⟨fun w sound => ?_⟩) depth
  obtain ⟨w', run, listed⟩ := sound.exec_allFieldNames d s
  rw [run]
  exact listed.relisted.persists listed.sound sound

namespace CompositionRun

variable {call : Provider} {w₀ w : World} (user : call.Within World.Persists)

include user

/-- By induction on the run: schemas stay sound, and each of them is composed of schemas that were
there at some time when it was not. -/
theorem before (start : w₀.NoObjects) (run : CompositionRun call w₀ w) :
    w.SoundSchemas ∧ ∀ t s, w.Underlies t s → ∃ u, CompositionRun call w₀ u ∧
      CompositionRun call u w ∧ t < u.schemas.size ∧ u.schemas.size ≤ s := by
  induction run with
  | start =>
    refine ⟨.of_no_objects start.types start.fields start.schemas start.unshared, ?_⟩
    intro t s under
    have inside := under.lt_size
    rw [start.schemas] at inside
    cases inside
  | @meanwhile w w' run step ih =>
    obtain ⟨sound, before⟩ := ih
    refine ⟨(step.persists sound).1, fun t s under => ?_⟩
    have inside := under.lt_size
    rw [step.size] at inside
    obtain ⟨u, first, second, old, new⟩ := before t s (step.persists.underlies sound inside under)
    exact ⟨u, first, .meanwhile second step, old, new⟩
  | @compile w run depth c possible available ih =>
    obtain ⟨sound, before⟩ := ih
    have within := Provider.dispatch_persists user (depth + 1)
    have composes := composes_perform sound possible available
    refine ⟨composes.sound, fun t s under => ?_⟩
    rcases Nat.lt_or_ge s w.schemas.size with inside | newer
    · obtain ⟨u, first, second, old, new⟩ :=
        before t s (composes.persists.underlies sound inside under)
      exact ⟨u, first, .compile second depth c possible available, old, new⟩
    -- A schema that the call added: the world before the call is the one that is looked for.
    · exact ⟨w, run, .compile .start depth c possible available, composes.below t s newer under,
        newer⟩

theorem sound (start : w₀.NoObjects) (run : CompositionRun call w₀ w) : w.SoundSchemas :=
  (before user start run).1

/-- The numbers of schemas tell their age. -/
theorem older (start : w₀.NoObjects) (run : CompositionRun call w₀ w) {t s : Nat}
    (under : w.Underlies t s) : t < s := by
  obtain ⟨u, -, -, old, new⟩ := (before user start run).2 t s under
  exact Nat.lt_of_lt_of_le old new

theorem founded (start : w₀.NoObjects) (run : CompositionRun call w₀ w) : w.Founded :=
  fun _ _ there _ _ field held => older user start run (.nested there field held)

end CompositionRun

/-- Where what underlies a schema is older, no chain of schemas goes down for ever. -/
theorem World.wellFounded_underlies {w : World} (older : ∀ t s, w.Underlies t s → t < s) :
    WellFounded w.Underlies :=
  Subrelation.wf (older _ _) Nat.lt_wfRel.wf

end DataShape
