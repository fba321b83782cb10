import DataShape.Proofs.Catalog.Seed
import DataShape.Proofs.Registry.Redefinition
import DataShape.Proofs.Schema.Run

/-! # Seeding again

The catalog is a list of definitions by texts, of distinct names. Each of them is in force once it
passed, and those behind it, being of other names, leave it so. So after a seeding that succeeds all
definitions of the catalog are in force, whatever the registry held before, and a second seeding
makes them again.

* `CatalogItem`, `catalogItems` — the definitions of the catalog.
* `seedCatalog_eq` — to seed is to make them one after the other.
* `seedItems_enriched` — what a first seeding does: its definitions are in force afterwards.
* `seedItems_refreshed` — what a second one does, where all definitions are in force.
* `seedCatalog_idempotent` — seeding is idempotent on every registry. -/

namespace DataShape

/-! ## The definitions of the catalog -/

/-- A definition of the catalog, with the attributes that its kind implies. -/
structure CatalogItem where
  name : String
  fields : List (String × Value)
  base : Option String
  conversions : Option (Marshaller × Marshaller)

/-- The definition itself. -/
def CatalogItem.definition (e : CatalogItem) : TypeDefinition :=
  catalogEntry e.name e.fields e.base e.conversions

theorem CatalogItem.literal {e : CatalogItem} (distinct : (e.fields.map Prod.fst).Nodup) :
    e.definition.Literal e.name e.fields where
  named := rfl
  attributes := rfl
  distinct := distinct
  toText := by
    obtain ⟨name, fields, base, conversions⟩ := e
    cases conversions <;> rfl
  fromText := by
    obtain ⟨name, fields, base, conversions⟩ := e
    cases conversions <;> rfl
  base := by
    obtain ⟨name, fields, base, conversions⟩ := e
    cases base with
    | none => exact .inl rfl
    | some n => exact .inr ⟨n, rfl⟩

/-- The primitive types. -/
def primitiveItems : List CatalogItem :=
  [⟨"String", [("py_type", .native .str), ("default_value", .str "")], none,
      some (.identity, .identity)⟩,
   ⟨"Number", [("py_type", .tuple [.native .int, .native .float]), ("default_value", .int 0)], none,
      some (.numberToText, .numberFromText)⟩,
   ⟨"Boolean", [("py_type", .native .bool), ("default_value", .bool false)], none,
      some (.booleanToText, .booleanFromText)⟩,
   ⟨"Object", [("py_type", .native .object), ("py_class_name", .str "object"),
      ("default_value", .null)], none, none⟩]

/-- The types of dates and times. -/
def momentItems : List CatalogItem :=
  [⟨"DateTime", [("py_type", .native .datetime), ("py_class_name", .str "datetime"),
      ("default_value", .missing)], some "Object", some (.isoToText, .dateTimeFromText)⟩,
   ⟨"Date", [("py_type", .native .date), ("py_class_name", .str "date")], some "DateTime",
      some (.isoToText, .dateFromText)⟩,
   ⟨"Time", [("py_type", .native .time), ("py_class_name", .str "time")], some "DateTime",
      some (.isoToText, .timeFromText)⟩]

/-- The kinds of text. -/
def textItems : List CatalogItem := textTypeNames.map fun name => ⟨name, [], some "String", none⟩

/-- The kinds of number. -/
def numberItems : List CatalogItem :=
  numberTypes.map fun e => ⟨e.1, [("precision", .int e.2)], some "Number", none⟩

/-- The enumerated types, with the options that their texts are read as. -/
def enumeratedItems : List CatalogItem :=
  enumeratedTypes.map fun e =>
    ⟨e.1, [("enum_values", .tuple ((optionsOf e.2.1).map .option))], some e.2.2, none⟩

/-- The definitions of the catalog in their order, or the primitive ones among them. -/
def catalogItems (includeDerived : Bool) : List CatalogItem :=
  primitiveItems ++ if includeDerived then
    momentItems ++ (textItems ++ (numberItems ++ enumeratedItems)) else []

/-- The names of the catalog. -/
def catalogNames (includeDerived : Bool) : List String :=
  (catalogItems includeDerived).map CatalogItem.name

/-- No name is defined twice. -/
theorem catalogNames_distinct (includeDerived : Bool) : (catalogNames includeDerived).Nodup := by
  cases includeDerived <;> decide

/-- No definition gives an attribute twice. -/
theorem catalogItems_distinct (includeDerived : Bool) :
    ∀ e ∈ catalogItems includeDerived, (e.fields.map Prod.fst).Nodup := by
  cases includeDerived <;> decide

/-- Make definitions of the catalog one after the other. -/
def seedItems (d : Dispatch) (r : Nat) (items : List CatalogItem) : Action Unit :=
  items.forM fun e => discard (defineType d r e.definition)

theorem seedItems_append (d : Dispatch) (r : Nat) (items items' : List CatalogItem) :
    seedItems d r (items ++ items') = (do seedItems d r items; seedItems d r items') :=
  List.forM_append ..

section Items

variable (d : Dispatch) (r : Nat)

theorem seedPrimitives_eq : seedPrimitives d r = seedItems d r primitiveItems := by
  simp only [seedPrimitives, seedItems, primitiveItems, List.forM_eq_forM, List.forM_cons,
    List.forM_nil, bind_pure_unit, defineNative_catalogEntry]
  rfl

theorem seedMoments_eq : seedMoments d r = seedItems d r momentItems := by
  simp only [seedMoments, seedItems, momentItems, List.forM_eq_forM, List.forM_cons,
    List.forM_nil, bind_pure_unit, defineObject_catalogEntry]
  rfl

theorem seedEnumerated_eq : (enumeratedTypes.forM fun (name, options, base) => do
    discard <| defineEnumeration d r (.str options) (catalogEntry name [] (some base) none))
      = seedItems d r enumeratedItems := by
  -- the options of each type can be parsed, and then it is defined as other types are
  have each : ∀ types ⊆ enumeratedTypes, (types.forM fun (name, options, base) => do
      discard <| defineEnumeration d r (.str options) (catalogEntry name [] (some base) none))
      = types.forM fun e => discard (defineType d r (CatalogItem.definition
          ⟨e.1, [("enum_values", .tuple ((optionsOf e.2.1).map .option))], some e.2.2, none⟩)) := by
    intro types inside
    induction types with
    | nil => rfl
    | cons e rest ih =>
      rw [List.cons_subset] at inside
      have first := defineEnumeration_catalogEntry d r inside.1
      rw [List.forM_eq_forM, List.forM_cons, List.forM_cons]
      exact congrArg₂ (fun a b : Action Unit => do a; b) (congrArg discard first) (ih inside.2)
  exact (each _ (List.Subset.refl _)).trans List.forM_map.symm

/-- To seed is to make the definitions of the catalog. -/
theorem seedCatalog_eq (includeDerived : Bool) :
    seedCatalog d r includeDerived = seedItems d r (catalogItems includeDerived) := by
  unfold seedCatalog catalogItems
  rw [seedPrimitives_eq, seedMoments_eq, seedEnumerated_eq, seedItems_append]
  cases includeDerived with
  | false => rfl
  | true =>
    have texts : seedItems d r textItems = textTypeNames.forM (fun name =>
        discard (defineDerived d r "String" (catalogEntry name [] none none))) := List.forM_map
    have numbers : seedItems d r numberItems = numberTypes.forM (fun e =>
        discard (defineDerived d r "Number"
          (catalogEntry e.1 [("precision", .int e.2)] none none))) := List.forM_map
    rw [if_pos rfl, if_pos rfl, seedItems_append, seedItems_append, seedItems_append, texts,
      numbers]

end Items

/-! ## Two seedings -/

section Seedings

variable (call : Provider) (depth : Nat) {r : Nat} {items : List CatalogItem}

/-- **A first seeding.** Only the types of the catalog get anything, and afterwards all definitions
are in force. By induction on them: a definition that passed stays in force, since the ones behind it
are of other names and do not change its type. -/
theorem seedItems_enriched (distinct : (items.map CatalogItem.name).Nodup)
    (fields : ∀ e ∈ items, (e.fields.map Prod.fst).Nodup) : ∀ {w w₁ : World}, w.Tidy →
    w.SoundRegistry r → r < w.registries.size →
    exec (seedItems (call.dispatch (depth + 1)) r items) w = (.ok ⟨⟩, w₁) →
    w.Enriched r (items.map CatalogItem.name) w₁ ∧
    ∀ e ∈ items, ∃ t, e.definition.InForce r e.name e.fields w₁ t := by
  induction items with
  | nil =>
    intro w w₁ tidy sound _ run
    obtain ⟨-, rfl⟩ := exec_pure_eq_ok.mp run
    exact ⟨.refl tidy sound, nofun⟩
  | cons e rest ih =>
    intro w w₁ tidy sound exists' run
    rw [List.map_cons, List.nodup_cons] at distinct
    obtain ⟨apart, distinct⟩ := distinct
    obtain ⟨⟨⟩, w', first, later⟩ := exec_bind_eq_ok.mp run
    have literal := CatalogItem.literal (fields e List.mem_cons_self)
    -- The seeding succeeds, so that its first definition passed.
    rw [exec_discard_eq] at first
    rcases performs_defineType call depth (r := r) tidy e.definition
      with ⟨t, w₂, passed, name, base, performs⟩ | ⟨fault, w₂, failed, -⟩
    · rw [passed] at first
      obtain rfl : w₂ = w' := (Prod.mk.inj first).2
      obtain rfl : e.name = name := Value.str.inj (literal.named.symm.trans performs.named)
      have enriched := performs.enriched tidy sound exists'
      have inForce := performs.inForce literal tidy sound exists' passed
      -- The others find what the first one left, and their names are different from its name.
      obtain ⟨enriched', inForce'⟩ := ih distinct
        (fun e' there => fields e' (List.mem_cons_of_mem e there)) enriched.tidy
        enriched.grown.sound (by rwa [enriched.registries]) later
      refine ⟨enriched.append enriched', List.forall_mem_cons.mpr ⟨⟨t, ?_⟩, inForce'⟩⟩
      refine inForce.kept enriched.grown.sound enriched'.grown (congrArg TypeNode.anonymous ?_)
      obtain ⟨registered, named⟩ :=
        enriched.grown.sound.typeNamed?_eq_some_iff.mp inForce.registered
      refine enriched'.outside t (enriched.grown.sound.inside registered)
        fun n there found => apart ?_
      have same := (enriched.grown.sound.typeNamed?_eq_some_iff.mp found).2
      rwa [← named, same]
    · rw [failed] at first
      cases first

/-- **A second seeding.** Definitions that are in force are made again one after the other, and this
leaves the others in force. By induction on them. -/
theorem seedItems_refreshed : ∀ {w : World}, w.Tidy → w.SoundRegistry r →
    r < w.registries.size → (∀ e ∈ items, ∃ t, e.definition.InForce r e.name e.fields w t) →
    ∃ w', exec (seedItems (call.dispatch (depth + 1)) r items) w = (.ok ⟨⟩, w') ∧
      w.Refreshed w' ∧ w'.Tidy := by
  induction items with
  | nil => exact fun {w} tidy _ _ _ => ⟨w, rfl, .refl w, tidy⟩
  | cons e rest ih =>
    intro w tidy sound exists' inForce
    obtain ⟨t, first⟩ := inForce e List.mem_cons_self
    obtain ⟨w₁, run, refreshed, enriched⟩ := first.made_again tidy sound exists' call depth
    -- Nothing is lost, and all types are as they were, so that the others are still in force.
    have later : ∀ e' ∈ rest, ∃ t, e'.definition.InForce r e'.name e'.fields w₁ t := by
      intro e' there
      obtain ⟨t', inForce'⟩ := inForce e' (List.mem_cons_of_mem e there)
      exact ⟨t', inForce'.kept sound enriched.grown (refreshed.type t')⟩
    obtain ⟨w₂, run', refreshed', tidy'⟩ := ih enriched.tidy enriched.grown.sound
      (by rwa [enriched.registries]) later
    have passed : exec (discard (defineType (call.dispatch (depth + 1)) r e.definition)) w
        = (.ok ⟨⟩, w₁) := by
      rw [exec_discard_eq, run]
    exact ⟨w₂, (exec_bind_ok passed _).trans run', refreshed.trans refreshed', tidy'⟩

end Seedings

/-! ## What is kept -/

/-- Two worlds have the same registries, with the same names in the same order, and the same types:
their names, their bases, their attributes, which hold their options, and the names of their
capabilities. Whatever is invoked on a type comes to the same in both, with the same function. -/
structure World.KeepsTypes (w w' : World) : Prop where
  registries : w'.registries = w.registries
  size : w'.types.size = w.types.size
  name : ∀ t, (w'.type t).name = (w.type t).name
  base : ∀ t, (w'.type t).base = (w.type t).base
  attributes : ∀ t, (w'.type t).attributes = (w.type t).attributes
  slots : ∀ t, Table.keys (w'.type t).capabilities = Table.keys (w.type t).capabilities
  invoke : ∀ d t n arguments named,
    exec (invokeOwn d (.type t) (.str n) arguments named) w
      = exec (w.invocation d t n arguments named) w ∧
    exec (invokeOwn d (.type t) (.str n) arguments named) w'
      = exec (w.invocation d t n arguments named) w'

theorem World.Refreshed.keepsTypes {w w' : World} (h : w.Refreshed w') (plain : w.Plain)
    (plain' : w'.Plain) : w.KeepsTypes w' where
  registries := h.registries
  size := h.size
  name := h.name
  base := h.base
  attributes := h.attributes
  slots := h.keys
  invoke d t n arguments named := by
    refine ⟨plain.exec_invokeOwn d t n arguments named, ?_⟩
    rw [plain'.exec_invokeOwn, h.invocation]

/-- Seeding a sound registry of a tidy world. -/
theorem seedCatalog_again (call : Provider) (depth : Nat) {w w₁ : World} {r : Nat}
    (tidy : w.Tidy) (sound : w.SoundRegistry r) (exists' : r < w.registries.size)
    {includeDerived : Bool}
    (run : exec (seedCatalog (call.dispatch (depth + 1)) r includeDerived) w = (.ok ⟨⟩, w₁)) :
    w.Enriched r (catalogNames includeDerived) w₁ ∧
    ∃ w₂, exec (seedCatalog (call.dispatch (depth + 1)) r includeDerived) w₁ = (.ok ⟨⟩, w₂) ∧
      w₁.KeepsTypes w₂ := by
  rw [seedCatalog_eq] at run ⊢
  obtain ⟨enriched, inForce⟩ := seedItems_enriched call depth (catalogNames_distinct includeDerived)
    (catalogItems_distinct includeDerived) tidy sound exists' run
  obtain ⟨w₂, run', refreshed, tidy'⟩ := seedItems_refreshed call depth enriched.tidy
    enriched.grown.sound (by rwa [enriched.registries]) inForce
  exact ⟨enriched, w₂, run', refreshed.keepsTypes enriched.tidy.plain tidy'.plain⟩

/-! ## Every registry -/

/-- What operations make of a world without objects is tidy, and its registries are sound. -/
theorem tidy_afterOperations {call : Provider} (runs : call.Within RegistryRun)
    (develops : call.Within World.Develops) {w₀ : World} (start : w₀.NoObjects)
    (empty : ∀ r, (w₀.registry r).types = []) (depth : Nat)
    (operations : List (Nat × RegistryOperation)) :
    (afterOperations (call.dispatch depth) operations w₀).Tidy ∧
    ∀ r, (afterOperations (call.dispatch depth) operations w₀).SoundRegistry r := by
  have schemas : w₀.SoundSchemas :=
    .of_no_objects start.types start.fields start.schemas start.unshared
  have within := Provider.dispatch_within runs depth
  have grown : ∀ r, w₀.Grown r (afterOperations (call.dispatch depth) operations w₀) := fun r =>
    World.Evolves.of_run r (registryRun_afterOperations within operations w₀) schemas.plain
      (.of_empty (empty r))
  have developing := Provider.dispatch_develops develops depth
  have developed : w₀.Develops (afterOperations (call.dispatch depth) operations w₀) :=
    follows_afterOperations (fun registry operation => along_perform registry operation)
      operations w₀
  have schemas' := (developed schemas).1
  exact ⟨⟨schemas'.plain, schemas'.unshared, fun r => (grown r).sound.known⟩,
    fun r => (grown r).sound⟩

/-- **Seeding is idempotent on every registry.** Let any operations be performed on registries that
start without types: definitions, also of names of the catalog, installations and seedings, of which
some may fail, while the functions of providers that are called on the way do such operations
themselves. Let a seeding of any of the registries succeed.

Then it has changed no type but those that the registry has under names of the catalog, and no type
has lost an attribute or a capability. And a second seeding succeeds as well and leaves all types
and registries as they are. -/
theorem seedCatalog_idempotent {call : Provider} (runs : call.Within RegistryRun)
    (develops : call.Within World.Develops) {w₀ : World} (start : w₀.NoObjects)
    (empty : ∀ r, (w₀.registry r).types = []) (depth : Nat)
    (operations : List (Nat × RegistryOperation)) (r : Nat) (includeDerived : Bool) :
    let d := call.dispatch (depth + 1)
    let w := afterOperations d operations w₀
    r < w.registries.size →
    ∀ w₁, exec (seedCatalog d r includeDerived) w = (.ok ⟨⟩, w₁) →
      (∀ t < w.types.size, (∀ n ∈ catalogNames includeDerived, w.typeNamed? r n ≠ some t) →
        (w₁.type t).attributes = (w.type t).attributes ∧
        (w₁.type t).capabilities = (w.type t).capabilities) ∧
      (∀ t, Table.keys (w.type t).attributes <+: Table.keys (w₁.type t).attributes ∧
        Table.keys (w.type t).capabilities <+: Table.keys (w₁.type t).capabilities) ∧
      ∃ w₂, exec (seedCatalog d r includeDerived) w₁ = (.ok ⟨⟩, w₂) ∧ w₁.KeepsTypes w₂ := by
  intro d w exists' w₁ run
  obtain ⟨tidy, sound⟩ := tidy_afterOperations runs develops start empty (depth + 1) operations
  obtain ⟨enriched, again⟩ := seedCatalog_again call depth tidy (sound r) exists' run
  refine ⟨fun t inside others => ?_, fun t => ⟨enriched.attributes t, enriched.slots t⟩, again⟩
  rw [enriched.outside t inside others]
  exact ⟨rfl, rfl⟩

/-- A type of a caller under a name of the catalog, one under another name, and a conversion that is
installed on both. -/
def userOperations : List (Nat × RegistryOperation) :=
  [(0, .define ⟨.str "Email", .ofFields [("shade", .str "red")], .null, .null, .null⟩),
   (0, .define colorDefinition),
   (0, .install (.target .type) (.function 5 (some "to_string") .echo []))]

/-- Both types keep their places and their attributes, and a second seeding leaves all types as they
are. -/
theorem seedCatalog_idempotent_user :
    let d := echoing.dispatch 3
    let w := afterOperations d userOperations .withRegistry
    let w₁ := (exec (seedCatalog d 0 true) w).2
    echoing.Within RegistryRun ∧ echoing.Within World.Develops ∧ World.withRegistry.NoObjects ∧
    (∀ r, (World.withRegistry.registry r).types = []) ∧ 0 < w.registries.size ∧
    exec (seedCatalog d 0 true) w = (.ok ⟨⟩, w₁) ∧
    (w₁.typeNames 0).take 3 = ["Email", "Color", "String"] ∧
    (w₁.type 1).attributes = (w.type 1).attributes ∧
    (w₁.type 1).capabilities = (w.type 1).capabilities ∧
    ∃ w₂, exec (seedCatalog d 0 true) w₁ = (.ok ⟨⟩, w₂) ∧ w₁.KeepsTypes w₂ := by
  intro d w w₁
  have runs : echoing.Within RegistryRun := fun _ _ _ _ _ => along_pure _
  have develops : echoing.Within World.Develops := fun _ _ _ _ _ => along_pure _
  have start : World.withRegistry.NoObjects := ⟨rfl, rfl, rfl, rfl⟩
  have empty : ∀ r, (World.withRegistry.registry r).types = [] := by
    intro r
    cases r <;> rfl
  have registries : 0 < w.registries.size := by decide +kernel
  have passed : (exec (seedCatalog d 0 true) w).1.isOk = true := by decide +kernel
  obtain ⟨⟨⟩, run⟩ := exec_of_isOk passed
  obtain ⟨outside, -, again⟩ := seedCatalog_idempotent runs develops start empty 2 userOperations 0
    true registries w₁ run
  obtain ⟨attributes, capabilities⟩ := outside 1 (by decide +kernel) (by decide +kernel)
  exact ⟨runs, develops, start, empty, registries, run, by decide +kernel, attributes, capabilities,
    again⟩

end DataShape
