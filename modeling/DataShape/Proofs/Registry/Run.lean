import DataShape.Catalog
import DataShape.Proofs.Plain
import DataShape.Proofs.Provider
import DataShape.Registry.Install

/-! # Runs of a registry

The operations of a registry define types, seed the catalog and install capabilities. They fail in
many ways, and in their course they may call functions of providers: a match specification asks a
function about every type, and the function may define types itself. What a provider's function does
to the types of registries it does through the same operations.

* `World.Untouched` — the types there are keep their names and bases, registries their types.
* `RegistryOperation` — the operations of a registry.
* `RegistryRun` — worlds reached by operations and by steps that leave registries untouched, where
  the functions called inside an operation do such runs themselves.
* `RegistryRun.follows` — what every operation does if its dispatch does it, every run
  does. -/

namespace DataShape

/-! ## Steps that leave registries untouched -/

/-- The types there are keep their names and bases, and every registry has the types it had. -/
structure World.Untouched (w w' : World) : Prop where
  size : w.types.size ≤ w'.types.size
  name : ∀ i < w.types.size, (w'.type i).name = (w.type i).name
  base : ∀ i < w.types.size, (w'.type i).base = (w.type i).base
  registered : ∀ r, (w'.registry r).types = (w.registry r).types
  plain : w.Plain → w'.Plain

namespace World

theorem Untouched.refl (w : World) : w.Untouched w :=
  ⟨Nat.le_refl _, fun _ _ => rfl, fun _ _ => rfl, fun _ => rfl, id⟩

theorem Untouched.trans {u v w : World} (first : u.Untouched v) (second : v.Untouched w) :
    u.Untouched w where
  size := Nat.le_trans first.size second.size
  name i h := (second.name i (Nat.lt_of_lt_of_le h first.size)).trans (first.name i h)
  base i h := (second.base i (Nat.lt_of_lt_of_le h first.size)).trans (first.base i h)
  registered r := (second.registered r).trans (first.registered r)
  plain h := second.plain (first.plain h)

/-- Two worlds whose objects are the same but for what a step may change in them: names, bases and
set values of types, set values of fields and schemas, and types of registries are kept. -/
theorem Untouched.of_kept {w w' : World} (size : w'.types.size = w.types.size)
    (name : ∀ i, (w'.type i).name = (w.type i).name)
    (base : ∀ i, (w'.type i).base = (w.type i).base)
    (registered : ∀ r, (w'.registry r).types = (w.registry r).types)
    (types : ∀ i, (w.type i).stored = [] → (w'.type i).stored = [])
    (fields : ∀ i, (w.field i).stored = [] → (w'.field i).stored = [])
    (schemas : ∀ i, (w.schema i).stored = [] → (w'.schema i).stored = []) : w.Untouched w' where
  size := Nat.le_of_eq size.symm
  name i _ := name i
  base i _ := base i
  registered := registered
  plain h := ⟨fun i => types i (h.types i), fun i => fields i (h.fields i),
    fun i => schemas i (h.schemas i)⟩

theorem Relisted.untouched {w w' : World} (h : w.Relisted w') : w.Untouched w' :=
  .of_kept (by rw [h.types]) (fun i => by rw [h.type]) (fun i => by rw [h.type])
    (fun r => by rw [h.registry]) (fun i _ => by rwa [h.type]) (fun i _ => by rwa [h.field])
    (fun i _ => by rwa [h.schemaStored])

/-! ## Changes of parts -/

theorem untouched_modifyType (w : World) (id : Nat) {f : TypeNode → TypeNode}
    (name : ∀ t, (f t).name = t.name) (base : ∀ t, (f t).base = t.base)
    (stored : ∀ t, t.stored = [] → (f t).stored = []) : w.Untouched (w.modifyType id f) := by
  refine .of_kept Array.size_modify ?_ ?_ (fun r => rfl) ?_ (fun _ h => h) (fun _ h => h)
  all_goals
    intro i
    rw [type_modifyType]
    split
  · exact name _
  · rfl
  · exact base _
  · rfl
  · exact stored _
  · exact fun h => h

theorem untouched_modifyField (w : World) (id : Nat) {f : FieldNode → FieldNode}
    (stored : ∀ n, n.stored = [] → (f n).stored = []) : w.Untouched (w.modifyField id f) := by
  refine .of_kept rfl (fun _ => rfl) (fun _ => rfl) (fun _ => rfl) (fun _ h => h) ?_
    (fun _ h => h)
  intro i
  rw [field_modifyField]
  split
  · exact stored _
  · exact fun h => h

theorem untouched_modifySchema (w : World) (id : Nat) {f : SchemaNode → SchemaNode}
    (stored : ∀ n, n.stored = [] → (f n).stored = []) : w.Untouched (w.modifySchema id f) := by
  refine .of_kept rfl (fun _ => rfl) (fun _ => rfl) (fun _ => rfl) (fun _ h => h) (fun _ h => h) ?_
  intro i
  rw [schema_modifySchema]
  split
  · exact stored _
  · exact fun h => h

theorem untouched_modifyRegistry (w : World) (id : Nat) {f : RegistryNode → RegistryNode}
    (types : ∀ n, (f n).types = n.types) : w.Untouched (w.modifyRegistry id f) := by
  refine .of_kept rfl (fun _ => rfl) (fun _ => rfl) ?_ (fun _ h => h) (fun _ h => h) (fun _ h => h)
  intro r
  rw [registry_modifyRegistry]
  split
  · exact types _
  · rfl

theorem untouched_withPartEntries (w : World) (part : Part) (entries : Entries) :
    w.Untouched (w.withPartEntries part entries) := by
  unfold withPartEntries
  split
  · exact untouched_modifyType w _ (fun _ => rfl) (fun _ => rfl) fun _ h => h
  · exact untouched_modifyField w _ fun _ h => h
  · exact untouched_modifySchema w _ fun _ h => h
  · exact .refl w

/-- A container is replaced inside nodes, whose names and bases are no containers. -/
theorem untouched_replaceValues (w : World) (share : Nat) (new : Value) :
    w.Untouched (w.replaceValues share new) := by
  have type : ∀ i, (w.replaceValues share new).type i = _ := fun i => getD_map _ _ i rfl
  have field : ∀ i, (w.replaceValues share new).field i = _ := fun i =>
    getD_map w.fields _ i (by simp [default, instInhabitedFieldNode.default, Value.replaceShared,
      replaceEntries, replaceStored])
  have schema : ∀ i, (w.replaceValues share new).schema i = _ := fun i =>
    getD_map w.schemas _ i (by simp [default, instInhabitedSchemaNode.default,
      Value.replaceShared, replaceEntries, replaceStored])
  have registry : ∀ i, (w.replaceValues share new).registry i = _ := fun i =>
    getD_map w.registries _ i rfl
  refine .of_kept Array.size_map (fun i => by rw [type]; rfl) (fun i => by rw [type]; rfl)
    (fun r => by rw [registry]; rfl) ?_ ?_ ?_
  · intro i h
    rw [type]
    exact congrArg (replaceStored share new) h
  · intro i h
    rw [field]
    exact congrArg (replaceStored share new) h
  · intro i h
    rw [schema]
    exact congrArg (replaceStored share new) h

theorem untouched_replaceShared (w : World) (share : Nat) (new : Value) :
    w.Untouched (w.replaceShared share new) := by
  have parts : ∀ (entries : Entries) (parts : List Part) (v : World), w.Untouched v →
      w.Untouched (parts.foldl (fun w part => w.withPartEntries part entries) v) := by
    intro entries parts
    induction parts with
    | nil => exact fun v h => h
    | cons part rest ih =>
      exact fun v h => ih _ (h.trans (untouched_withPartEntries v part entries))
  have replaced := untouched_replaceValues w share new
  unfold World.replaceShared
  dsimp only
  split
  · exact parts _ _ _ replaced
  · exact replaced

/-- A container that is not shared is changed in its own place. -/
theorem changePart_of_unshared {w : World} (unshared : w.sharedParts = []) (part : Part)
    (change : Entries → Entries) :
    w.changePart part change = w.withPartEntries part (change (w.partEntries part)) := by
  refine changePart_of_not_shared ?_ change
  rw [shareOfPart?, unshared]
  rfl

theorem untouched_changePart (w : World) (part : Part) (change : Entries → Entries) :
    w.Untouched (w.changePart part change) := by
  unfold changePart
  dsimp only
  split
  · exact untouched_replaceShared ..
  · exact untouched_withPartEntries ..

end World

/-! ## Relations that registries do not see -/

/-- A step that gives types or registries further members: it leaves registries untouched and, as
long as no container is shared between objects, it leaves all fields and schemas as they are. -/
structure World.Furnished (w w' : World) : Prop where
  untouched : w.Untouched w'
  apart : w.sharedParts = [] → w'.sharedParts = [] ∧ w'.fields = w.fields ∧ w'.schemas = w.schemas

/-- A relation that does not see such steps. -/
class Furnishing (R : World → World → Prop) : Prop extends Frame R where
  furnished : ∀ {w w' : World}, w.Furnished w' → R w w'

/-- A transitive relation that does not see steps that leave registries untouched. -/
class Steady (R : World → World → Prop) : Prop where
  trans : ∀ {u v w}, R u v → R v w → R u w
  untouched : ∀ {w w' : World}, w.Untouched w' → R w w'

variable {R : World → World → Prop} {d : Dispatch}

instance Steady.lists [Steady R] : Frame.Lists R where
  refl w := Steady.untouched (.refl w)
  trans := Steady.trans
  log w l := Steady.untouched (.of_kept rfl (fun _ => rfl) (fun _ => rfl) (fun _ => rfl)
    (fun _ h => h) (fun _ h => h) fun _ h => h)
  identity w n := Steady.untouched (.of_kept rfl (fun _ => rfl) (fun _ => rfl) (fun _ => rfl)
    (fun _ h => h) (fun _ h => h) fun _ h => h)
  keep w s p names := Steady.untouched (w.relisted_keep s p names).untouched
  foreign w s share lists held := by
    -- a world with an object in the place of kept lists is not plain, so it has not to stay so
    have changed : w.Untouched (if share = 0 then w else w.replaceShared share lists) := by
      split
      · exact .refl w
      · exact w.untouched_replaceShared share lists
    refine Steady.untouched ⟨changed.size, changed.name, changed.base, changed.registered, ?_⟩
    intro plain
    rw [plain.storedOn] at held
    exact absurd rfl held

instance Steady.furnishing [Steady R] : Furnishing R where
  furnished h := Steady.untouched h.untouched

/-- To leave registries untouched is itself such a relation. -/
instance World.Untouched.steady : Steady World.Untouched := ⟨.trans, fun h => h⟩

section Furnishing

set_option synthInstance.maxSize 1000

variable [Furnishing R]

/-- A change of the world that only furnishes types and registries. -/
theorem along_modify_of {f : World → World} (untouched : ∀ w : World, w.Untouched (f w))
    (apart : ∀ w : World, w.sharedParts = [] →
      (f w).sharedParts = [] ∧ (f w).fields = w.fields ∧ (f w).schemas = w.schemas) :
    Along R (modify f : Action PUnit) :=
  ⟨fun w => Furnishing.furnished ⟨untouched w, apart w⟩⟩

instance along_modifyTable (owner : TableOwner) (change : CapabilityTable → CapabilityTable) :
    Along R (modifyTable owner change) := by
  refine along_modify_of (fun w => ?_) fun w unshared => ?_
  · split
    · exact w.untouched_modifyType _ (fun _ => rfl) (fun _ => rfl) fun _ h => h
    · exact w.untouched_modifyRegistry _ fun _ => rfl
    · exact w.untouched_modifyRegistry _ fun _ => rfl
  · cases owner <;> exact ⟨unshared, rfl, rfl⟩

instance along_changeTypeAttributes (id : Nat) (change : Entries → Entries) :
    Along R (modify fun w => w.changePart (.typeAttributes id) change : Action PUnit) := by
  refine along_modify_of (fun w => w.untouched_changePart _ _) fun w unshared => ?_
  rw [World.changePart_of_unshared unshared]
  exact ⟨unshared, rfl, rfl⟩

variable [d.Within R]

instance along_mergeTypeAttributes (id : Nat) (attributes : Value) :
    Along R (mergeTypeAttributes d id attributes) := by
  unfold mergeTypeAttributes
  refine Along.andThen fun entries => ?_
  split
  · refine Along.andThen fun held => ?_
    split <;> infer_instance
  · infer_instance

instance along_installNamed (owner : TableOwner) (v : Value) :
    Along R (installNamed d owner v) := by
  unfold installNamed
  infer_instance

instance along_installOnType (id : Nat) (v : Value) : Along R (installOnType d id v) := by
  unfold installOnType
  refine Along.andThen fun table => ?_
  split <;> infer_instance

instance along_giveCapability (id : Nat) (c : Capability) : Along R (giveCapability d id c) := by
  unfold giveCapability
  infer_instance

/-! ## Parts of a definition -/

instance along_checkMarshaller (slot : String) (name function : Value) :
    Along R (checkMarshaller d slot name function) := by
  unfold checkMarshaller
  infer_instance

instance along_baseNamed (registry : Nat) (name base : Value) :
    Along R (baseNamed d registry name base) := by
  unfold baseNamed
  split <;> infer_instance

instance along_derivesFrom (id : Nat) (name : Value) : Along R (derivesFrom d id name) := by
  unfold derivesFrom
  infer_instance

instance along_resolveBase (registry : Nat) (name base : Value) :
    Along R (resolveBase d registry name base) := by
  unfold resolveBase
  infer_instance

instance along_extendAttributes (id : Nat) (attributes : Value) :
    Along R (extendAttributes d id attributes) := by
  unfold extendAttributes
  infer_instance

instance along_extendType (id : Nat) (base : Option Nat) (definition : TypeDefinition) :
    Along R (extendType d id base definition) := by
  unfold extendType
  refine Along.andThen fun name => ?_
  split <;> infer_instance

instance along_installMarshaller (id : Nat) (slot : String) (function : Value) :
    Along R (installMarshaller d id slot function) := by
  unfold installMarshaller
  infer_instance

instance along_installShared (registry : Nat) (target : Target) (c : Capability) :
    Along R (installShared d registry target c) := by
  have shared : Along R (modify fun w => w.modifyRegistry registry fun r => match target with
      | .schema => { r with schemaCapabilities := r.schemaCapabilities.install c }
      | _ => { r with fieldCapabilities := r.fieldCapabilities.install c } : Action PUnit) :=
    along_modify_of (fun w => w.untouched_modifyRegistry _ fun _ => by cases target <;> rfl)
      fun w unshared => ⟨unshared, rfl, rfl⟩
  unfold installShared
  infer_instance

end Furnishing

/-! ## Operations of all kinds

What an operation does besides defining a type, giving a type a capability or installing one in a
shared table follows every relation that does not see the log. -/

section Kinds

set_option synthInstance.maxSize 1000

instance along_targetOf [Frame R] (target : Value) : Along R (targetOf target) := by
  unfold targetOf
  split <;> infer_instance

variable [d.Within R]

instance along_addAttributes (implied : Entries) (attributes : Value) :
    Along R (addAttributes d implied attributes) := by
  unfold addAttributes
  infer_instance

instance along_nameOfClass (c : Value) : Along R (nameOfClass d c) := by
  unfold nameOfClass
  split <;> infer_instance

instance along_readOptions (spec : Value) : Along R (readOptions d spec) := by
  unfold readOptions
  split
  · split <;> infer_instance
  · infer_instance

instance along_capabilityNames (cs : List Capability) : Along R (capabilityNames d cs) := by
  unfold capabilityNames
  infer_instance

section Installing

variable [∀ id c, Along R (giveCapability d id c)]

instance along_serveTypes (condition : Option Predicate) (cs : List Capability)
    (ids : List Nat) : Along R (serveTypes d condition cs ids) := by
  induction ids with
  | nil =>
    rw [serveTypes]
    infer_instance
  | cons id rest ih =>
    rw [serveTypes]
    cases condition <;> dsimp only [Option.elim] <;> infer_instance

instance along_installOnTypes (registry : Nat) (reading : EntryReading) :
    Along R (installOnTypes d registry reading) := by
  unfold installOnTypes
  infer_instance

variable [∀ registry target c, Along R (installShared d registry target c)]

instance along_installEntry (registry : Nat) (target : Target) (entry : Value) :
    Along R (installEntry d registry target entry) := by
  unfold installEntry
  refine Along.andThen fun reading => ?_
  split <;> infer_instance

instance along_installCapabilities (registry : Nat) (target entries : Value) :
    Along R (installCapabilities d registry target entries) := by
  unfold installCapabilities
  infer_instance

end Installing

section Definitions

variable [∀ registry definition, Along R (defineType d registry definition)]

instance along_defineNative (registry : Nat) (representation : Value)
    (definition : TypeDefinition) :
    Along R (defineNative d registry representation definition) := by
  unfold defineNative
  infer_instance

instance along_defineObject (registry : Nat) (class' : Value) (definition : TypeDefinition) :
    Along R (defineObject d registry class' definition) := by
  unfold defineObject
  infer_instance

instance along_defineEnumeration (registry : Nat) (spec : Value) (definition : TypeDefinition) :
    Along R (defineEnumeration d registry spec definition) := by
  unfold defineEnumeration
  infer_instance

instance along_defineDerived (registry : Nat) (primitive : String)
    (definition : TypeDefinition) : Along R (defineDerived d registry primitive definition) := by
  unfold defineDerived
  infer_instance

instance along_seedPrimitives (registry : Nat) : Along R (seedPrimitives d registry) := by
  unfold seedPrimitives
  infer_instance

instance along_seedMoments (registry : Nat) : Along R (seedMoments d registry) := by
  unfold seedMoments
  infer_instance

instance along_seedCatalog (registry : Nat) (includeDerived : Bool) :
    Along R (seedCatalog d registry includeDerived) := by
  unfold seedCatalog
  infer_instance

end Definitions

end Kinds

/-! ## Shared registries -/

section Furnishing

set_option synthInstance.maxSize 1000

variable [Furnishing R]

instance along_newRegistry : Along R newRegistry where
  out w := by
    refine Furnishing.furnished ⟨.of_kept rfl (fun _ => rfl) (fun _ => rfl) (fun r => ?_)
      (fun _ h => h) (fun _ h => h) fun _ h => h, fun unshared => ⟨unshared, rfl, rfl⟩⟩
    show ((w.registries.push ⟨[], [], []⟩).getD r default).types
    = (w.registries.getD r default).types
    by_cases inside : r < w.registries.size
    · simp [Array.getD, Array.getElem_push, inside, Nat.lt_succ_of_lt inside]
    · by_cases new : r = w.registries.size
      · subst new
        simp [Array.getD]
        rfl
      · have outside : ¬ r < w.registries.size + 1 := by omega
        simp [Array.getD, inside, outside]

instance along_readSettings (arguments : List (String × Value)) :
    Along R (readSettings arguments) := by
  have read : ∀ w : World, Along R (match Settings.read w.variableStart w.environment arguments with
      | .ok s => pure s
      | .error issues => throw (.settings issues) : Action Settings) := by
    intro w
    split <;> infer_instance
  unfold readSettings
  infer_instance

variable [d.Within R] [∀ registry definition, Along R (defineType d registry definition)]

instance along_sharedRegistry : Along R (sharedRegistry d) := by
  have shared : ∀ r : Nat, Along R (modify fun w => { w with sharedRegistry := some r } :
      Action PUnit) := fun r => along_modify_of
    (fun w => .of_kept rfl (fun _ => rfl) (fun _ => rfl) (fun _ => rfl) (fun _ h => h)
      (fun _ h => h) fun _ h => h)
    fun w unshared => ⟨unshared, rfl, rfl⟩
  unfold sharedRegistry
  refine Along.andThen fun w => ?_
  split <;> infer_instance

instance along_homeRegistry : Along R (homeRegistry d) := by
  unfold homeRegistry
  refine Along.andThen fun w => ?_
  split <;> infer_instance

end Furnishing

/-! ## Operations and runs -/

/-- The operations of a registry that define types or install capabilities. -/
inductive RegistryOperation where
  | define (definition : TypeDefinition)
  | defineNative (representation : Value) (definition : TypeDefinition)
  /-- A type derived from one of the primitive types, such as `String`. -/
  | defineDerived (primitive : String) (definition : TypeDefinition)
  | defineObject (class' : Value) (definition : TypeDefinition)
  | defineEnumeration (spec : Value) (definition : TypeDefinition)
  | seed (includeDerived : Bool)
  | install (target entries : Value)

/-- Perform an operation on a registry. -/
def RegistryOperation.perform (d : Dispatch) (registry : Nat) : RegistryOperation → Action Unit
  | .define definition => discard (defineType d registry definition)
  | .defineNative representation definition =>
      discard (DataShape.defineNative d registry representation definition)
  | .defineDerived primitive definition =>
      discard (DataShape.defineDerived d registry primitive definition)
  | .defineObject class' definition => discard (DataShape.defineObject d registry class' definition)
  | .defineEnumeration spec definition =>
      discard (DataShape.defineEnumeration d registry spec definition)
  | .seed includeDerived => seedCatalog d registry includeDerived
  | .install target entries => installCapabilities d registry target entries

/-- An operation follows a relation if defining a type and installing a capability do. -/
instance along_perform [d.Within R]
    [∀ registry definition, Along R (defineType d registry definition)]
    [∀ id c, Along R (giveCapability d id c)]
    [∀ registry target c, Along R (installShared d registry target c)] (registry : Nat)
    (operation : RegistryOperation) : Along R (operation.perform d registry) := by
  cases operation <;> unfold RegistryOperation.perform <;> infer_instance

/-- The definition of a type with nothing but a name and a base. -/
def bareDefinition (name : String) (base : Value) : TypeDefinition :=
  ⟨.str name, .null, base, .null, .null⟩

/-- The world after operations on registries, one after the other; one that ends in a fault leaves
what it changed before. -/
def afterOperations (d : Dispatch) : List (Nat × RegistryOperation) → World → World
  | [], w => w
  | (registry, operation) :: rest, w =>
      afterOperations d rest (exec (operation.perform d registry) w).2

/-- What every operation follows a sequence of them does, by induction on it. -/
theorem follows_afterOperations [Frame R]
    (each : ∀ registry operation, Along R (RegistryOperation.perform d registry operation))
    (operations : List (Nat × RegistryOperation)) (w : World) :
    R w (afterOperations d operations w) := by
  induction operations generalizing w with
  | nil => exact Frame.refl w
  | cons step rest ih => exact Frame.trans ((each step.1 step.2).out w) (ih _)

/-- Runs of registries: steps that leave them untouched, and operations, with whatever dispatch does
such runs itself. -/
inductive RegistryRun : World → World → Prop where
  | keep {w w' : World} (h : w.Untouched w') : RegistryRun w w'
  | trans {u v w : World} (first : RegistryRun u v) (second : RegistryRun v w) : RegistryRun u w
  | perform (d : Dispatch) (registry : Nat) (operation : RegistryOperation) (w : World)
      (call : ∀ f arguments named w, RegistryRun w (exec (d.call f arguments named) w).2)
      (member : ∀ v name w, RegistryRun w (exec (d.member v name) w).2)
      (items : ∀ v w, RegistryRun w (exec (d.items v) w).2)
      (display : ∀ v w, RegistryRun w (exec (d.display v) w).2) :
      RegistryRun w (exec (operation.perform d registry) w).2

instance RegistryRun.steady : Steady RegistryRun := ⟨.trans, .keep⟩

/-- A definition is a run, if the functions that are called in its course do runs. -/
instance along_defineType_run [within : d.Within RegistryRun] (registry : Nat)
    (definition : TypeDefinition) : Along RegistryRun (defineType d registry definition) where
  out w := by
    have run := RegistryRun.perform d registry (.define definition) w
      (fun f a n => (within.call f a n).out) (fun v n => (within.member v n).out)
      (fun v => (within.items v).out) fun v => (within.display v).out
    rwa [RegistryOperation.perform, exec_discard] at run

/-- By induction on the run: if definitions follow a relation whenever their dispatch does, all runs
of registries follow it, however operations are nested in each other. -/
theorem RegistryRun.follows [Steady R]
    (step : ∀ d : Dispatch, d.Within R → ∀ registry definition,
      Along R (defineType d registry definition)) {w w' : World} (run : RegistryRun w w') :
    R w w' := by
  induction run with
  | keep h => exact Steady.untouched h
  | trans _ _ first second => exact Steady.trans first second
  | perform d registry operation w _ _ _ _ call member items display =>
    have within : d.Within R := .ofLists (fun f a n => ⟨call f a n⟩) (fun v n => ⟨member v n⟩)
      (fun v => ⟨items v⟩) fun v => ⟨display v⟩
    have := step d within
    exact (along_perform (R := R) registry operation).out w

/-- What a sequence of operations does is a run, if the functions that are called in its course do
runs. -/
theorem registryRun_afterOperations (within : d.Within RegistryRun)
    (operations : List (Nat × RegistryOperation)) (w : World) :
    RegistryRun w (afterOperations d operations w) :=
  follows_afterOperations (fun registry operation => ⟨fun w => .perform d registry operation w
    (fun f a n => (within.call f a n).out) (fun v n => (within.member v n).out)
    (fun v => (within.items v).out) fun v => (within.display v).out⟩) operations w

end DataShape
