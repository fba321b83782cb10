import DataShape.Proofs.Registry.Cycle

/-! # The registry invariant

What holds of a registry after every sequence of operations that starts from an empty one, failing
operations and nested ones included.

* `World.Evolves.of_run` — a sound registry stays sound along every run.
* `registry_invariant` — every registered type has a sound lineage; no later operation changes the
  object, the base or the place of a registered type; and a definition is refused as a cycle exactly
  when its name occurs in the lineage of its base. -/

namespace DataShape

/-- Along every run a sound registry of a plain world stays sound and only grows. -/
theorem World.Evolves.of_run (r : Nat) {w w' : World} (run : RegistryRun w w') : w.Evolves r w' :=
  run.follows fun _ _ _ _ => inferInstance

namespace World.Grown

variable {r : Nat} {w w' : World} (grown : w.Grown r w')

include grown

/-- A registered type is found under its name. -/
theorem typeNamed? {name : String} {id : Nat} (h : (name, id) ∈ (w.registry r).types) :
    w'.typeNamed? r name = some id := by
  rw [World.typeNamed?, Table.get?_eq_some_iff grown.sound.distinct]
  exact grown.places.subset h

/-- A registered name keeps its place. -/
theorem idxOf {name : String} (h : name ∈ w.typeNames r) :
    (w'.typeNames r).idxOf name = (w.typeNames r).idxOf name := by
  obtain ⟨more, places⟩ := grown.places
  rw [typeNames, ← places, Table.keys, List.map_append]
  exact List.idxOf_append_of_mem h

end World.Grown

/-- **The registry invariant.** Let a registry start without types in a plain world, and let any
operations be performed, on it and on others, some of which may fail, while the functions of
providers that are called on the way do no more than runs of registries themselves.

Every registered type is stored under its own name and has a sound lineage, which is what the engine
gives as its lineage. Whatever operations follow, a registered type stays under its name and keeps
its base and its place. And a definition with a text name, conversions that are none or callable and
a base that stands for a registered type is refused as a cycle exactly when the name occurs in the
lineage of the base, which a name that is not registered never does. -/
theorem registry_invariant {call : Provider} (user : call.Within RegistryRun) (depth : Nat)
    {w₀ : World} {r : Nat} (plain : w₀.Plain) (empty : (w₀.registry r).types = [])
    (operations later : List (Nat × RegistryOperation)) :
    let d := call.dispatch depth
    let w := afterOperations d operations w₀
    let w' := afterOperations d later w
    (∀ name id, (name, id) ∈ (w.registry r).types →
      w.LineageSound r name id ∧
      exec (lineageOf d id) w = (.ok ((w.lineage id).map .type), w)) ∧
    (∀ name id, (name, id) ∈ (w.registry r).types →
      w'.typeNamed? r name = some id ∧ (w'.type id).base = (w.type id).base ∧
      (w'.typeNames r).idxOf name = (w.typeNames r).idxOf name) ∧
    ∀ (definition : TypeDefinition) (s : String) (b : Nat), definition.name = .str s →
      definition.toText.isConversion = true → definition.fromText.isConversion = true →
      w.BaseNamed r definition.base b →
      ((∃ name baseName text, (exec (defineType d r definition) w).1
          = .error (.cycle name baseName text))
        ↔ s ∈ (w.lineage b).map fun t => (w.type t).name) ∧
      (s ∉ w.typeNames r → s ∉ (w.lineage b).map fun t => (w.type t).name) := by
  intro d w w'
  have within : d.Within RegistryRun := Provider.dispatch_within user depth
  have grown : w₀.Grown r w :=
    World.Evolves.of_run r (registryRun_afterOperations within operations w₀) plain
      (.of_empty empty)
  have grown' : w.Grown r w' :=
    World.Evolves.of_run r (registryRun_afterOperations within later w) grown.plain grown.sound
  have found : ∀ {name id}, (name, id) ∈ (w.registry r).types → w.typeNamed? r name = some id :=
    fun h => (Table.get?_eq_some_iff grown.sound.distinct).mpr h
  refine ⟨fun name id h => ?_, fun name id h => ?_,
    fun definition s b named toText fromText base => ?_⟩
  · exact ⟨grown.sound.lineageSound (found h), grown.plain.exec_lineageOf d id⟩
  · refine ⟨grown'.typeNamed? h, grown'.base id (grown.sound.known _ h), grown'.idxOf ?_⟩
    exact List.mem_map.mpr ⟨_, h, rfl⟩
  · refine ⟨defineType_cycle_iff call depth grown.plain named toText fromText base, ?_⟩
    intro unknown known
    have listed := (grown.sound.lineage_names_sublist base.registered).subset known
    exact unknown (List.mem_reverse.mp listed)

/-! ## A run with definitions inside an installation -/

/-- A provider whose functions all define a copy of the type that they are asked about. -/
def spawning : Provider := fun d f arguments named =>
  match f with
  | .function id _ .spawn captured => callRoutine d id .spawn captured arguments named
  | _ => throw .wrongType

/-- What such a function does is a run of registries. -/
theorem spawning_within : spawning.Within RegistryRun := by
  intro d within f arguments named
  have copied : ∀ v : Value, Along RegistryRun (spawnCopy d v) := by
    intro v
    unfold spawnCopy defineMarked
    refine Along.andThen fun name => ?_
    split <;> infer_instance
  unfold spawning
  split
  · next id _ captured =>
    unfold callRoutine
    split <;> first | infer_instance | exact copied _ | contradiction
  · infer_instance

/-- A world with an empty registry, which the functions of providers work on. -/
def World.withRegistry : World :=
  { World.empty "" [] with registries := #[⟨[], [], []⟩], homeRegistry := some 0 }

/-- Two types, one derived from the other, and an installation whose match specification defines a
copy of each type that it is asked about. -/
def copyingOperations : List (Nat × RegistryOperation) :=
  [(0, .define (bareDefinition "A" .null)), (0, .define (bareDefinition "B" (.str "A"))),
   (0, .install (.target .type) (.ofFields [("matches", .function 1 (some "copy") .spawn []),
     ("func", .function 2 (some "probe") .spawn [])]))]

/-- The copy that was defined during the installation has a sound lineage and stays where it is when
a definition is refused; and the definition of `A` on top of that copy is refused. -/
theorem registry_invariant_copying :
    let d := spawning.dispatch 4
    let w := afterOperations d copyingOperations .withRegistry
    let refused := bareDefinition "A" (.str "BCopy")
    spawning.Within RegistryRun ∧ World.withRegistry.Plain ∧
    (World.withRegistry.registry 0).types = [] ∧
    ("BCopy", 3) ∈ (w.registry 0).types ∧ w.LineageSound 0 "BCopy" 3 ∧
    (afterOperations d [(0, .define refused)] w).typeNamed? 0 "BCopy" = some 3 ∧
    refused.toText.isConversion = true ∧ refused.fromText.isConversion = true ∧
    w.BaseNamed 0 refused.base 3 ∧
    ∃ name baseName text, (exec (defineType d 0 refused) w).1
      = .error (.cycle name baseName text) := by
  intro d w refused
  have plain : World.withRegistry.Plain := .of_no_objects rfl rfl rfl
  have empty : (World.withRegistry.registry 0).types = [] := rfl
  have invariant := registry_invariant spawning_within 4 plain empty copyingOperations
    [(0, .define refused)]
  have registered : ("BCopy", 3) ∈ (w.registry 0).types := by
    have types : (w.registry 0).types = [("A", 0), ("B", 1), ("ACopy", 2), ("BCopy", 3)] := by
      decide +kernel
    rw [types]
    decide
  have base : w.BaseNamed 0 refused.base 3 := .name (by decide +kernel)
  have cycle := (invariant.2.2 refused "A" 3 rfl rfl rfl base).1
  exact ⟨spawning_within, plain, empty, registered, (invariant.1 _ _ registered).1,
    (invariant.2.1 _ _ registered).1, rfl, rfl, base, cycle.mpr (by decide +kernel)⟩

end DataShape
