import DataShape.Member.Method
import DataShape.Proofs.Schema.Compile

/-! # Runs of schemas

A session defines types and installs capabilities, compiles templates, and uses the schemas that it
has, in any order. Whatever it does, its schemas stay sound.

* `SchemaOperation` — the operations of a session.
* `SchemaRun` — worlds reached by operations, those that end in a fault included.
* `SchemaRun.sound` — schemas are sound after every run that starts without objects. -/

namespace DataShape

/-! ## Operations -/

/-- The operations that define types and capabilities, and those that make and use schemas. Flags
are given by position: whether fields that are left out of user interfaces are dropped, and whether
only own fields count. -/
inductive SchemaOperation where
  | newRegistry
  | define (registry : Nat) (operation : RegistryOperation)
  | compile (registry : Nat) (template collectionName parent : Value)
  | merge (field : Nat) (attributes : Value)
  | list (schema : Nat) (flags : List Value)
  | iterate (schema : Nat) (flags : List Value)
  | forEach (schema : Nat) (callback : Value) (flags : List Value)
  | sanitize (schema : Nat) (record uiOnly : Value)
  | convert (schema : Nat) (record : Value) (sanitizing : Bool)
  | defaults (schema : Nat) (uiOnly : Value)

/-- Perform an operation. -/
def SchemaOperation.perform (d : Dispatch) : SchemaOperation → Action Unit
  | .newRegistry => discard DataShape.newRegistry
  | .define registry operation => operation.perform d registry
  | .compile registry template collectionName parent =>
      discard (compileSchema d template collectionName parent (.registry registry))
  | .merge field attributes => mergeFieldAttributes d field attributes
  | .list schema flags => discard (fieldNames d schema flags)
  | .iterate schema flags => discard (fieldsOf d schema flags)
  | .forEach schema callback flags => forEachField d schema callback flags
  | .sanitize schema record uiOnly => discard (DataShape.sanitize d schema record uiOnly)
  | .convert schema record sanitizing => discard (DataShape.convert d schema record sanitizing)
  | .defaults schema uiOnly => discard (defaultRecord d schema uiOnly)

/-- A schema that is to be extended exists. -/
def SchemaOperation.Possible (w : World) : SchemaOperation → Prop
  | .compile _ _ _ parent => ∀ p, parent = .schema p → p < w.schemas.size
  | _ => True

/-- Worlds that a session reaches from a world by performing operations one after the other. -/
inductive SchemaRun (d : Dispatch) (w : World) : World → Prop where
  | start : SchemaRun d w w
  | step {w' : World} (run : SchemaRun d w w') (operation : SchemaOperation)
      (possible : operation.Possible w') : SchemaRun d w (exec (operation.perform d) w').2

/-- The world after the operations of a session, one after the other; one that ends in a fault
leaves what it changed before. -/
def afterSession (d : Dispatch) : List SchemaOperation → World → World
  | [], w => w
  | operation :: rest, w => afterSession d rest (exec (operation.perform d) w).2

/-- By induction on the operations, all of which are possible in every world. -/
theorem SchemaRun.afterSession {d : Dispatch} {w₀ : World} (operations : List SchemaOperation)
    (possible : ∀ operation ∈ operations, ∀ w, operation.Possible w) :
    ∀ w, SchemaRun d w₀ w → SchemaRun d w₀ (afterSession d operations w) := by
  induction operations with
  | nil => exact fun _ run => run
  | cons operation rest ih =>
    intro w run
    refine ih (fun o there => possible o (List.mem_cons_of_mem _ there)) _ ?_
    exact .step run operation (possible operation List.mem_cons_self w)

/-- Whether an operation extends no schema. -/
def SchemaOperation.extendsNone : SchemaOperation → Bool
  | .compile _ _ _ (.schema _) => false
  | _ => true

/-- Such an operation is possible in every world. -/
theorem SchemaOperation.possible_of_extendsNone {operation : SchemaOperation}
    (h : operation.extendsNone = true) (w : World) : operation.Possible w := by
  cases operation with
  | compile registry template collectionName parent =>
    rintro p rfl
    cases h
  | _ => trivial

/-- A session of such operations is a run. -/
theorem SchemaRun.of_extendsNone {d : Dispatch} {w₀ : World} (operations : List SchemaOperation)
    (h : operations.all SchemaOperation.extendsNone = true) :
    SchemaRun d w₀ (DataShape.afterSession d operations w₀) :=
  .afterSession operations (fun _ there => SchemaOperation.possible_of_extendsNone
    (List.all_eq_true.mp h _ there)) w₀ .start

/-! ## Development -/

section Follows

set_option synthInstance.maxSize 1000

variable {R : World → World → Prop} {d : Dispatch} [d.Within R] {w : World}

instance along_forEachField [∀ s p, Along R (fieldList d s p)] (schema : Nat) (callback : Value)
    (flags : List Value) : Along R (forEachField d schema callback flags) := by
  unfold forEachField
  infer_instance

/-- A possible operation follows what schemas develop by, if listing does, and the merge of
attributes where it is the operation. -/
theorem follows_perform [Developing R] [∀ s p, Along R (fieldList d s p)]
    {operation : SchemaOperation} (possible : operation.Possible w)
    (merges : ∀ field attributes, operation = .merge field attributes →
      Along R (mergeFieldAttributes d field attributes)) :
    R w (exec (operation.perform d) w).2 := by
  cases operation with
  | compile registry template collectionName parent =>
    rw [SchemaOperation.perform, exec_discard]
    exact follows_compileSchema (some registry) possible
  | merge field attributes => exact (merges field attributes rfl).out w
  | _ =>
    rw [SchemaOperation.perform]
    exact Along.out w

end Follows

section Develops

variable {d : Dispatch} [d.Within World.Develops] {w w' : World}

/-- A possible operation develops schemas. -/
theorem develops_perform {operation : SchemaOperation} (possible : operation.Possible w) :
    w.Develops (exec (operation.perform d) w).2 :=
  follows_perform possible fun _ _ _ => inferInstance

/-- By induction on the run. -/
theorem SchemaRun.develops (run : SchemaRun d w w') : w.Develops w' := by
  induction run with
  | start => exact Frame.refl w
  | step _ _ possible ih => exact Frame.trans ih (develops_perform possible)

end Develops

/-- A world in which nothing was defined yet. -/
structure World.NoObjects (w : World) : Prop where
  types : w.types = #[]
  fields : w.fields = #[]
  schemas : w.schemas = #[]
  unshared : w.sharedParts = []

/-- Every session that starts without objects has sound schemas. -/
theorem SchemaRun.sound {call : Provider} (user : call.Within World.Develops) {depth : Nat}
    {w w' : World} (start : w.NoObjects) (run : SchemaRun (call.dispatch depth) w w') :
    w'.SoundSchemas := by
  have within := Provider.dispatch_develops user depth
  exact (run.develops (.of_no_objects start.types start.fields start.schemas start.unshared)).1

/-! ## Providers -/

/-- Functions of a provider that give the value that they captured. -/
def answering : Provider := fun _ f _ _ =>
  match f with
  | .function _ _ _ captured => pure (captured.headD .null)
  | _ => throw .wrongType

theorem answering_within {R : World → World → Prop} [Frame R] : answering.Within R := by
  intro d within f arguments named
  unfold answering
  split <;> infer_instance

/-- A specification of a field that is left out of user interfaces. -/
def hiddenSpec (type : String) : Value :=
  .ofFields [("type", .str type), ("ui", .ofFields [("exclude", .bool true)])]

end DataShape
