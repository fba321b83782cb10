import DataShape.DataType
import DataShape.Proofs.Execution
import DataShape.Schema.Field

/-! # Plain worlds

Values can be set on types, fields and schemas themselves, where they stand in for parts and methods
of the object. In a plain world nothing was set on any of them, so every object is what it was made
as, and the engine takes its own way everywhere. What it does there to list the fields of a schema,
or to see whether a value counts as true, runs no function of a provider and changes nothing but
the field lists that schemas keep.

* `World.Plain` — nothing was set on an object; the simp lemmas say what each look-up then gives.
* `World.Relisted` — worlds that differ in kept field lists only.
* `relists_allFieldNames`, `relists_truthOf` — listing and testing in a plain world. -/

namespace DataShape

namespace World

/-- Nothing was set on a type, a field or a schema itself. -/
structure Plain (w : World) : Prop where
  types : ∀ i, (w.type i).stored = []
  fields : ∀ i, (w.field i).stored = []
  schemas : ∀ i, (w.schema i).stored = []

/-- A world without objects is plain. -/
theorem Plain.of_no_objects {w : World} (types : w.types = #[]) (fields : w.fields = #[])
    (schemas : w.schemas = #[]) : w.Plain where
  types i := by
    rw [type, types]
    rfl
  fields i := by
    rw [field, fields]
    rfl
  schemas i := by
    rw [schema, schemas]
    rfl

/-- An object on which nothing was set has no stand-ins. -/
theorem exec_standIn?_of_bare {w : World} {host : Value} (bare : w.storedOn host = [])
    (name : String) : exec (standIn? host name) w = (.ok none, w) := by
  show (Except.ok ((w.storedOn host).get? name), w) = _
  rw [bare]
  rfl

/-- The engine takes its own way for such an object. -/
theorem exec_orStandIn_of_bare {α : Type} (d : Dispatch) {w : World} {host : Value}
    (bare : w.storedOn host = []) (name : String) (arguments : List Value)
    (read : Value → Action α) (own : Action α) :
    exec (orStandIn d host name arguments read own) w = exec own w := by
  unfold orStandIn
  rw [exec_bind_ok (exec_standIn?_of_bare bare name)]

namespace Plain

variable {w : World} (plain : w.Plain)

include plain

theorem storedOn (host : Value) : w.storedOn host = [] := by
  unfold World.storedOn
  split
  · exact plain.types _
  · exact plain.fields _
  · exact plain.schemas _
  · rfl

theorem setOr (host : Value) (name : String) (made : Value) : w.setOr host name made = made := by
  rw [World.setOr, plain.storedOn]
  rfl

theorem baseOf (id : Nat) : w.baseOf id = objectOrNull .type (w.type id).base := plain.setOr ..

theorem parentOf (id : Nat) : w.parentOf id = objectOrNull .schema (w.schema id).parent :=
  plain.setOr ..

theorem fieldType (id : Nat) : w.fieldType id = (w.field id).type.toValue := plain.setOr ..

theorem fieldAttributes (id : Nat) :
    w.fieldAttributes id = .freshDict (w.field id).attributes := plain.setOr ..

theorem typeName (id : Nat) : w.typeName id = .str (w.type id).name := by
  rw [World.typeName, plain.types]
  rfl

theorem fieldName (id : Nat) : w.fieldName id = .str (w.field id).name := by
  rw [World.fieldName, plain.fields]
  rfl

/-- Every base chain is made of what types are made of. -/
theorem isPlainChain (id : Nat) : w.isPlainChain id = true := by
  refine List.all_eq_true.mpr fun t _ => List.all_eq_true.mpr fun part _ => ?_
  rw [plain.types]
  rfl

/-! ## No stand-ins -/

theorem exec_standIn? (host : Value) (name : String) :
    exec (standIn? host name) w = (.ok none, w) :=
  exec_standIn?_of_bare (plain.storedOn host) name

theorem exec_foreignLists? (s : Nat) : exec (foreignLists? s) w = (.ok none, w) :=
  plain.exec_standIn? ..

theorem exec_foreignParent? (s : Nat) : exec (foreignParent? s) w = (.ok none, w) :=
  plain.exec_standIn? ..

/-- The engine takes its own way. -/
theorem exec_orStandIn {α : Type} (d : Dispatch) (host : Value) (name : String)
    (arguments : List Value) (read : Value → Action α) (own : Action α) :
    exec (orStandIn d host name arguments read own) w = exec own w :=
  exec_orStandIn_of_bare d (plain.storedOn host) name arguments read own

/-- A search along a base chain looks at the types of the lineage. -/
theorem exec_searchLineage {α : Type} (d : Dispatch) (id : Nat) (ask : Value → Action (Option α))
    (own : World → List Nat → Option α) :
    exec (searchLineage d id ask own) w = (.ok (own w (w.lineage id)), w) := by
  unfold searchLineage
  rw [plain.exec_orStandIn, exec_bind_ok (exec_get w), if_pos (plain.isPlainChain id)]
  rfl

/-- The engine gives the lineage of a type as it is linked. -/
theorem exec_lineageOf (d : Dispatch) (id : Nat) :
    exec (lineageOf d id) w = (.ok ((w.lineage id).map .type), w) := by
  unfold lineageOf
  rw [exec_bind_ok (exec_get w), if_pos (plain.isPlainChain id)]
  rfl

/-- A type derives from the names in its lineage. -/
theorem exec_isA (d : Dispatch) (id : Nat) (name : String) :
    exec (isA d id (.str name)) w
      = (.ok (decide (name ∈ (w.lineage id).map fun t => (w.type t).name)), w) := by
  have same : ((w.lineage id).any fun t => w.equal (w.typeName t) (.str name))
      = decide (name ∈ (w.lineage id).map fun t => (w.type t).name) := by
    rw [Bool.eq_iff_iff, List.any_eq_true, decide_eq_true_iff, List.mem_map]
    refine exists_congr fun t => and_congr_right fun _ => ?_
    rw [plain.typeName, equal, settled_str, settled_str]
    simp [Value.eq]
  simp only [isA, pure_bind]
  rw [exec_bind_ok (plain.exec_searchLineage ..), ← same]
  cases (w.lineage id).any fun t => w.equal (w.typeName t) (.str name) <;> rfl

end Plain

/-! ## Worlds that differ in field lists -/

/-- Two worlds differ in the field lists that schemas keep, and in nothing else. -/
structure Relisted (w w' : World) : Prop where
  rest : { w' with schemas := w.schemas } = w
  size : w'.schemas.size = w.schemas.size
  schema : ∀ i, { w'.schema i with fieldLists := (w.schema i).fieldLists } = w.schema i

namespace Relisted

theorem refl (w : World) : Relisted w w := ⟨rfl, rfl, fun _ => rfl⟩

theorem trans {u v w : World} (first : Relisted u v) (second : Relisted v w) : Relisted u w where
  rest := by
    rw [← first.rest, ← second.rest]
  size := second.size.trans first.size
  schema i := by
    rw [← first.schema i, ← second.schema i]

variable {w w' : World} (h : Relisted w w')

include h

theorem types : w'.types = w.types := by
  have same := congrArg World.types h.rest
  exact same

theorem fields : w'.fields = w.fields := by
  have same := congrArg World.fields h.rest
  exact same

theorem registries : w'.registries = w.registries := by
  have same := congrArg World.registries h.rest
  exact same

theorem type (i : Nat) : w'.type i = w.type i := by
  rw [World.type, h.types]
  rfl

theorem field (i : Nat) : w'.field i = w.field i := by
  rw [World.field, h.fields]
  rfl

theorem registry (i : Nat) : w'.registry i = w.registry i := by
  rw [World.registry, h.registries]
  rfl

/-- What does not depend on the lists that a schema keeps is the same. -/
theorem part {α : Type} (part : SchemaNode → α)
    (same : ∀ n lists, part { n with fieldLists := lists } = part n) (i : Nat) :
    part (w'.schema i) = part (w.schema i) :=
  (same _ _).symm.trans (congrArg part (h.schema i))

theorem schemaParent (i : Nat) : (w'.schema i).parent = (w.schema i).parent :=
  h.part SchemaNode.parent (fun _ _ => rfl) i

theorem schemaFields (i : Nat) : (w'.schema i).fields = (w.schema i).fields :=
  h.part SchemaNode.fields (fun _ _ => rfl) i

theorem schemaStored (i : Nat) : (w'.schema i).stored = (w.schema i).stored :=
  h.part SchemaNode.stored (fun _ _ => rfl) i

theorem schemaChain (id : Nat) : w'.schemaChain id = w.schemaChain id := by
  unfold World.schemaChain
  rw [h.size, funext h.schemaParent]

theorem plain (plain : w.Plain) : w'.Plain where
  types i := by rw [h.type, plain.types]
  fields i := by rw [h.field, plain.fields]
  schemas i := by rw [h.schemaStored, plain.schemas]

end Relisted

end World

/-! ## Changed nodes -/

/-- What is found among nodes one of which was changed; a node that is not there is not changed. -/
theorem getD_modify {α : Type} (nodes : Array α) (f : α → α) (i j : Nat) (otherwise : α) :
    (nodes.modify i f).getD j otherwise = if i = j ∧ j < nodes.size then f (nodes.getD j otherwise)
      else nodes.getD j otherwise := by
  by_cases inside : j < nodes.size
  · have inside' : j < (nodes.modify i f).size := by rwa [Array.size_modify]
    rw [Array.getD, dif_pos inside', Array.getInternal_eq_getElem, Array.getElem_modify inside']
    by_cases same : i = j <;> simp [same, inside]
  · simp [Array.getD, inside]

/-- What holds of all nodes and of the default holds of what is found among them. -/
theorem getD_of_all {α : Type} {P : α → Prop} (nodes : Array α) {otherwise : α}
    (all : ∀ n ∈ nodes.toList, P n) (default : P otherwise) (i : Nat) :
    P (nodes.getD i otherwise) := by
  by_cases inside : i < nodes.size
  · rw [Array.getD, dif_pos inside]
    exact all _ (Array.getElem_mem_toList inside)
  · rw [Array.getD, dif_neg inside]
    exact default

/-- What is found among nodes to which one was added. -/
theorem getD_push {α : Type} (nodes : Array α) (node : α) (i : Nat) (otherwise : α) :
    (nodes.push node).getD i otherwise
      = if i = nodes.size then node else nodes.getD i otherwise := by
  by_cases here : i = nodes.size
  · simp [here, Array.getD]
  · by_cases inside : i < nodes.size
    · simp [here, inside, Array.getD, Array.getElem_push, Nat.lt_succ_of_lt inside]
    · have outside : ¬ i < nodes.size + 1 := by omega
      simp [here, inside, outside, Array.getD]

/-- What is found among nodes all of which were changed by a function that keeps the default. -/
theorem getD_map {α : Type} (nodes : Array α) (f : α → α) (j : Nat) {otherwise : α}
    (keeps : f otherwise = otherwise) :
    (nodes.map f).getD j otherwise = f (nodes.getD j otherwise) := by
  by_cases inside : j < nodes.size
  · simp [Array.getD, inside]
  · simp [Array.getD, inside, keeps]

namespace World

theorem type_modifyType (w : World) (id : Nat) (f : TypeNode → TypeNode) (i : Nat) :
    (w.modifyType id f).type i
      = if id = i ∧ i < w.types.size then f (w.type i) else w.type i :=
  getD_modify ..

theorem field_modifyField (w : World) (id : Nat) (f : FieldNode → FieldNode) (i : Nat) :
    (w.modifyField id f).field i
      = if id = i ∧ i < w.fields.size then f (w.field i) else w.field i :=
  getD_modify ..

theorem schema_modifySchema (w : World) (id : Nat) (f : SchemaNode → SchemaNode) (i : Nat) :
    (w.modifySchema id f).schema i
      = if id = i ∧ i < w.schemas.size then f (w.schema i) else w.schema i :=
  getD_modify ..

/-- What a change of schemas keeps, every schema keeps. -/
theorem part_modifySchema {α : Type} (part : SchemaNode → α) {f : SchemaNode → SchemaNode}
    (same : ∀ n, part (f n) = part n) (w : World) (id i : Nat) :
    part ((w.modifySchema id f).schema i) = part (w.schema i) := by
  rw [schema_modifySchema]
  split
  · exact same _
  · rfl

theorem field_push (w : World) (node : FieldNode) (i : Nat) :
    World.field { w with fields := w.fields.push node } i
      = if i = w.fields.size then node else w.field i :=
  getD_push ..

theorem schema_push (w : World) (node : SchemaNode) (i : Nat) :
    World.schema { w with schemas := w.schemas.push node } i
      = if i = w.schemas.size then node else w.schema i :=
  getD_push ..

theorem registry_modifyRegistry (w : World) (id : Nat) (f : RegistryNode → RegistryNode)
    (i : Nat) :
    (w.modifyRegistry id f).registry i
      = if id = i ∧ i < w.registries.size then f (w.registry i) else w.registry i :=
  getD_modify ..

/-- A field on which nothing was set leaves the world plain when it is added. -/
theorem Plain.pushField {w : World} (plain : w.Plain) {node : FieldNode}
    (stored : node.stored = []) : World.Plain { w with fields := w.fields.push node } := by
  refine ⟨plain.types, fun i => ?_, plain.schemas⟩
  rw [field_push]
  split
  · exact stored
  · exact plain.fields i

/-- A schema that keeps a list is relisted. -/
theorem relisted_keep (w : World) (s : Nat) (p : Projection) (names : List Value) :
    Relisted w (w.modifySchema s fun n =>
      { n with fieldLists := n.fieldLists.insert p names }) where
  rest := rfl
  size := Array.size_modify
  schema i := by
    rw [schema_modifySchema]
    split <;> rfl

end World

/-! ## Listing and testing -/

variable (d : Dispatch) {w : World}

/-- An action gives a result, and the world that it leaves differs in kept field lists only. -/
def Relists {α : Type} (a : Action α) (w : World) : Prop :=
  ∃ x w', exec a w = (.ok x, w') ∧ w.Relisted w'

theorem relists_of_still {α : Type} {a : Action α} {x : α} (h : exec a w = (.ok x, w)) :
    Relists a w := ⟨x, w, h, .refl w⟩

/-- A sequence lists if its steps do, each in the world that it finds. -/
theorem Relists.bind {α β : Type} {a : Action α} {f : α → Action β} (first : Relists a w)
    (second : ∀ x w', w.Relisted w' → Relists (f x) w') : Relists (a >>= f) w := by
  obtain ⟨x, w₁, run, relisted⟩ := first
  obtain ⟨y, w₂, run', relisted'⟩ := second x w₁ relisted
  exact ⟨y, w₂, by rw [exec_bind_ok run, run'], relisted.trans relisted'⟩

theorem relists_keepNames (s : Nat) (p : Projection) (names : List Value) :
    Relists (keepNames s p names) w := ⟨_, _, rfl, w.relisted_keep s p names⟩

/-- After a step that leaves the world as it is, a sequence lists if what follows does. -/
theorem Relists.after {α β : Type} {a : Action α} {x : α} {f : α → Action β}
    (h : exec a w = (.ok x, w)) (second : Relists (f x) w) : Relists (a >>= f) w := by
  obtain ⟨y, w', run, relisted⟩ := second
  exact ⟨y, w', by rw [exec_bind_ok h, run], relisted⟩

/-- Only the run of an action matters. -/
theorem Relists.congr {α : Type} {a b : Action α} (h : exec a w = exec b w)
    (relists : Relists b w) : Relists a w := by
  unfold Relists
  rw [h]
  exact relists

/-- A list that is kept is given back, and any other one is computed and kept. -/
theorem World.Plain.exec_listedNames (plain : w.Plain) (s : Nat) (p : Projection)
    (compute : Action (List Value)) :
    exec (listedNames d s p compute) w = match (w.schema s).fieldLists.get? p with
      | some names => (.ok names, w)
      | none => exec (do
          let names ← compute
          keepNames s p names
          return names) w := by
  unfold listedNames
  rw [exec_bind_ok (plain.exec_foreignLists? s), exec_bind_ok (exec_get w)]
  cases (w.schema s).fieldLists.get? p <;> rfl

theorem relists_listedNames (plain : w.Plain) (s : Nat) (p : Projection)
    {compute : Action (List Value)} (computed : Relists compute w) :
    Relists (listedNames d s p compute) w := by
  unfold Relists
  rw [plain.exec_listedNames]
  split
  · exact relists_of_still rfl
  · refine computed.bind fun names w₁ _ => ?_
    refine (relists_keepNames s p names).bind fun _ w₂ _ => ?_
    exact relists_of_still rfl

theorem relists_ownFieldNames (plain : w.Plain) (s : Nat) : Relists (ownFieldNames d s) w := by
  unfold ownFieldNames
  exact .after (plain.exec_standIn? _ _) (relists_of_still rfl)

/-- By induction on the chain of parents, each of which keeps its own list. -/
theorem relists_namesAlong (plain : w.Plain) (chain : List Nat) :
    Relists (namesAlong d chain) w := by
  induction chain generalizing w with
  | nil => exact relists_of_still rfl
  | cons s rest ih =>
    rw [namesAlong]
    refine .congr (plain.exec_orStandIn ..) (relists_listedNames d plain s .all ?_)
    refine .after (plain.exec_foreignParent? s) ((ih plain).bind fun inherited w₁ relisted => ?_)
    refine (relists_ownFieldNames d (relisted.plain plain) s).bind fun own w₂ _ => ?_
    exact relists_of_still rfl

/-- In a plain world all field names of a schema are listed, and nothing but kept lists changes. -/
theorem relists_allFieldNames (plain : w.Plain) (s : Nat) : Relists (allFieldNames d s) w := by
  unfold allFieldNames
  exact .after (exec_get w) (relists_namesAlong d plain _)

/-- In a plain world every value can be tested, and nothing but kept lists changes. -/
theorem relists_truthOf (plain : w.Plain) (v : Value) : Relists (truthOf d v) w := by
  unfold truthOf
  split
  · have walked : Relists (iterate d v) w := by
      cases v <;> first
        | exact relists_allFieldNames d plain _
        | exact relists_of_still rfl
        | contradiction
    exact walked.bind fun _ _ _ => relists_of_still rfl
  · exact relists_of_still rfl

end DataShape
