import DataShape.Proofs.Catalog.Seed
import DataShape.Proofs.Idle
import DataShape.Proofs.Registry.Invariant
import DataShape.Proofs.Schema.Compile

/-! # Marks of extended schemas

A schema is marked as one that is extended when a schema is made on top of it. To make it is the
first thing that a compilation of a mapping does, before it reads any field, so the mark says that a
mapping was to be compiled on top of the schema, whether or not that came to its end. Of the schemas
and fields that there are a compilation changes nothing else, but for the field lists that schemas
keep. No function of a provider takes part in it.

* `World.Marking` — what changes of the objects that there are, with the schemas that are marked.
* `marking_compileField`, `marking_compileFields`, `marking_perform` — one field, all fields, and
  the whole call.
* `CompileRun` — runs of compilations, with their history.
* `children_of_attempts` — a schema is marked exactly when a mapping was to be compiled on top. -/

namespace DataShape

namespace World

/-! ## Marked schemas -/

/-- A plain world in which no container is shared between objects and every schema is over a
registry. -/
structure Orderly (w : World) : Prop where
  plain : w.Plain
  unshared : w.sharedParts = []
  served : ∀ s < w.schemas.size, ∃ r, (w.schema s).registry = .registry r

/-- Of the schemas and fields that there are nothing changes but the lists that schemas keep and the
marks of some of them; new ones are not marked. -/
structure Marking (marks : List Nat) (w w' : World) : Prop where
  orderly : w'.Orderly
  nodes : w.KeepsNodes w'
  size : w.schemas.size ≤ w'.schemas.size
  schema : ∀ i < w.schemas.size, { w'.schema i with
    fieldLists := (w.schema i).fieldLists, hasChildren := (w.schema i).hasChildren } = w.schema i
  children : ∀ i, (w'.schema i).hasChildren = ((w.schema i).hasChildren || marks.contains i)

/-- A world in which the schemas that there are have only changed their lists, and fields were only
added. -/
theorem Orderly.marking {w w' : World} (orderly : w.Orderly) (plain : w'.Plain)
    (unshared : w'.sharedParts = []) (nodes : w.KeepsNodes w')
    (size : w'.schemas.size = w.schemas.size)
    (schema : ∀ i, { w'.schema i with fieldLists := (w.schema i).fieldLists } = w.schema i) :
    w.Marking [] w' where
  orderly := by
    refine ⟨plain, unshared, fun s inside => ?_⟩
    obtain ⟨r, served⟩ := orderly.served s (size ▸ inside)
    have same := congrArg SchemaNode.registry (schema s)
    exact ⟨r, same.trans served⟩
  nodes := nodes
  size := Nat.le_of_eq size.symm
  schema i _ := by
    have same := congrArg SchemaNode.hasChildren (schema i)
    rw [← same]
    exact schema i
  children i := by
    have same := congrArg SchemaNode.hasChildren (schema i)
    simpa using same

theorem Orderly.marking_of_resembles {w w' : World} (orderly : w.Orderly) (h : w.Resembles w') :
    w.Marking [] w' :=
  orderly.marking (h.plain orderly.plain) (h.sharedParts.trans orderly.unshared)
    (.of_fields h.fields) h.schemasSize h.schema

theorem Orderly.marking_of_keeps {w w' : World} (orderly : w.Orderly) (plain : w'.Plain)
    (keeps : w.KeepsSchemas w') : w.Marking [] w' := by
  refine orderly.marking plain (keeps.sharedParts.trans orderly.unshared) (.of_fields keeps.fields)
    (by rw [keeps.schemas]) fun i => ?_
  rw [World.schema, keeps.schemas]
  rfl

theorem Marking.refl {w : World} (orderly : w.Orderly) : w.Marking [] w :=
  orderly.marking_of_resembles (.refl w)

/-- Marks add up. -/
theorem Marking.append {u v w : World} {marks marks' : List Nat} (first : u.Marking marks v)
    (second : v.Marking marks' w) : u.Marking (marks ++ marks') w where
  orderly := second.orderly
  nodes := first.nodes.trans second.nodes
  size := Nat.le_trans first.size second.size
  schema i inside := by
    rw [← first.schema i inside, ← second.schema i (Nat.lt_of_lt_of_le inside first.size)]
  children i := by
    rw [second.children, first.children, List.contains_append, Bool.or_assoc]

/-- A schema over a registry that is added, without a mark. -/
theorem Orderly.marking_push {w : World} (orderly : w.Orderly) (node : SchemaNode) {r : Nat}
    (registry : node.registry = .registry r) (unmarked : node.hasChildren = false)
    (stored : node.stored = []) : w.Marking [] { w with schemas := w.schemas.push node } := by
  have size : (w.schemas.push node).size = w.schemas.size + 1 := Array.size_push ..
  exact {
    orderly := {
      plain := orderly.plain.pushSchema stored
      unshared := orderly.unshared
      served := fun s inside => by
        rw [schema_push]
        split
        · exact ⟨r, registry⟩
        · next old =>
          have : s < (w.schemas.push node).size := inside
          exact orderly.served s (by omega) }
    nodes := .of_fields rfl
    size := Nat.le_of_lt (Nat.lt_of_lt_of_eq (Nat.lt_succ_self _) size.symm)
    schema := fun i inside => by rw [schema_push, if_neg (Nat.ne_of_lt inside)]
    children := fun i => by
      rw [schema_push]
      split
      · next new =>
        rw [unmarked, new, schema_of_size_le (Nat.le_refl _)]
        rfl
      · simp }

/-- The schema that is extended is marked. -/
theorem Orderly.marking_withChildren {w : World} (orderly : w.Orderly) {p : Nat}
    (exists' : p < w.schemas.size) : w.Marking [p] (w.withChildren p) := by
  have size : (w.withChildren p).schemas.size = w.schemas.size := Array.size_modify
  have schema := w.schema_modifySchema p fun n =>
    { n with hasChildren := true, stored := n.stored.erase "_has_children" }
  exact {
    orderly := {
      plain := orderly.plain.withChildren p
      unshared := orderly.unshared
      served := fun s inside => by
        rw [w.part_withChildren SchemaNode.registry fun _ => rfl]
        exact orderly.served s (size ▸ inside) }
    nodes := .of_fields rfl
    size := Nat.le_of_eq size.symm
    schema := fun i _ => by
      -- nothing was set on the schema, so nothing is erased
      have erased : (w.schema i).stored.erase "_has_children" = (w.schema i).stored := by
        rw [orderly.plain.schemas i]
        rfl
      rw [withChildren, schema]
      split
      · rw [erased]
      · rfl
    children := fun i => by
      rw [withChildren, schema]
      by_cases same : p = i
      · subst same
        simp [exists']
      · simp [same, Ne.symm same] }

/-- A field that is added. -/
theorem Orderly.marking_pushField {w : World} (orderly : w.Orderly) {node : FieldNode}
    (stored : node.stored = []) : w.Marking [] { w with fields := w.fields.push node } := by
  exact orderly.marking (orderly.plain.pushField stored) orderly.unshared (.push w node) rfl
    fun i => rfl

/-- The fields of a schema that was added are changed. -/
theorem Marking.modifyFields {w w' : World} {marks : List Nat} (marking : w.Marking marks w')
    {s : Nat} (newer : w.schemas.size ≤ s) (fields : Table Value Value) :
    w.Marking marks (w'.modifySchema s fun n => { n with fields := fields }) where
  orderly := by
    have changed := w'.untouched_modifySchema s (f := fun n => { n with fields := fields })
      fun _ h => h
    refine ⟨changed.plain marking.orderly.plain, marking.orderly.unshared, fun i inside => ?_⟩
    have registry := part_modifySchema SchemaNode.registry
      (f := fun n => { n with fields := fields }) (fun _ => rfl) w' s i
    rw [registry]
    exact marking.orderly.served i (Array.size_modify ▸ inside)
  nodes := marking.nodes.trans (.of_fields rfl)
  size := Nat.le_trans marking.size (Nat.le_of_eq Array.size_modify.symm)
  schema i inside := by
    rw [schema_modifySchema, if_neg fun both => by omega]
    exact marking.schema i inside
  children i := by
    have children := part_modifySchema SchemaNode.hasChildren
      (f := fun n => { n with fields := fields }) (fun _ => rfl) w' s i
    rw [children]
    exact marking.children i

end World

/-! ## Specifications -/

section Compile

variable {call : Provider} {depth : Nat} {w w' : World} {s : Nat}

/-- What is idle marks no schema. -/
theorem World.Orderly.marking_of_idle (orderly : w.Orderly) {α : Type} (a : Action α)
    [h : Along World.Idle a] : w.Marking [] (exec a w).2 :=
  orderly.marking_of_resembles (h.out w orderly.plain)

/-- What is refused is only shown. -/
theorem resembles_of_refused (plain : w.Plain) {α β : Type} {v : Value} {fault : String → Fault}
    (rest : β → Action α) {result : Except Fault α} (run : exec (do
      let x ← throw (fault (← shown (call.dispatch depth) v))
      rest x) w = (result, w')) : w.Resembles w' := by
  have showing : Along World.Idle (shown (call.dispatch depth) v) := inferInstance
  have idle := showing.out w plain
  rw [exec_bind] at run
  rcases first : exec (shown (call.dispatch depth) v) w with ⟨e | text, w₁⟩ <;>
    rw [first] at idle run <;> exact (Prod.mk.inj run).2 ▸ idle

/-- A name that is not registered is reported with texts. -/
theorem idles_typeNotFound (plain : w.Plain) (r : Nat) (name field : String) :
    Idles (fun _ => True)
      (typeNotFound (call.dispatch depth) r (.str name) (.str field) : Action Nat) w := by
  have worded : Along World.Idle (textIfTrue (call.dispatch depth) (.str field)) := by
    unfold textIfTrue
    infer_instance
  unfold typeNotFound
  refine .after (x := _) (a := suggestions (call.dispatch depth) r (.str name)) rfl ?_
  rw [textOf_str, pure_bind]
  exact idles_bind_throw _ (worded.out w plain)

section Served

variable {r : Nat} (plain : w.Plain) (served : (w.schema s).registry = .registry r)

include plain served

/-- To find a type by its name, or not to find it, changes nothing. -/
theorem idles_resolveReference (field : String) (reference : Value) :
    Idles (fun _ => True) (resolveReference (call.dispatch depth) s field reference) w := by
  unfold resolveReference
  split
  · exact idles_pure trivial
  · exact idles_pure trivial
  · next name =>
    refine .after (exec_get w) ?_
    rw [served]
    show Idles _ (requireType (call.dispatch depth) r (.str name) (.str field) >>= _) w
    unfold requireType
    rw [bind_assoc]
    refine .after (exec_findType? rfl) ?_
    split
    · exact idles_pure trivial
    · exact (idles_typeNotFound plain r name field).bind fun _ _ _ _ => idles_pure trivial
  · exact idles_bind_throw _ ((along_idle_shown _).out w plain)

theorem idles_readPlainSpec (field : String) (isArray : Bool) (spec : Value) :
    Idles (fun _ => True) (readPlainSpec (call.dispatch depth) s field isArray spec) w := by
  unfold readPlainSpec
  refine .after (exec_mappingOf? spec w) ?_
  split
  · split
    · exact idles_throw _
    · exact (idles_resolveReference plain served field _).bind fun _ _ _ _ => idles_pure trivial
  · exact (idles_resolveReference plain served field _).bind fun _ _ _ _ => idles_pure trivial

theorem idles_readSpec (call : Provider) (depth : Nat) (field : String) (spec : Value) :
    Idles (fun _ => True) (readSpec (call.dispatch depth) s field spec) w := by
  unfold readSpec
  split
  · exact idles_readPlainSpec plain served field true _
  · exact idles_throw _
  · exact idles_readPlainSpec plain served field false _

end Served

/-- A field that cannot be made is not made. -/
theorem resembles_of_makeField_error (plain : w.Plain) {schema type label : Value} {isArray : Bool}
    {n : String} {e : Fault}
    (run : exec (makeField (call.dispatch depth) schema (.str n) type (.bool isArray) label) w
      = (.error e, w')) : w.Resembles w' := by
  unfold makeField at run
  dsimp only at run
  split at run
  · exact resembles_of_refused plain _ run
  · split at run
    · cases run
    · cases run
    · exact resembles_of_refused plain _ run

/-! ## Fields -/

/-- A field that cannot be compiled is not made: what was read only had to be worded. -/
theorem resembles_of_compileField_error (plain : w.Plain) (unshared : w.sharedParts = []) {r : Nat}
    (served : (w.schema s).registry = .registry r) {name spec : Value} {e : Fault}
    (run : exec (compileField (call.dispatch depth) s name spec) w = (.error e, w')) :
    w.Resembles w' := by
  rcases exec_compileField_eq_error plain unshared served run with
    rfl | ⟨n, unread⟩ | ⟨n, type, isArray, label, unmade⟩
  · exact (along_idle_shown _).out w plain
  · have idle := (idles_readSpec plain served call depth n spec).1
    rwa [unread] at idle
  · exact resembles_of_makeField_error plain unmade

/-- To compile a field marks no schema, and a field that is made is a new one. -/
theorem marking_compileField (orderly : w.Orderly) (inside : s < w.schemas.size)
    {name spec : Value} {result : Except Fault Nat}
    (run : exec (compileField (call.dispatch depth) s name spec) w = (result, w')) :
    w.Marking [] w' := by
  obtain ⟨r, served⟩ := orderly.served s inside
  rcases result with e | id
  · exact orderly.marking_of_resembles
      (resembles_of_compileField_error orderly.plain orderly.unshared served run)
  · obtain ⟨n, read, held, -, -, -, -, -, rfl⟩ :=
      (exec_compileField_eq_ok orderly.plain orderly.unshared served).mp run
    exact orderly.marking_pushField rfl

/-- By induction on the template: the fields are those of a schema that was added, and a fault ends
the compilation. -/
theorem marking_compileFields (call : Provider) (depth : Nat) {w₀ : World} {marks : List Nat}
    (newer : w₀.schemas.size ≤ s) (entries : List (Value × Value)) :
    ∀ {w : World}, w₀.Marking marks w → s < w.schemas.size →
      w₀.Marking marks (exec (compileFields (call.dispatch depth) s entries) w).2 := by
  induction entries with
  | nil => exact fun marking _ => marking
  | cons entry rest ih =>
    intro w marking inside
    obtain ⟨name, spec⟩ := entry
    rw [compileFields, exec_bind]
    rcases run : exec (compileField (call.dispatch depth) s name spec) w with ⟨e | f, w₁⟩ <;>
      have compiled := marking_compileField marking.orderly inside run <;>
      have whole := marking.append compiled <;> rw [List.append_nil] at whole <;> dsimp only
    · exact whole
    · rw [exec_bind_ok (exec_placeField whole.orderly.plain whole.orderly.unshared ..)]
      refine ih (whole.modifyFields newer _) ?_
      show s < (w₁.schemas.modify s _).size
      rw [Array.size_modify]
      exact Nat.lt_of_lt_of_le inside compiled.size

/-! ## Templates -/

/-- Settings are only read. -/
theorem exec_readSettings_still (arguments : List (String × Value)) (w : World) :
    (exec (readSettings arguments) w).2 = w := by
  unfold readSettings
  dsimp only
  split
  · rfl
  · rw [exec_bind_ok (exec_get w)]
    cases Settings.read w.variableStart w.environment arguments <;> rfl

/-- The shared registry is made and seeded where there is none, for which the settings are read. -/
theorem keeps_sharedRegistry (plain : w.Plain) {result : Except Fault Nat}
    (run : exec (sharedRegistry (call.dispatch (depth + 1))) w = (result, w')) :
    w'.Plain ∧ w.KeepsSchemas w' := by
  unfold sharedRegistry at run
  rw [exec_bind_ok (exec_get w)] at run
  cases shared : w.sharedRegistry with
  | some r =>
    rw [shared] at run
    exact (Prod.mk.inj run).2 ▸ ⟨plain, .refl w⟩
  | none =>
    rw [shared] at run
    dsimp only at run
    have still := exec_readSettings_still [] w
    rw [exec_bind] at run
    rcases read : exec (readSettings []) w with ⟨e | settings, w₁⟩ <;> rw [read] at run still <;>
      obtain rfl : w₁ = w := still <;> dsimp only at run
    · exact (Prod.mk.inj run).2 ▸ ⟨plain, .refl w₁⟩
    · have made : exec newRegistry w₁ = (.ok w₁.registries.size,
          { w₁ with registries := w₁.registries.push ⟨[], [], []⟩ }) := rfl
      have inside : w₁.registries.size < (w₁.registries.push ⟨[], [], []⟩).size := by
        simp
      have empty : ((w₁.registries.push ⟨[], [], []⟩).getD w₁.registries.size default).types
          = [] := by
        simp [Array.getD]
      have plain : World.Plain { w₁ with registries := w₁.registries.push ⟨[], [], []⟩ } :=
        ⟨plain.types, plain.fields, plain.schemas⟩
      obtain ⟨w₂, seeds, seeded, keeps⟩ := seedCatalog_seeded call depth w₁.registries.size plain
        inside empty settings.seedDerivedTypes
      rw [exec_bind_ok made, exec_bind_ok seeds] at run
      obtain rfl := (Prod.mk.inj run).2
      exact ⟨⟨seeded.plain.types, seeded.plain.fields, seeded.plain.schemas⟩,
        keeps.schemas, keeps.fields, keeps.sharedParts⟩

theorem marking_sharedRegistry (orderly : w.Orderly) {result : Except Fault Nat}
    (run : exec (sharedRegistry (call.dispatch (depth + 1))) w = (result, w')) :
    w.Marking [] w' := by
  obtain ⟨plain', keeps⟩ := keeps_sharedRegistry orderly.plain run
  exact orderly.marking_of_keeps plain' keeps

/-- A new schema is over the registry that it is given, its parent's, or the shared one, which only
a schema without a parent can fail to get. -/
theorem marking_registryForSchema (orderly : w.Orderly) (given : Option Nat) {above : Option Nat}
    (exists' : ∀ p, above = some p → p < w.schemas.size) {result : Except Fault Value}
    (run : exec (registryForSchema (call.dispatch (depth + 1)) (objectOrNull .registry given)
      above) w = (result, w')) : w.Marking [] w' ∧ (∃ r, result = .ok (.registry r)) ∨
        w.Marking [] w' ∧ above = none ∧ ∃ e, result = .error e := by
  cases given with
  | some r =>
    obtain ⟨rfl, rfl⟩ := Prod.mk.inj run
    exact .inl ⟨.refl orderly, r, rfl⟩
  | none =>
    cases above with
    | some p =>
      obtain ⟨rfl, rfl⟩ := Prod.mk.inj run
      obtain ⟨r, served⟩ := orderly.served p (exists' p rfl)
      exact .inl ⟨.refl orderly, r, congrArg Except.ok served⟩
    | none =>
      change exec (sharedRegistry (call.dispatch (depth + 1)) >>= fun r =>
        (pure (.registry r) : Action Value)) w = _ at run
      rw [exec_bind] at run
      rcases shared : exec (sharedRegistry (call.dispatch (depth + 1))) w with ⟨e | r, w₁⟩ <;>
        rw [shared] at run <;> obtain ⟨rfl, rfl⟩ := Prod.mk.inj run
      · exact .inr ⟨marking_sharedRegistry orderly shared, rfl, e, rfl⟩
      · exact .inl ⟨marking_sharedRegistry orderly shared, r, rfl⟩

/-- A schema that is made is not marked, but what it extends is. -/
theorem exec_makeSchema_of_registry (orderly : w.Orderly) (d : Dispatch) (collectionName : Value)
    (r : Nat) {above : Option Nat} (exists' : ∀ p, above = some p → p < w.schemas.size) :
    ∃ w', exec (makeSchema d collectionName (objectOrNull .schema above) (.registry r)) w
      = (.ok w.schemas.size, w') ∧ w.Marking above.toList w' ∧
        w.schemas.size < w'.schemas.size := by
  have added := orderly.marking_push ⟨.registry r, collectionName, above, [], false, [], []⟩
    rfl rfl rfl
  have newer : w.schemas.size
      < (w.schemas.push ⟨.registry r, collectionName, above, [], false, [], []⟩).size := by
    simp
  cases above with
  | none => exact ⟨_, rfl, added, newer⟩
  | some p =>
    have inside := Nat.lt_trans (exists' p rfl) newer
    refine ⟨_, rfl, added.append (added.orderly.marking_withChildren inside), ?_⟩
    exact Nat.lt_of_lt_of_eq newer Array.size_modify.symm

instance along_idle_logCompiled : Along World.Idle (logCompiled (call.dispatch depth) s) := by
  unfold logCompiled
  refine Along.andThen fun given => Along.andThen fun name => ?_
  refine Along.andThen fun names => Along.andThen fun fields => Along.andThen fun w => ?_
  split <;> infer_instance

end Compile

/-- A call that compiles a template, on a registry if one is given. -/
structure CompileCall where
  template : Value
  collectionName : Value
  parent : Value
  registry : Option Nat

namespace CompileCall

/-- Perform the call. -/
def perform (d : Dispatch) (c : CompileCall) : Action Nat :=
  compileSchema d c.template c.collectionName c.parent (objectOrNull .registry c.registry)

/-- A schema that is to be extended exists. -/
def Possible (w : World) (c : CompileCall) : Prop := ∀ p, c.parent = .schema p → p < w.schemas.size

/-- A mapping is to be compiled on top of a schema. -/
def Extends (w : World) (c : CompileCall) (s : Nat) : Prop :=
  (w.mapping? c.template).isSome = true ∧ c.parent = .schema s

/-- The schemas that a call marks. -/
def marks (w : World) (c : CompileCall) : List Nat :=
  match w.mapping? c.template, c.parent with
  | some _, .schema p => [p]
  | _, _ => []

theorem mem_marks {w : World} {c : CompileCall} {s : Nat} : s ∈ c.marks w ↔ c.Extends w s := by
  unfold marks Extends
  cases w.mapping? c.template <;> cases c.parent <;> simp [eq_comm]

variable {call : Provider} {depth : Nat} {w : World}

/-- **One call.** It marks the schema that a mapping is to be compiled on top of, however it
ends. -/
theorem marking_perform (call : Provider) (depth : Nat) (orderly : w.Orderly) {c : CompileCall}
    (possible : c.Possible w) :
    w.Marking (c.marks w) (exec (c.perform (call.dispatch (depth + 1))) w).2 := by
  obtain ⟨template, collectionName, parent, given⟩ := c
  unfold perform compileSchema marks
  dsimp only
  rw [exec_bind_ok (exec_mappingOf? template w)]
  cases w.mapping? template with
  | none => exact orderly.marking_of_idle _
  | some entries =>
    by_cases schema : ∃ above, parent = objectOrNull .schema above
    · obtain ⟨above, rfl⟩ := schema
      have marks : (match some entries, objectOrNull .schema above with
          | some _, .schema p => [p]
          | _, _ => []) = above.toList := by
        cases above <;> rfl
      rw [marks]
      have exists' : ∀ p, above = some p → p < w.schemas.size := fun p same =>
        possible p (by rw [same]; rfl)
      rcases found : exec (registryForSchema (call.dispatch (depth + 1))
        (objectOrNull .registry given) above) w with ⟨result, w₀⟩
      rcases marking_registryForSchema orderly given exists' found
        with ⟨marking₀, r, rfl⟩ | ⟨marking₀, rfl, e, rfl⟩
      · obtain ⟨w₁, made, marking₁, inside⟩ := exec_makeSchema_of_registry marking₀.orderly
          (call.dispatch (depth + 1)) collectionName r fun p same =>
            Nat.lt_of_lt_of_le (exists' p same) marking₀.size
        -- The schema marks its parent when it is made; nothing that comes after marks another one.
        have fields := marking_compileFields call (depth + 1) marking₀.size entries
          (marking₀.append marking₁) inside
        rw [exec_bind_ok ((exec_makeSchema_of_ok found _).trans made), exec_bind]
        rcases compiled : exec (compileFields (call.dispatch (depth + 1)) w₀.schemas.size entries)
          w₁ with ⟨e | _, w₂⟩ <;> rw [compiled] at fields
        · exact fields
        · have logged := fields.append (fields.orderly.marking_of_idle (do
            logCompiled (call.dispatch (depth + 1)) w₀.schemas.size
            return w₀.schemas.size))
          rwa [List.append_nil] at logged
      · rw [exec_bind_error (exec_makeSchema_of_error found _)]
        exact marking₀
    · have marks : (match some entries, parent with
          | some _, .schema p => [p]
          | _, _ => []) = [] := by
        cases parent with
        | schema p => exact absurd ⟨some p, rfl⟩ schema
        | _ => rfl
      rw [marks]
      obtain ⟨e, run⟩ := exec_makeSchema_of_not_schema (d := call.dispatch (depth + 1)) (w := w)
        (fun above same => schema ⟨above, same⟩) collectionName (objectOrNull .registry given)
      rw [exec_bind_error run]
      exact orderly.marking_of_idle _

end CompileCall

/-! ## Runs -/

/-- A step that leaves the marks of all schemas as they are. -/
def World.Meanwhile (w w' : World) : Prop :=
  w.Orderly → w'.Orderly ∧ ∀ s, (w'.schema s).hasChildren = (w.schema s).hasChildren

/-- Runs of compilations, failed ones included, in any order. The history has every call, with the
world that it found; between two calls there may be steps that leave the marks as they are. -/
inductive CompileRun (call : Provider) (w₀ : World) :
    List (World × CompileCall) → World → Prop where
  | start : CompileRun call w₀ [] w₀
  | meanwhile {history : List (World × CompileCall)} {w w' : World}
      (run : CompileRun call w₀ history w) (step : w.Meanwhile w') : CompileRun call w₀ history w'
  | compile {history : List (World × CompileCall)} {w : World} (run : CompileRun call w₀ history w)
      (depth : Nat) (c : CompileCall) (possible : c.Possible w) :
      CompileRun call w₀ (history ++ [(w, c)]) (exec (c.perform (call.dispatch (depth + 1))) w).2

section Runs

variable {call : Provider} {w₀ w : World} {history : List (World × CompileCall)}

/-- By induction on the run: each call adds its mark. -/
theorem CompileRun.children (orderly : w₀.Orderly) (run : CompileRun call w₀ history w) :
    w.Orderly ∧ ∀ s, (w.schema s).hasChildren = true ↔
      (w₀.schema s).hasChildren = true ∨ ∃ e ∈ history, e.2.Extends e.1 s := by
  induction run with
  | start => exact ⟨orderly, fun s => by simp⟩
  | meanwhile _ step ih =>
    obtain ⟨orderly', kept⟩ := step ih.1
    exact ⟨orderly', fun s => by rw [kept, ih.2]⟩
  | @compile history w _ depth c possible ih =>
    have marking := CompileCall.marking_perform call depth ih.1 possible
    refine ⟨marking.orderly, fun s => ?_⟩
    rw [marking.children, Bool.or_eq_true, ih.2, List.contains_iff_mem, CompileCall.mem_marks,
      or_assoc]
    simp [or_and_right, exists_or]

/-- A schema says whether it is marked. -/
theorem World.Plain.exec_hasChildren (plain : w.Plain) (call : Provider) (depth s : Nat) :
    exec ((call.dispatch (depth + 1)).member (.schema s) "has_children") w
      = (.ok (.bool (w.schema s).hasChildren), w) := by
  have flag : w.childrenFlag s = .bool (w.schema s).hasChildren := by
    rw [World.childrenFlag, plain.schemas]
    rfl
  rw [← flag]
  rfl

/-- **Marks tell of attempts.** After any run of compilations a schema says that it has children
exactly when it said so before, or some call was to compile a mapping on top of it, whether or not
that call returned. A call that fails changes nothing of the schemas and fields that there are, but
for the lists that schemas keep, and for the mark of the schema on top of which it was to compile a
mapping. -/
theorem children_of_attempts (orderly : w₀.Orderly) (run : CompileRun call w₀ history w) :
    (∀ s depth, ∃ b, exec ((call.dispatch (depth + 1)).member (.schema s) "has_children") w
        = (.ok (.bool b), w) ∧
      (b = true ↔ (w₀.schema s).hasChildren = true ∨ ∃ e ∈ history, e.2.Extends e.1 s)) ∧
    ∀ depth (c : CompileCall) e w', c.Possible w →
      exec (c.perform (call.dispatch (depth + 1))) w = (.error e, w') →
      (∀ f < w.fields.size, w'.field f = w.field f) ∧
      ∀ s < w.schemas.size, { w'.schema s with
          fieldLists := (w.schema s).fieldLists, hasChildren := (w.schema s).hasChildren }
            = w.schema s ∧
        ((w'.schema s).hasChildren = true ↔ (w.schema s).hasChildren = true ∨ c.Extends w s) := by
  obtain ⟨orderly', children⟩ := run.children orderly
  refine ⟨fun s depth => ⟨_, orderly'.plain.exec_hasChildren call depth s, children s⟩, ?_⟩
  intro depth c e w' possible failed
  have marking := CompileCall.marking_perform call depth orderly' possible
  rw [failed] at marking
  refine ⟨marking.nodes.field, fun s inside => ⟨marking.schema s inside, ?_⟩⟩
  rw [marking.children, Bool.or_eq_true, List.contains_iff_mem, CompileCall.mem_marks]

end Runs

/-- A schema without fields, and one on top of it that has a field of an unknown type. -/
def attempts : CompileCall × CompileCall :=
  (⟨.ofFields [], .null, .null, some 0⟩, ⟨.ofFields [("x", .str "T")], .null, .schema 0, some 0⟩)

/-- The second schema cannot be compiled, but the first one has children from then on. -/
theorem children_of_attempts_unknown :
    let d := spawning.dispatch 3
    let w₀ := World.withRegistry
    let w₁ := (exec (attempts.1.perform d) w₀).2
    let w₂ := (exec (attempts.2.perform d) w₁).2
    w₀.Orderly ∧ CompileRun spawning w₀ [(w₀, attempts.1), (w₁, attempts.2)] w₂ ∧
    attempts.2.Possible w₁ ∧
    (∃ e, exec (attempts.2.perform d) w₁ = (.error e, w₂) ∧ (w₂.schema 0).hasChildren = true) ∧
    exec (d.member (.schema 0) "has_children") w₁ = (.ok (.bool false), w₁) ∧
    exec (d.member (.schema 0) "has_children") w₂ = (.ok (.bool true), w₂) := by
  intro d w₀ w₁ w₂
  have orderly : w₀.Orderly :=
    ⟨.of_no_objects rfl rfl rfl, rfl, fun s inside => absurd inside (Nat.not_lt_zero s)⟩
  have possible₁ : attempts.1.Possible w₀ := nofun
  have possible₂ : attempts.2.Possible w₁ := by
    intro p same
    obtain rfl : p = 0 := (Value.schema.inj same).symm
    decide +kernel
  have run₁ : CompileRun spawning w₀ [(w₀, attempts.1)] w₁ :=
    .compile .start 2 attempts.1 possible₁
  have run₂ : CompileRun spawning w₀ [(w₀, attempts.1), (w₁, attempts.2)] w₂ :=
    .compile run₁ 2 attempts.2 possible₂
  have fails : (exec (attempts.2.perform d) w₁).1.isOk = false := by
    decide +kernel
  have extends₂ : attempts.2.Extends w₁ 0 := ⟨rfl, rfl⟩
  have inside : 0 < w₁.schemas.size := possible₂ 0 rfl
  obtain ⟨first, failed⟩ := children_of_attempts orderly run₁
  refine ⟨orderly, run₂, possible₂, ?_, ?_, ?_⟩
  · rcases run : exec (attempts.2.perform d) w₁ with ⟨e | s, w'⟩
    · obtain rfl : w₂ = w' := congrArg Prod.snd run
      obtain ⟨-, marked⟩ := (failed 2 attempts.2 e w₂ possible₂ run).2 0 inside
      exact ⟨e, rfl, marked.mpr (.inr extends₂)⟩
    · rw [run] at fails
      cases fails
  · obtain ⟨b, read, told⟩ := first 0 2
    have unmarked : ¬b = true := by
      rw [told]
      rintro (before | ⟨e, earlier, -, extends₁⟩)
      · cases before
      · obtain rfl := List.mem_singleton.mp earlier
        cases extends₁
    rw [Bool.eq_false_iff.mpr unmarked] at read
    exact read
  · obtain ⟨b, read, told⟩ := (children_of_attempts orderly run₂).1 0 2
    have marked : b = true :=
      told.mpr (.inr ⟨(w₁, attempts.2), List.mem_cons_of_mem _ List.mem_cons_self, extends₂⟩)
    rw [marked] at read
    exact read

end DataShape
