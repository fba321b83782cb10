import DataShape.Proofs.Registry.Journal
import DataShape.Proofs.Registry.Visit
import DataShape.Proofs.Schema.Children
import DataShape.Proofs.Schema.Fingerprint
import DataShape.Proofs.Schema.Spelling
import DataShape.Proofs.Schema.Traversal

/-! # Compiling what was compiled

The fields of a schema spell a template. It compiles to a schema with fields of the same data, and
both have the same fingerprint.

* `FieldNode.Compiled` — what all compiled fields have; `compiled_of_compileSchema`.
* `World.respelled` — the template that the fields of a schema spell.
* `exec_compileFields_respelled` — its fields compile.
* `exec_describeSchema_of_nodes` — a description is told by the data of the fields.
* `World.AlikeSchemas`, `compileSchema_spellings` — schemas of the same data; all spellings. -/

namespace DataShape

/-! ## Compiled fields -/

/-- What all compiled fields have: a name, and attributes that repeat no key and have none of those
that a specification has for itself. -/
structure FieldNode.Compiled (f : FieldNode) : Prop where
  named : f.name.isEmpty = false
  distinct : Table.Distinct f.attributes
  free : ∀ k ∈ Table.keys f.attributes, k.isIn reservedKeys = false

section Compiled

variable {d : Dispatch} {w w' : World} {s : Nat}

/-- The attributes that are read from a specification have none of its own keys. -/
theorem free_of_readSpec {field : String} {spec : Value} {read : FieldSpec}
    (run : exec (readSpec d s field spec) w = (.ok read, w')) :
    ∀ k ∈ Table.keys read.attributes, k.isIn reservedKeys = false := by
  obtain ⟨reference, -, ⟨-, none⟩ | ⟨entries, -, -, others⟩⟩ := readSpec_eq_ok run
  · rw [none]
    exact fun k there => absurd there List.not_mem_nil
  · rw [others]
    intro k there
    obtain ⟨e, inside, rfl⟩ := List.mem_map.mp there
    simpa using (List.mem_filter.mp inside).2

theorem compiled_of_compileField (building : w.Building s) {name spec : Value} {id : Nat}
    (run : exec (compileField d s name spec) w = (.ok id, w')) : (w'.field id).Compiled := by
  obtain ⟨r, served⟩ := building.served
  obtain ⟨n, read, held, -, named, first, -, rfl, rfl⟩ :=
    (exec_compileField_eq_ok building.sound.plain building.sound.unshared served).mp run
  rw [World.field_push, if_pos rfl]
  refine ⟨named, Table.distinct_nil.update _, fun k there => ?_⟩
  rcases Table.of_mem_keys_update there with none | given
  · cases none
  · exact free_of_readSpec first k given

/-- All own fields are compiled ones, by induction on the template. -/
theorem compiled_of_compileFields {w₀ : World} (entries : Entries) :
    ∀ {w w' : World}, w₀.Adds w s → exec (compileFields d s entries) w = (.ok ⟨⟩, w') →
      (∀ f, .field f ∈ (w.schema s).fields.values → (w.field f).Compiled) →
      ∀ f, .field f ∈ (w'.schema s).fields.values → (w'.field f).Compiled := by
  induction entries with
  | nil =>
    intro w w' adds run before
    obtain ⟨-, rfl⟩ := exec_pure_eq_ok.mp run
    exact before
  | cons entry rest ih =>
    intro w w' adds run before
    obtain ⟨name, spec⟩ := entry
    rw [compileFields] at run
    obtain ⟨id, w₁, field, run⟩ := exec_bind_eq_ok.mp run
    obtain ⟨⟨n, rfl, inside, named⟩, building₁, nodes, schemas⟩ :=
      building_compileField adds.building field
    have compiled := compiled_of_compileField adds.building field
    rw [exec_bind_ok (exec_placeField building₁.sound.plain building₁.sound.unshared ..)] at run
    refine ih ((adds.compiled building₁ nodes schemas).placed inside named) run fun f there => ?_
    rw [World.schema_modifySchema, if_pos ⟨rfl, building₁.inside⟩] at there
    obtain ⟨e, member, value⟩ := List.mem_map.mp there
    rcases Table.of_mem_insert member with old | ⟨new, -⟩
    · have same : w₁.schema s = w.schema s := by rw [World.schema, schemas]; rfl
      rw [same] at old
      obtain ⟨g, older, rfl⟩ := adds.building.sound.fields s e old
      obtain rfl : g = f := Value.field.inj value
      show (w₁.field g).Compiled
      rw [nodes.field g older]
      exact before g (List.mem_map.mpr ⟨_, old, rfl⟩)
    · obtain rfl : id = f := Value.field.inj (new.symm.trans value)
      exact compiled

end Compiled

/-! ## The template that fields spell -/

/-- The own fields of a schema, in their order. -/
def World.ownIds (w : World) (s : Nat) : List Nat :=
  (w.schema s).fields.values.filterMap Value.field?

/-- What the own fields of a schema have. -/
def World.ownNodes (w : World) (s : Nat) : List FieldNode := (w.ownIds s).map w.field

/-- The own fields of a sound schema are fields under their names. -/
theorem World.SoundSchemas.fields_eq {w : World} (sound : w.SoundSchemas) (s : Nat) :
    (w.schema s).fields = (w.ownIds s).map fun f => (.str (w.field f).name, .field f) := by
  have fields := sound.fields s
  unfold World.ownIds
  generalize (w.schema s).fields = table at fields
  induction table with
  | nil => rfl
  | cons e rest ih =>
    obtain ⟨⟨f, -, rfl⟩, others⟩ := List.forall_mem_cons.mp fields
    exact congrArg (_ :: ·) (ih others)

theorem World.SoundSchemas.values_eq {w : World} (sound : w.SoundSchemas) (s : Nat) :
    (w.schema s).fields.values = (w.ownIds s).map .field := by
  conv_lhs => rw [sound.fields_eq]
  exact List.map_map

theorem World.SoundSchemas.keys_eq {w : World} (sound : w.SoundSchemas) (s : Nat) :
    (w.schema s).fields.keys = ((w.ownNodes s).map FieldNode.name).map .str := by
  conv_lhs => rw [sound.fields_eq]
  rw [World.ownNodes, List.map_map, List.map_map]
  exact List.map_map

theorem World.mem_ownIds {w : World} {s f : Nat} :
    f ∈ w.ownIds s ↔ .field f ∈ (w.schema s).fields.values := by
  rw [World.ownIds, List.mem_filterMap]
  constructor
  · rintro ⟨v, there, same⟩
    cases v with
    | field id => exact Option.some.inj same ▸ there
    | _ => cases same
  · exact fun there => ⟨_, there, rfl⟩

/-- The specification that a field spells: its type and its label, then its attributes; for an array
in a list. -/
def FieldNode.respelled (f : FieldNode) : Value :=
  let spec := Value.freshDict (Table.update
    [(.str "type", f.type.toValue), (.str "label", f.shownLabel)] f.attributes)
  if f.isArray then .fresh [spec] else spec

/-- The template that the own fields of a schema spell. -/
def World.respelled (w : World) (s : Nat) : Value :=
  .freshDict ((w.ownNodes s).map fun f => (.str f.name, f.respelled))

/-- A field of the same data that is made for another schema, with the label that is shown. -/
def FieldNode.recompiled (f : FieldNode) (s : Nat) : FieldNode :=
  ⟨.schema s, f.name, f.type, f.isArray, f.shownLabel, f.attributes, []⟩

theorem FieldNode.own_shownLabel {f : FieldNode} (own : f.label.isEngineContainer = false) :
    f.shownLabel.isEngineContainer = false := by
  unfold FieldNode.shownLabel
  split
  · exact own
  · rfl

theorem FieldNode.shownLabel_recompiled (f : FieldNode) (s : Nat) :
    (f.recompiled s).shownLabel = f.shownLabel := by
  unfold FieldNode.shownLabel FieldNode.recompiled
  split
  · rfl
  · next empty =>
    dsimp only at empty ⊢
    unfold FieldNode.shownLabel at empty
    split at empty
    · next given => exact absurd given empty
    · next none =>
      rw [if_neg none]

namespace FieldNode.Compiled

variable {f : FieldNode} (h : f.Compiled)

include h

theorem ne_reserved {k : Value} (there : k ∈ Table.keys f.attributes) :
    k.text? ≠ some "type" ∧ k.text? ≠ some "label" := by
  have free := h.free k there
  constructor <;>
  · intro text
    rw [Value.eq_str_of_text? text] at free
    cases free

/-- The entries of the specification that a field spells. -/
theorem respelled_entries :
    Table.update [(.str "type", f.type.toValue), (.str "label", f.shownLabel)] f.attributes
      = [(.str "type", f.type.toValue), (.str "label", f.shownLabel)] ++ f.attributes := by
  refine Table.update_eq_append
    (List.pairwise_cons.mpr ⟨?_, List.pairwise_cons.mpr ⟨?_, h.distinct⟩⟩)
  · intro k there
    rcases List.mem_cons.mp there with rfl | own
    · rfl
    · rw [Value.text_beq, decide_eq_false_iff_not]
      exact (h.ne_reserved own).1
  · intro k own
    rw [Value.text_beq, decide_eq_false_iff_not]
    exact (h.ne_reserved own).2

/-- The specification is read as what the field has. -/
theorem exec_readSpec (d : Dispatch) (w : World) (s : Nat) (field : String) :
    exec (readSpec d s field f.respelled) w
      = (.ok ⟨f.type.toValue, f.isArray, f.shownLabel, f.attributes⟩, w) := by
  have kept : f.attributes.filter (fun e => !e.1.isIn reservedKeys) = f.attributes :=
    List.filter_eq_self.mpr fun e there => by
      rw [h.free e.1 (List.mem_map.mpr ⟨e, there, rfl⟩), Bool.not_false]
  have plain : ∀ isArray, exec (readPlainSpec d s field isArray (.freshDict
      ([(.str "type", f.type.toValue), (.str "label", f.shownLabel)] ++ f.attributes))) w
        = (.ok ⟨f.type.toValue, isArray, f.shownLabel, f.attributes⟩, w) := by
    intro isArray
    have type : Table.get? ([(.str "type", f.type.toValue), (.str "label", f.shownLabel)]
        ++ f.attributes : Entries) (.str "type") = some f.type.toValue := rfl
    have label : Table.get? ([(.str "type", f.type.toValue), (.str "label", f.shownLabel)]
        ++ f.attributes : Entries) (.str "label") = some f.shownLabel := rfl
    have own : ([(.str "type", f.type.toValue), (.str "label", f.shownLabel)]
        ++ f.attributes : Entries).filter (fun e => !e.1.isIn reservedKeys) = f.attributes := kept
    have resolved : resolveReference d s field f.type.toValue = pure f.type.toValue := by
      cases f.type <;> rfl
    unfold readPlainSpec
    rw [exec_bind_ok (exec_mappingOf? _ w)]
    simp only [World.mapping?, Value.freshDict, type, label, own, resolved, pure_bind]
    rfl
  unfold FieldNode.respelled
  rw [h.respelled_entries]
  cases f.isArray
  · exact plain false
  · exact plain true

end FieldNode.Compiled

section Recompile

variable {d : Dispatch} {w : World} {s : Nat}

/-- The specification that a compiled field spells is compiled to a field of the same data. -/
theorem exec_compileField_respelled (building : w.Building s) {f : FieldNode} (h : f.Compiled) :
    exec (compileField d s (.str f.name) f.respelled) w
      = (.ok w.fields.size, { w with fields := w.fields.push (f.recompiled s) }) := by
  have attributes : Table.ofEntries f.attributes = f.attributes :=
    @Table.update_eq_append _ _ _ [] f.attributes h.distinct
  rw [exec_compileField_of_read building.sound.plain building.sound.unshared h.named
    (h.exec_readSpec d w s f.name) rfl, FieldSpec.node, attributes]
  rfl

/-- The fields that compiled fields spell are compiled one after the other, and put behind those
that there are. By induction on the fields. -/
theorem exec_compileFields_respelled {w₀ : World} (nodes : List FieldNode) :
    ∀ {w : World}, w₀.Adds w s → (∀ f ∈ nodes, f.Compiled) → (nodes.map FieldNode.name).Nodup →
      (∀ f ∈ nodes, Table.get? (w.schema s).fields (.str f.name) = none) →
      ∃ w' own, exec (compileFields d s (nodes.map fun f => (.str f.name, f.respelled))) w
          = (.ok ⟨⟩, w') ∧ w.KeepsNodes w' ∧
        (∀ i, (w'.schema i).collectionName = (w.schema i).collectionName) ∧
        (w'.schema s).fields = (w.schema s).fields ++ own ∧
        List.Forall₂ (fun f e => ∃ id, e = (.str f.name, .field id) ∧
          w'.field id = f.recompiled s) nodes own := by
  induction nodes with
  | nil =>
    intro w adds _ _ _
    exact ⟨w, [], rfl, .of_fields rfl, fun _ => rfl, (List.append_nil _).symm, .nil⟩
  | cons f rest ih =>
    intro w adds compiled distinct fresh
    have field := @exec_compileField_respelled d w s adds.building f
      (compiled f List.mem_cons_self)
    have here := w.field_push (f.recompiled s) w.fields.size
    rw [if_pos rfl] at here
    generalize { w with fields := w.fields.push (f.recompiled s) } = w₁ at field here
    obtain ⟨⟨n, name, inside, named⟩, building₁, nodes₁, schemas⟩ :=
      building_compileField adds.building field
    obtain rfl := Value.str.inj name
    have same : ∀ i, w₁.schema i = w.schema i := fun i => by rw [World.schema, schemas]; rfl
    have adds₂ := (adds.compiled building₁ nodes₁ schemas).placed inside named
    have put : (w₁.schema s).fields.insert (.str f.name) (.field w.fields.size)
        = (w.schema s).fields ++ [(.str f.name, .field w.fields.size)] := by
      rw [same, Table.insert_of_get?_eq_none (fresh f List.mem_cons_self)]
    rw [put] at adds₂
    have fields₂ : ((w₁.modifySchema s fun n => { n with
        fields := (w.schema s).fields ++ [(.str f.name, .field w.fields.size)] }).schema s).fields
          = (w.schema s).fields ++ [(.str f.name, .field w.fields.size)] := by
      rw [World.schema_modifySchema, if_pos ⟨rfl, building₁.inside⟩]
    rw [List.map_cons, List.nodup_cons] at distinct
    obtain ⟨w', own, run, nodes', names', fields', news⟩ := ih adds₂
      (fun g there => compiled g (List.mem_cons_of_mem _ there)) distinct.2 fun g there => by
        have apart : f.name ≠ g.name := fun same =>
          distinct.1 (List.mem_map.mpr ⟨g, there, same.symm⟩)
        rw [fields₂, Table.get?_append, fresh g (List.mem_cons_of_mem _ there), Option.none_or,
          Table.get?_cons, Value.beq_str, if_neg (by simpa using apart), Table.get?_nil]
    refine ⟨w', (.str f.name, .field w.fields.size) :: own, ?_, ?_, fun i => ?_, ?_,
      .cons ⟨_, rfl, ?_⟩ news⟩
    · rw [List.map_cons, compileFields, exec_bind_ok field,
        exec_bind_ok (exec_placeField building₁.sound.plain building₁.sound.unshared ..), put]
      exact run
    · exact nodes₁.trans ⟨nodes'.size, nodes'.field⟩
    · exact (names' i).trans ((World.part_modifySchema SchemaNode.collectionName
        (by exact fun _ => rfl) w₁ s i).trans (congrArg _ (same i)))
    · rw [fields', fields₂, List.append_assoc]
      rfl
    · exact (nodes'.field _ inside).trans here

end Recompile

/-! ## Descriptions that fields tell -/

theorem describeNode_recompiled (d : Dispatch) (f : FieldNode) (s : Nat) :
    describeNode d (f.recompiled s) = describeNode d f := by
  rw [describeNode, describeNode, FieldNode.shownLabel_recompiled]
  rfl

/-- So fields that are compiled anew are described as the old ones. -/
theorem mapM_describeNode_recompiled (d : Dispatch) (nodes : List FieldNode) (s : Nat) :
    (nodes.map (·.recompiled s)).mapM (describeNode d) = nodes.mapM (describeNode d) := by
  induction nodes with
  | nil => rfl
  | cons f rest ih =>
    rw [List.map_cons, List.mapM_cons, List.mapM_cons, describeNode_recompiled, ih]

section Description

variable {call : Provider} {depth : Nat} {w : World}

instance along_idle_heldName (held : FieldType) :
    Along World.Idle (nameOf (call.dispatch depth) held.toValue) := by
  cases held with
  | type t =>
    rw [FieldType.toValue, nameOf]
    infer_instance
  | schema s => exact along_idle_schemaName s

/-- What idle steps leave is as plain, and has the same fields. -/
theorem World.Plain.after_idle {α : Type} {a : Action α} [along : Along World.Idle a] {x : α}
    {w' : World} (plain : w.Plain) (run : exec a w = (.ok x, w')) : w'.Plain ∧ w.Resembles w' := by
  have idle := along.out w plain
  rw [run] at idle
  exact ⟨idle.plain plain, idle⟩

/-- A field is described as its data tells. Names and attributes are worded on the way, which does
not change any field. -/
theorem World.Plain.exec_describeField (plain : w.Plain) {f : Nat}
    (own : (w.field f).label.isEngineContainer = false) :
    exec (describeField (call.dispatch depth) f) w
      = exec (describeNode (call.dispatch depth) (w.field f)) w := by
  refine exec_describeField_of_node _ rfl (plain.fields f) own fun held w₁ named => ?_
  obtain ⟨plain₁, near₁⟩ := plain.after_idle named
  refine ⟨near₁.field f, fun written w₂ read => ?_⟩
  obtain ⟨-, near₂⟩ := plain₁.after_idle read
  exact (near₂.field f).trans (near₁.field f)

instance along_idle_describeNode (f : FieldNode) :
    Along World.Idle (describeNode (call.dispatch depth) f) := by
  unfold describeNode
  refine Along.andThen fun held => ?_
  dsimp only
  split
  · infer_instance
  · exact Along.andThen fun written => inferInstance

/-- By induction on the fields: none of them is changed while the ones before it are described. -/
theorem exec_describeMembers_of_nodes (fs : List Nat)
    (own : ∀ f ∈ fs, (w.field f).label.isEngineContainer = false) :
    ∀ {u : World}, u.Plain → w.Resembles u →
      exec ((fs.map Value.field).mapM (describeMember (call.dispatch depth))) u
        = exec ((fs.map w.field).mapM (describeNode (call.dispatch depth))) u := by
  induction fs with
  | nil => exact fun _ _ => rfl
  | cons f rest ih =>
    intro u plain near
    rw [List.map_cons, List.map_cons, List.mapM_cons, List.mapM_cons]
    refine exec_bind_congr ?_ fun x u₁ described => ?_
    · show exec (orStandIn _ (.field f) "to_dict" [] pure (describeField _ f)) u = _
      rw [plain.exec_orStandIn, ← near.field f]
      exact plain.exec_describeField (near.field f ▸ own f List.mem_cons_self)
    · obtain ⟨plain₁, near₁⟩ := plain.after_idle described
      exact exec_bind_congr (ih (fun g there => own g (List.mem_cons_of_mem _ there)) plain₁
        (near.trans near₁)) fun _ _ _ => rfl

/-- A schema is described as its names and the data of its own fields tell. -/
theorem exec_describeSchema_of_nodes (sound : w.SoundSchemas) {s : Nat}
    (own : ∀ f ∈ w.ownNodes s, f.label.isEngineContainer = false) :
    exec (describeSchema (call.dispatch depth) s) w = exec (do
      let parent ← parentName? (call.dispatch depth) s
      let fields ← (w.ownNodes s).mapM (describeNode (call.dispatch depth))
      return .ofFields ((SchemaSummary.mk (w.schema s).collectionName (parent.getD .null)
        []).entries fields)) w := by
  unfold describeSchema
  rw [exec_bind_ok (exec_get w)]
  refine exec_bind_congr rfl fun parent w₁ named => ?_
  obtain ⟨plain₁, near⟩ := sound.plain.after_idle named
  have fields := near.schemaFields s
  rw [exec_bind_ok (exec_ownFields_of_bare _ (plain₁.storedOn _)), fields, sound.values_eq]
  refine exec_bind_congr (exec_describeMembers_of_nodes _ (fun f there => ?_) plain₁ near)
    fun _ _ _ => rfl
  exact own _ (List.mem_map.mpr ⟨f, there, rfl⟩)

end Description

/-! ## Recording a compilation -/

/-- A schema has no name, or a text as its name. -/
def SchemaNode.IsNamed (s : SchemaNode) : Prop :=
  s.collectionName = .null ∨ ∃ name, s.collectionName = .str name

section Record

variable {w : World} {s : Nat}

theorem exec_schemaName_of_isNamed (d : Dispatch) (named : (w.schema s).IsNamed) :
    ∃ name, exec (schemaName d s) w = (.ok (.str name), w) := by
  rcases named with none | ⟨name, given⟩
  · have run := exec_schemaName_of_isTree (w := w) d (s := s) (by rw [none]; rfl)
    rw [SchemaNode.shownName, none] at run
    exact ⟨_, run⟩
  · have run := exec_schemaName_of_isTree (w := w) d (s := s) (by rw [given]; rfl)
    rw [SchemaNode.shownName, given] at run
    split at run <;> exact ⟨_, run⟩

/-- A compilation can be recorded, which changes nothing of any schema or field but the lists that
schemas keep. -/
theorem exec_logCompiled (d : Dispatch) (sound : w.SoundSchemas) (named : (w.schema s).IsNamed)
    (parent : ∀ p, (w.schema s).parent = some p → (w.schema p).IsNamed) :
    ∃ w', exec (logCompiled d s) w = (.ok ⟨⟩, w') ∧ w'.SoundSchemas ∧ w.Resembles w' := by
  obtain ⟨name, called⟩ := exec_schemaName_of_isNamed d named
  obtain ⟨w₁, listed, ⟨relisted, sound₁, -⟩⟩ := sound.exec_allFieldNames d s
  obtain ⟨fields, shown⟩ := exec_shown_texts d (w.declared s) (sound.declared_texts s)
  have recorded : ∀ text, ∃ w', exec (writeLog .compiler .debug text) w₁ = (.ok ⟨⟩, w') ∧
      w'.SoundSchemas ∧ w.Resembles w' := fun text => by
    obtain ⟨l, run⟩ := exec_writeLog .compiler .debug text w₁
    have logged : w₁.Develops { w₁ with log := l } := Frame.log w₁ l
    exact ⟨_, run, (logged sound₁).1, (World.Resembles.of_relisted relisted).logged l⟩
  have text : ∀ (n : String) u, exec (textOf d (.str n)) u = (.ok n, u) := fun _ _ => rfl
  unfold logCompiled
  rw [exec_bind_ok called, exec_bind_ok (text name w), exec_bind_ok listed, exec_bind_ok (shown w₁),
    exec_bind_ok (exec_get w₁), relisted.schemaParent]
  cases above : (w.schema s).parent with
  | none => exact recorded _
  | some p =>
    have near := World.Resembles.of_relisted relisted
    have named₁ : (w₁.schema p).IsNamed := by
      rw [SchemaNode.IsNamed, near.collectionName]
      exact parent p above
    obtain ⟨origin, called₁⟩ := exec_schemaName_of_isNamed d named₁
    dsimp only
    rw [exec_bind_ok called₁, exec_bind_ok (text origin w₁), exec_bind_ok (exec_pure _ w₁)]
    exact recorded _

end Record

/-! ## Schemas that were compiled -/

section Compiled

variable {call : Provider} {depth : Nat} {w w' : World} {s : Nat}

/-- A new schema is over a registry, and to find that changes no schema. -/
theorem World.SoundSchemas.after_registryForSchema (sound : w.SoundSchemas) (given : Option Nat)
    {above : Option Nat} (exists' : ∀ p, above = some p → p < w.schemas.size) {home : Value}
    (run : exec (registryForSchema (call.dispatch (depth + 1)) (objectOrNull .registry given)
      above) w = (.ok home, w')) :
    (∃ r, home = .registry r) ∧ w'.SoundSchemas ∧ w'.schemas = w.schemas := by
  cases given with
  | some r =>
    obtain ⟨rfl, rfl⟩ := exec_pure_eq_ok.mp run
    exact ⟨⟨r, rfl⟩, sound, rfl⟩
  | none =>
    cases above with
    | some p =>
      obtain ⟨⟨⟩, rfl⟩ := Prod.mk.inj run
      exact ⟨sound.served p (exists' p rfl), sound, rfl⟩
    | none =>
      change exec (DataShape.sharedRegistry (call.dispatch (depth + 1)) >>= fun r =>
        (pure (.registry r) : Action Value)) w = _ at run
      obtain ⟨r, w₁, shared, run⟩ := exec_bind_eq_ok.mp run
      obtain ⟨rfl, rfl⟩ := exec_pure_eq_ok.mp run
      obtain ⟨plain, keeps⟩ := keeps_sharedRegistry sound.plain shared
      have schema : ∀ i, w₁.schema i = w.schema i := fun i => by
        rw [World.schema, keeps.schemas]
        rfl
      refine ⟨⟨r, rfl⟩, ?_, keeps.schemas⟩
      exact sound.of_kept plain (World.KeepsNodes.of_fields keeps.fields).names
        (keeps.sharedParts.trans sound.unshared) (by rw [keeps.schemas]) (fun i => by rw [schema])
        (fun i => by rw [schema]) (fun i => by rw [schema]) fun i => by rw [schema]

/-- All own fields of a schema that was compiled are compiled ones, under distinct names. -/
theorem compiled_of_compileSchema (sound : w.SoundSchemas) {template collectionName : Value}
    {given above : Option Nat} (exists' : ∀ p, above = some p → p < w.schemas.size)
    (run : exec (compileSchema (call.dispatch (depth + 1)) template collectionName
      (objectOrNull .schema above) (objectOrNull .registry given)) w = (.ok s, w')) :
    (w'.schema s).fields.keys.Nodup ∧
      ∀ f, .field f ∈ (w'.schema s).fields.values → (w'.field f).Compiled := by
  obtain ⟨entries, w₁, w₂, mapped, made, compiled, logged⟩ := exec_compileSchema_eq_ok.mp run
  rcases found : exec (registryForSchema (call.dispatch (depth + 1)) (objectOrNull .registry given)
    above) w with ⟨e | home, w₀⟩
  · cases made.symm.trans (exec_makeSchema_of_error found collectionName)
  obtain ⟨⟨r, rfl⟩, sound₀, same⟩ := sound.after_registryForSchema given exists' found
  obtain ⟨u, made', adds, -, fields, -⟩ := adds_makeSchema (call.dispatch (depth + 1)) sound₀
    collectionName r above fun p here => by rw [same]; exact exists' p here
  rw [exec_makeSchema_of_ok found, made'] at made
  obtain ⟨⟨⟩, rfl⟩ := Prod.mk.inj made
  obtain ⟨adds₂, texts, -, keys⟩ := adds_of_compileFields entries adds compiled
  have nodes := compiled_of_compileFields entries adds compiled fun f there => by
    rw [fields] at there
    cases there
  -- The record of the compilation leaves the fields as they are.
  obtain ⟨-, near⟩ := adds₂.building.sound.plain.after_idle logged
  rw [near.schemaFields]
  refine ⟨?_, fun f there => ?_⟩
  · rw [keys, fields]
    exact AllTexts.nodup_mergeNames nofun texts List.nodup_nil
  · rw [near.field]
    exact nodes f there

end Compiled

/-! ## Compiling what fields spell -/

namespace World

variable {d : Dispatch} {w w' : World} {s t : Nat}

/-- The own fields of a schema are as they were. -/
structure KeepsOwn (w w' : World) (s : Nat) : Prop where
  fields : (w'.schema s).fields = (w.schema s).fields
  field : ∀ f, .field f ∈ (w.schema s).fields.values → w'.field f = w.field f

theorem KeepsOwn.ownNodes (kept : w.KeepsOwn w' s) : w'.ownNodes s = w.ownNodes s := by
  unfold World.ownNodes ownIds
  rw [kept.fields]
  exact List.map_congr_left fun f there => kept.field f (mem_ownIds.mp there)

/-- Two fields have the same data: the same name, the same object as their type, the same flag,
label and attributes. -/
structure SameField (d : Dispatch) (w : World) (f g : Nat) : Prop where
  name : (w.field f).name = (w.field g).name
  type : (w.field f).type = (w.field g).type
  isArray : (w.field f).isArray = (w.field g).isArray
  label : ∃ label, exec (fieldLabel d f) w = (.ok label, w) ∧
    exec (fieldLabel d g) w = (.ok label, w)
  attributes : (w.field f).attributes = (w.field g).attributes

/-- A field that is made of another one has the same data. -/
theorem Plain.sameField (plain : w.Plain) (d : Dispatch) {f g : Nat}
    (own : (w.field f).label.isEngineContainer = false)
    (made : w.field g = (w.field f).recompiled t) : w.SameField d f g := by
  have own' : (w.field g).label.isEngineContainer = false := by
    rw [made]
    exact FieldNode.own_shownLabel own
  have told := exec_fieldLabel_of_bare d (plain.fields f) own
  have told' := exec_fieldLabel_of_bare d (plain.fields g) own'
  rw [made, FieldNode.shownLabel_recompiled] at told'
  exact {
    name := by rw [made, FieldNode.recompiled]
    type := by rw [made, FieldNode.recompiled]
    isArray := by rw [made, FieldNode.recompiled]
    label := ⟨_, told, told'⟩
    attributes := by rw [made, FieldNode.recompiled] }

/-- Two schemas are alike: they have the same name, parent and list of fields, own fields of the
same data under the same names, and the same fingerprint, if any. -/
structure AlikeSchemas (d : Dispatch) (w : World) (s t : Nat) : Prop where
  collectionName : (w.schema s).collectionName = (w.schema t).collectionName
  parent : (w.schema s).parent = (w.schema t).parent
  names : ∃ names, w.Lists (allFieldNames d s) names ∧ w.Lists (allFieldNames d t) names
  fields : List.Forall₂ (fun e e' => e.1 = e'.1 ∧
    ∃ f g, e.2 = .field f ∧ e'.2 = .field g ∧ w.SameField d f g) (w.schema s).fields
    (w.schema t).fields
  fingerprint : exec (DataShape.fingerprint d s) w = exec (DataShape.fingerprint d t) w

/-- A schema is compiled anew from another one: its fields are made of those of the other. -/
structure Recompiled (w : World) (s t : Nat) : Prop where
  collectionName : (w.schema s).collectionName = (w.schema t).collectionName
  parent : (w.schema s).parent = (w.schema t).parent
  fields : List.Forall₂ (fun f e => ∃ g, e = (.str (w.field f).name, .field g) ∧
    w.field g = (w.field f).recompiled t) (w.ownIds s) (w.schema t).fields

namespace Recompiled

variable (h : w.Recompiled s t)

include h

theorem ownNodes : w.ownNodes t = (w.ownNodes s).map (·.recompiled t) := by
  have fields := h.fields
  unfold World.ownNodes
  rw [ownIds.eq_1 w t]
  generalize (w.schema t).fields = table at fields
  generalize w.ownIds s = fs at fields
  induction fields with
  | nil => rfl
  | cons first _ ih =>
    obtain ⟨g, rfl, made⟩ := first
    exact congrArg₂ List.cons made ih

/-- Both declare the same names. -/
theorem declared (sound : w.SoundSchemas) : w.declared t = w.declared s := by
  have keys : (w.schema t).fields.keys = (w.schema s).fields.keys := by
    rw [sound.keys_eq, sound.keys_eq, h.ownNodes, List.map_map, List.map_map, List.map_map]
    rfl
  rw [declared_eq sound.older t, declared_eq sound.older s, keys, h.parent]

/-- They are described alike, so they have the same fingerprint. -/
theorem exec_fingerprint {call : Provider} {depth : Nat} (sound : w.SoundSchemas)
    (own : ∀ f ∈ w.ownNodes s, f.label.isEngineContainer = false) :
    exec (fingerprint (call.dispatch depth) s) w
      = exec (fingerprint (call.dispatch depth) t) w := by
  have own' : ∀ f ∈ w.ownNodes t, f.label.isEngineContainer = false := by
    rw [h.ownNodes]
    intro f there
    obtain ⟨g, old, rfl⟩ := List.mem_map.mp there
    exact FieldNode.own_shownLabel (own g old)
  unfold DataShape.fingerprint
  refine exec_bind_congr ?_ fun _ _ _ => rfl
  rw [sound.plain.exec_orStandIn, sound.plain.exec_orStandIn,
    exec_describeSchema_of_nodes sound own, exec_describeSchema_of_nodes sound own', h.ownNodes,
    mapM_describeNode_recompiled, h.collectionName]
  refine exec_bind_congr ?_ fun _ _ _ => rfl
  unfold parentName?
  rw [exec_bind_ok (exec_get w), exec_bind_ok (exec_get w), sound.plain.parentOf,
    sound.plain.parentOf, h.parent]

/-- They are alike. -/
theorem alike {call : Provider} {depth : Nat} (sound : w.SoundSchemas)
    (own : ∀ f ∈ w.ownNodes s, f.label.isEngineContainer = false) :
    w.AlikeSchemas (call.dispatch depth) s t where
  collectionName := h.collectionName
  parent := h.parent
  names := ⟨_, sound.exec_allFieldNames _ s, h.declared sound ▸ sound.exec_allFieldNames _ t⟩
  fields := by
    rw [sound.fields_eq s, List.forall₂_map_left_iff]
    have own : ∀ f ∈ w.ownIds s, (w.field f).label.isEngineContainer = false :=
      fun f there => own _ (List.mem_map.mpr ⟨f, there, rfl⟩)
    refine ((List.forall₂_and_left ..).mpr ⟨own, h.fields⟩).imp ?_
    rintro f _ ⟨label, g, rfl, made⟩
    exact ⟨rfl, f, g, rfl, rfl, sound.plain.sameField _ label made⟩
  fingerprint := h.exec_fingerprint sound own

end Recompiled

end World

/-- The template that compiled fields spell is compiled to a schema of the same fields. -/
theorem exec_compileSchema_respelled (d : Dispatch) {w : World} {s : Nat} (sound : w.SoundSchemas)
    (inside : s < w.schemas.size) (compiled : ∀ f ∈ w.ownNodes s, f.Compiled)
    (distinct : (w.schema s).fields.keys.Nodup) (named : (w.schema s).IsNamed)
    (parent : ∀ p, (w.schema s).parent = some p → (w.schema p).IsNamed) :
    ∃ t w', exec (compileSchema d (w.respelled s) (w.schema s).collectionName
        (objectOrNull .schema (w.schema s).parent) (w.schema s).registry) w = (.ok t, w') ∧
      w'.SoundSchemas ∧ w.KeepsOwn w' s ∧ w'.Recompiled s t := by
  obtain ⟨r, home⟩ := sound.served s inside
  have older := fun p here => Nat.lt_trans (sound.older s p here) inside
  obtain ⟨w₁, made, adds₁, parent₁, fields₁, names₁⟩ :=
    adds_makeSchema d sound (w.schema s).collectionName r (w.schema s).parent older
  rw [sound.keys_eq] at distinct
  obtain ⟨w₂, own, fields, -, names₂, fields₂, nodes₂⟩ := @exec_compileFields_respelled d _ w
    (w.ownNodes s) w₁ adds₁ compiled (List.Nodup.of_map _ distinct) fun f _ => by rw [fields₁]; rfl
  obtain ⟨adds₂, -, parent₂, -⟩ := adds_of_compileFields _ adds₁ fields
  rw [fields₁, List.nil_append] at fields₂
  have names : ∀ i, (w₂.schema i).collectionName = if i = w.schemas.size
      then (w.schema s).collectionName else (w.schema i).collectionName :=
    fun i => (names₂ i).trans (names₁ i)
  have named₂ : ∀ i < w.schemas.size, (w₂.schema i).collectionName = (w.schema i).collectionName :=
    fun i below => by rw [names, if_neg (Nat.ne_of_lt below)]
  have name₂ : (w₂.schema w.schemas.size).collectionName = (w.schema s).collectionName := by
    rw [names, if_pos rfl]
  have sound₂ := adds₂.building.sound
  obtain ⟨w', logged, sound', near⟩ := exec_logCompiled d sound₂
    (s := w.schemas.size) (by rw [SchemaNode.IsNamed, name₂]; exact named) fun p above => by
      rw [parent₂, parent₁] at above
      rw [SchemaNode.IsNamed, named₂ p (older p above)]
      exact parent p above
  have kept : w.KeepsOwn w' s := by
    refine ⟨(near.schemaFields s).trans (adds₂.fields s inside), fun f there => ?_⟩
    obtain ⟨e, member, value⟩ := List.mem_map.mp there
    obtain ⟨g, exists', rfl⟩ := sound.fields s e member
    obtain rfl : g = f := Value.field.inj value
    rw [near.field, adds₂.nodes.field g exists']
  refine ⟨_, w', exec_compileSchema_eq_ok.mpr ⟨_, w₁, w₂, rfl, by rw [home]; exact made, fields,
    logged⟩, sound', kept, ?_, ?_, ?_⟩
  · rw [near.collectionName, near.collectionName, name₂, named₂ s inside]
  · rw [near.schemaParent, near.schemaParent, parent₂, parent₁, adds₂.parent s inside]
  · rw [near.schemaFields, fields₂]
    rw [← kept.ownNodes, World.ownNodes, List.forall₂_map_left_iff] at nodes₂
    refine nodes₂.imp ?_
    rintro f e ⟨g, rfl, made⟩
    exact ⟨g, rfl, (near.field g).trans made⟩

/-! ## Spellings of templates -/

/-- A schema was compiled at some time, and its fields were not modified since then. -/
inductive World.WasCompiled (call : Provider) (w : World) (s : Nat) : Prop where
  | since {w₀ w₁ : World} {depth : Nat} {template collectionName : Value} {given above : Option Nat}
      (sound₀ : w₀.SoundSchemas) (exists' : ∀ p, above = some p → p < w₀.schemas.size)
      (compiled : exec (compileSchema (call.dispatch (depth + 1)) template collectionName
        (objectOrNull .schema above) (objectOrNull .registry given)) w₀ = (.ok s, w₁))
      (sound : w.SoundSchemas) (inside : s < w.schemas.size) (kept : w₁.KeepsOwn w s)

/-- The names of a schema and of its parent are texts, if there are any, and no label of a field is
a container of the engine, which can be empty at one time and not at another. -/
structure World.Titled (w : World) (s : Nat) : Prop where
  named : (w.schema s).IsNamed
  parent : ∀ p, (w.schema s).parent = some p → (w.schema p).IsNamed
  labels : ∀ f ∈ w.ownNodes s, f.label.isEngineContainer = false

/-- **All spellings of a template mean the same.** A template compiles as it does with all its
specifications written out: with the same schema in the same world, or with the same fault. And the
template that the fields of a compiled schema spell compiles, with the same name, parent and
registry, to a schema that is alike; the fields stay as they are. -/
theorem compileSchema_spellings :
    (∀ (d : Dispatch) (w : World) (template collectionName parent registry : Value),
      exec (compileSchema d (w.expanded template) collectionName parent registry) w
        = exec (compileSchema d template collectionName parent registry) w) ∧
    ∀ (call : Provider) (depth : Nat) (w : World) (s : Nat), w.WasCompiled call s → w.Titled s →
      ∃ t w', exec (compileSchema (call.dispatch depth) (w.respelled s) (w.schema s).collectionName
          (objectOrNull .schema (w.schema s).parent) (w.schema s).registry) w = (.ok t, w') ∧
        w.KeepsOwn w' s ∧ w'.AlikeSchemas (call.dispatch depth) s t := by
  refine ⟨fun d w template collectionName parent registry =>
    exec_compileSchema_expanded d w template collectionName parent registry, ?_⟩
  intro call depth w s ⟨sound₀, exists', compiled, sound, inside, kept₁⟩ titled
  obtain ⟨distinct, nodes⟩ := compiled_of_compileSchema sound₀ exists' compiled
  have compiled' : ∀ f ∈ w.ownNodes s, f.Compiled := by
    intro f there
    obtain ⟨id, own, rfl⟩ := List.mem_map.mp there
    rw [World.mem_ownIds, kept₁.fields] at own
    rw [kept₁.field id own]
    exact nodes id own
  obtain ⟨t, w', run, sound', kept, recompiled⟩ := exec_compileSchema_respelled
    (call.dispatch depth) sound inside compiled' (kept₁.fields ▸ distinct) titled.named
    titled.parent
  exact ⟨t, w', run, kept, recompiled.alike sound' (kept.ownNodes ▸ titled.labels)⟩

/-- A schema without fields, and one with two fields that hold it: in the second, a list of records,
with an attribute and a label that counts as nothing. -/
def spelledCalls : List CompileCall :=
  [⟨.ofFields [], .null, .null, some 0⟩,
    ⟨.ofFields [("a", .schema 0),
      ("b", .fresh [.ofFields [("k", .int 1), ("label", .str ""), ("type", .schema 0)]])],
      .str "S", .null, some 0⟩]

/-- The worlds after the first call and after both. -/
def World.beforeSpelled : World :=
  (exec (spelledCalls[0].perform (answering.dispatch 3)) .withRegistry).2

def World.afterSpelled : World :=
  (exec (spelledCalls[1].perform (answering.dispatch 3)) .beforeSpelled).2

/-- The fields of the second schema spell its template with their labels, and it compiles again. -/
theorem compileSchema_spellings_nested :
    World.beforeSpelled.expanded spelledCalls[1].template
      = .ofFields [("a", .ofFields [("type", .schema 0)]),
        ("b", .fresh [.ofFields [("k", .int 1), ("label", .str ""), ("type", .schema 0)]])] ∧
    exec (compileSchema (answering.dispatch 3)
        (World.beforeSpelled.expanded spelledCalls[1].template) (.str "S") .null (.registry 0))
      .beforeSpelled = (.ok 1, .afterSpelled) ∧
    World.afterSpelled.respelled 1
      = .ofFields [("a", .ofFields [("type", .schema 0), ("label", .str "A")]),
        ("b", .fresh [.ofFields [("type", .schema 0), ("label", .str "B"), ("k", .int 1)]])] ∧
    World.afterSpelled.WasCompiled answering 1 ∧ World.afterSpelled.Titled 1 ∧
    ∃ t w', exec (compileSchema (answering.dispatch 3) (World.afterSpelled.respelled 1) (.str "S")
        .null (.registry 0)) .afterSpelled = (.ok t, w') ∧
      World.afterSpelled.KeepsOwn w' 1 ∧ w'.AlikeSchemas (answering.dispatch 3) 1 t := by
  have user : answering.Within World.Persists := answering_within
  have start : World.withRegistry.NoObjects := ⟨rfl, rfl, rfl, rfl⟩
  have run₁ : CompositionRun answering .withRegistry .beforeSpelled :=
    .compile .start 2 spelledCalls[0] nofun fun entries mapped e there => by
      obtain rfl := Option.some.inj mapped
      cases there
  have run : CompositionRun answering .withRegistry .afterSpelled := by
    refine .compile run₁ 2 spelledCalls[1] nofun fun entries mapped e there => ?_
    have old : 0 < (spelledCalls[1].opening (answering.dispatch 3)
        .beforeSpelled).schemas.size := by
      decide +kernel
    obtain rfl := Option.some.inj mapped
    rcases there with _ | ⟨_, _ | ⟨_, ⟨⟩⟩⟩
    · exact .of_schema rfl old
    · exact .of_dict rfl fun t type => Value.schema.inj (Option.some.inj type) ▸ old
  have first : (exec (spelledCalls[1].perform (answering.dispatch 3)) .beforeSpelled).1
      = .ok 1 := by rfl
  have made : exec (spelledCalls[1].perform (answering.dispatch 3)) .beforeSpelled
      = (.ok 1, .afterSpelled) := Prod.ext first rfl
  have inside : 1 < World.afterSpelled.schemas.size := by decide +kernel
  have compiled : World.afterSpelled.WasCompiled answering 1 :=
    @World.WasCompiled.since _ _ _ _ _ 2 spelledCalls[1].template (.str "S") (some 0) none
      (run₁.sound user start) nofun made (run.sound user start) inside ⟨rfl, fun _ _ => rfl⟩
  have own : World.afterSpelled.ownNodes 1 = [⟨.schema 1, "a", .schema 0, false, .null, [], []⟩,
    ⟨.schema 1, "b", .schema 0, true, .str "", [(.str "k", .int 1)], []⟩] := by rfl
  have name : (World.afterSpelled.schema 1).collectionName = .str "S" := by rfl
  have parent : (World.afterSpelled.schema 1).parent = none := by rfl
  have registry : (World.afterSpelled.schema 1).registry = .registry 0 := by rfl
  have titled : World.afterSpelled.Titled 1 := by
    refine ⟨.inr ⟨"S", name⟩, fun p above => ?_, fun f there => ?_⟩
    · rw [parent] at above
      cases above
    · rw [own] at there
      rcases there with _ | ⟨_, _ | ⟨_, ⟨⟩⟩⟩ <;> rfl
  obtain ⟨expanded, recompiled⟩ := compileSchema_spellings
  obtain ⟨t, w', run', kept, alike⟩ := recompiled answering 3 .afterSpelled 1 compiled titled
  rw [name, parent, registry] at run'
  refine ⟨by rfl, (expanded ..).trans made, ?_, compiled, titled, t, w', run', kept, alike⟩
  rw [World.respelled, own]
  rfl

end DataShape
