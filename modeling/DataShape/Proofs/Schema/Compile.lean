import DataShape.Proofs.Registry.Soundness
import DataShape.Proofs.Schema.Lookup
import DataShape.Proofs.Schema.Within
import DataShape.Schema.Compile

/-! # Compiling develops schemas

To compile a template is to add a schema and then, one after the other, its fields. While this goes
on the schema is the newest one and keeps no list, so nothing depends on its fields. On the way from
one field to the next no function of a provider is called; a fault that has to be worded ends the
compilation.

* `Developing` — the relations that types, registries and compilations follow; to develop schemas is
  one of them.
* `World.Building`, `World.Adds` — the state of a compilation, and what it has added.
* `building_compileField` — one field.
* `adds_of_compileFields` — all fields, with the names of the template in their order.
* `follows_compileSchema` — the whole template. -/

namespace DataShape

namespace World

/-! ## What a compilation adds -/

/-- Fields are only added: the ones that exist stay as they are. -/
structure KeepsNodes (w w' : World) : Prop where
  size : w.fields.size ≤ w'.fields.size
  field : ∀ f < w.fields.size, w'.field f = w.field f

theorem KeepsNodes.of_fields {w w' : World} (h : w'.fields = w.fields) : w.KeepsNodes w' := by
  refine ⟨Nat.le_of_eq (by rw [h]), fun f _ => ?_⟩
  rw [World.field, h]
  rfl

theorem KeepsNodes.trans {u v w : World} (first : u.KeepsNodes v) (second : v.KeepsNodes w) :
    u.KeepsNodes w where
  size := Nat.le_trans first.size second.size
  field f h := (second.field f (Nat.lt_of_lt_of_le h first.size)).trans (first.field f h)

/-- A field that is added. -/
theorem KeepsNodes.push (w : World) (node : FieldNode) :
    w.KeepsNodes { w with fields := w.fields.push node } := by
  refine ⟨?_, fun f h => ?_⟩
  · show w.fields.size ≤ (w.fields.push node).size
    rw [Array.size_push]
    exact Nat.le_succ _
  · rw [field_push, if_neg (Nat.ne_of_lt h)]

theorem KeepsNodes.names {w w' : World} (h : w.KeepsNodes w') : w.KeepsNames w' :=
  ⟨h.size, fun f inside => by rw [h.field f inside]⟩

/-- The newest schema is being compiled and keeps no list yet. -/
structure Building (w : World) (s : Nat) : Prop where
  sound : w.SoundSchemas
  newest : w.schemas.size = s + 1
  bare : (w.schema s).fieldLists = []

theorem Building.inside {w : World} {s : Nat} (building : w.Building s) : s < w.schemas.size := by
  rw [building.newest]
  exact Nat.lt_succ_self s

theorem Building.served {w : World} {s : Nat} (building : w.Building s) :
    ∃ r, (w.schema s).registry = .registry r := building.sound.served s building.inside

/-- A schema is being compiled that was not there before, and nothing that was there before is
changed but the mark of a schema that is extended. -/
structure Adds (w w' : World) (s : Nat) : Prop where
  building : w'.Building s
  fresh : s = w.schemas.size
  nodes : w.KeepsNodes w'
  parent : ∀ i < s, (w'.schema i).parent = (w.schema i).parent
  fields : ∀ i < s, (w'.schema i).fields = (w.schema i).fields
  lists : ∀ i < s, (w'.schema i).fieldLists = (w.schema i).fieldLists

theorem Adds.extends {w w' : World} {s : Nat} (adds : w.Adds w' s) : w.Extends w' where
  names := adds.nodes.names
  size := by
    rw [adds.building.newest, adds.fresh]
    exact Nat.le_succ _
  parent i inside := adds.parent i (by rwa [adds.fresh])
  fields i inside := adds.fields i (by rwa [adds.fresh])

end World

/-! ## Relations that follow how schemas develop -/

/-- A relation that matters for worlds with sound schemas only, and that follows steps which leave
schemas and the fields that exist as they are, and compilations. -/
class Developing (R : World → World → Prop) : Prop extends Frame R where
  assuming : ∀ {w w' : World}, (w.SoundSchemas → R w w') → R w w'
  apart : ∀ {w w' : World}, (w.Plain → w'.Plain) →
    (w.sharedParts = [] → w'.sharedParts = [] ∧ w.KeepsNodes w' ∧ w'.schemas = w.schemas) → R w w'
  added : ∀ {w w' : World} {s : Nat}, w.SoundSchemas → w.Adds w' s → R w w'

instance World.Develops.developing : Developing World.Develops where
  assuming h sound := h sound sound
  apart plain apart := World.develops_of_kept plain fun unshared =>
    ⟨(apart unshared).1, (apart unshared).2.1.names, (apart unshared).2.2⟩
  added _ adds _ := ⟨adds.building.sound, adds.extends⟩

instance Developing.furnishing {R : World → World → Prop} [Developing R] : Furnishing R where
  furnished h := Developing.apart h.untouched.plain fun unshared =>
    ⟨(h.apart unshared).1, .of_fields (h.apart unshared).2.1, (h.apart unshared).2.2⟩

namespace World

/-- New attributes of a field develop schemas. -/
theorem develops_changeField (w : World) (id : Nat) (change : Entries → Entries) :
    w.Develops (w.changePart (.fieldAttributes id) change) := by
  intro sound
  rw [changePart_of_unshared sound.unshared]
  refine develops_of_kept (fun plain => ?_) (fun h => ⟨h, ?_, rfl⟩) sound
  · exact (w.untouched_withPartEntries _ _).plain plain
  · exact .modifyField w id fun _ => rfl

end World

section Develops

set_option synthInstance.maxSize 1000

variable {d : Dispatch} [d.Within World.Develops]

instance along_setFieldAttribute_develops (id : Nat) (key value : Value) :
    Along World.Develops (setFieldAttribute id key value) := by
  have : Along World.Develops (modify fun w => w.changePart (.fieldAttributes id) fun own =>
      Table.insert own key value : Action PUnit) :=
    ⟨fun w => w.develops_changeField id fun own => Table.insert own key value⟩
  unfold setFieldAttribute
  infer_instance

instance along_mergeFieldAttributes_develops (id : Nat) (attributes : Value) :
    Along World.Develops (mergeFieldAttributes d id attributes) := by
  have added : ∀ entries : Entries, Along World.Develops (modify fun w =>
      w.changePart (.fieldAttributes id) fun own => Table.update own entries : Action PUnit) :=
    fun entries => ⟨fun w => w.develops_changeField id fun own => Table.update own entries⟩
  unfold mergeFieldAttributes addFieldAttributes
  refine Along.andThen fun held => ?_
  split
  · infer_instance
  · refine Along.andThen fun entries => ?_
    split <;> infer_instance

end Develops

/-! ## Types -/

section Types

set_option synthInstance.maxSize 1000

variable {R : World → World → Prop} [Developing R]

theorem along_newType {node : TypeNode} (h : node.stored = []) : Along R (newType node) := by
  refine ⟨fun w => Developing.apart (fun plain => ⟨fun i => ?_, plain.fields, plain.schemas⟩)
    fun unshared => ⟨unshared, .of_fields rfl, rfl⟩⟩
  show ((w.types.push node).getD i default).stored = []
  rw [getD_push]
  split
  · exact h
  · exact plain.types i

variable {d : Dispatch} [d.Within R]

instance along_makeType (name attributes : Value) (base : Option Nat) :
    Along R (makeType d name attributes (base.elim .null .type)) := by
  have made : ∀ (s : String) (entries : Entries), Along R (newType ⟨s, base, entries, [], []⟩) :=
    fun _ _ => along_newType rfl
  cases text : name.text? with
  | none =>
    rw [makeType_of_not_text text]
    infer_instance
  | some s =>
    obtain rfl : name = .str s := by cases name <;> simp_all [Value.text?]
    cases named : s.isEmpty with
    | true =>
      rw [String.isEmpty_iff.mp named, makeType_of_empty]
      infer_instance
    | false =>
      have mapped : ∀ entries : Option Entries, Along R (match entries with
          | some entries => newType ⟨s, base, Table.update [] entries, [], []⟩
          | none => do throw (.definition (.attributesNotMapping s (← shown d attributes)))) := by
        intro entries
        split <;> infer_instance
      rw [makeType_of_name named]
      infer_instance

instance along_createType (registry : Nat) (base : Option Nat) (definition : TypeDefinition) :
    Along R (createType d registry base definition) := by
  have registered : ∀ (name : String) (id : Nat), Along R (modify fun w =>
      w.modifyRegistry registry fun r => { r with types := r.types.insert name id } :
      Action PUnit) := fun name id =>
    ⟨fun w => Developing.apart (fun plain => ⟨plain.types, plain.fields, plain.schemas⟩)
      fun unshared => ⟨unshared, .of_fields rfl, rfl⟩⟩
  unfold createType
  cases base <;> infer_instance

instance along_defineType (registry : Nat) (definition : TypeDefinition) :
    Along R (defineType d registry definition) := by
  have defined : ∀ base : Option Nat, Along R (do
      let id ← match ← findType? registry definition.name with
        | some id => do extendType d id base definition; pure id
        | none => createType d registry base definition
      installMarshaller d id "to_string" definition.toText
      installMarshaller d id "from_string" definition.fromText
      return id) := by
    intro base
    refine Along.andThen fun found => ?_
    split <;> infer_instance
  unfold defineType
  infer_instance

end Types

/-! ## Specifications -/

section Specification

variable {d : Dispatch} {w w' : World} {s r : Nat}

/-- A name that a registry has is found there, and any other one ends in a fault. -/
theorem world_of_typeRequired {name field : String} {type : Value}
    (run : exec (typeRequired d (.registry r) name field) w = (.ok type, w')) : w' = w := by
  unfold typeRequired requireType at run
  obtain ⟨id, w₁, found, run⟩ := exec_bind_eq_ok.mp run
  obtain ⟨-, rfl⟩ := exec_pure_eq_ok.mp run
  obtain ⟨looked, w₂, first, rest⟩ := exec_bind_eq_ok.mp found
  cases looked with
  | some id =>
    obtain ⟨rfl, -⟩ := registered_of_findType? first
    exact (exec_pure_eq_ok.mp rest).2.symm
  | none => simp [typeNotFound, exec_bind_eq_ok] at rest

/-- A specification that is not in a list is a reference, or a mapping that has one as its type and
attributes beside it; the reference is resolved. -/
theorem readPlainSpec_eq_ok {field : String} {isArray : Bool} {spec : Value} {read : FieldSpec}
    (run : exec (readPlainSpec d s field isArray spec) w = (.ok read, w')) :
    ∃ reference, exec (resolveReference d s field reference) w = (.ok read.type, w') ∧
      (reference = spec ∧ read.attributes = [] ∨ ∃ entries, w.mapping? spec = some entries ∧
        Table.get? entries (.str "type") = some reference ∧
        read.attributes = entries.filter fun e => !e.1.isIn reservedKeys) := by
  unfold readPlainSpec at run
  rw [exec_bind_ok (exec_mappingOf? spec w)] at run
  split at run
  · next entries mapped =>
    split at run
    · simp at run
    · next reference found =>
      obtain ⟨type, w₁, resolved, run⟩ := exec_bind_eq_ok.mp run
      obtain ⟨rfl, rfl⟩ := exec_pure_eq_ok.mp run
      exact ⟨reference, resolved, .inr ⟨entries, mapped, found, rfl⟩⟩
  · obtain ⟨type, w₁, resolved, run⟩ := exec_bind_eq_ok.mp run
    obtain ⟨rfl, rfl⟩ := exec_pure_eq_ok.mp run
    exact ⟨spec, resolved, .inl ⟨rfl, rfl⟩⟩

/-- A specification without the list around it. -/
def Value.unlisted (spec : Value) : Value :=
  match spec.sequence? with
  | some [item] => item
  | _ => spec

/-- So it is with one that may be alone in a list. -/
theorem readSpec_eq_ok {field : String} {spec : Value} {read : FieldSpec}
    (run : exec (readSpec d s field spec) w = (.ok read, w')) :
    ∃ reference, exec (resolveReference d s field reference) w = (.ok read.type, w') ∧
      (reference = spec.unlisted ∧ read.attributes = [] ∨
        ∃ entries, w.mapping? spec.unlisted = some entries ∧
          Table.get? entries (.str "type") = some reference ∧
          read.attributes = entries.filter fun e => !e.1.isIn reservedKeys) := by
  unfold Value.unlisted
  unfold readSpec at run
  split at run <;> rename_i items <;> rw [items]
  · exact readPlainSpec_eq_ok run
  · simp at run
  · exact readPlainSpec_eq_ok run

variable (served : (w.schema s).registry = .registry r)

include served

theorem world_of_resolveReference {field : String} {reference type : Value}
    (run : exec (resolveReference d s field reference) w = (.ok type, w')) : w' = w := by
  unfold resolveReference at run
  split at run
  · exact (exec_pure_eq_ok.mp run).2.symm
  · exact (exec_pure_eq_ok.mp run).2.symm
  · rw [exec_bind_ok (exec_get w), served] at run
    exact world_of_typeRequired run
  · simp [exec_bind_eq_ok] at run

/-- A specification that can be read is read without any change. -/
theorem world_of_readSpec {field : String} {spec : Value} {read : FieldSpec}
    (run : exec (readSpec d s field spec) w = (.ok read, w')) : w' = w := by
  obtain ⟨reference, resolved, -⟩ := readSpec_eq_ok run
  exact world_of_resolveReference served resolved

end Specification

/-! ## A schema that is being compiled -/

namespace World.Building

variable {d : Dispatch} {w w' : World} {s : Nat}

/-- A new field changes nothing for schemas. -/
theorem of_schemas (building : w.Building s) (plain : w'.Plain) (names : w.KeepsNames w')
    (unshared : w'.sharedParts = []) (schemas : w'.schemas = w.schemas) : w'.Building s := by
  have schema : ∀ i, w'.schema i = w.schema i := fun i => by rw [World.schema, schemas]; rfl
  refine ⟨building.sound.of_kept plain names unshared (by rw [schemas]) ?_ ?_ ?_ ?_, ?_, ?_⟩
  · exact fun i => by rw [schema]
  · exact fun i => by rw [schema]
  · exact fun i => by rw [schema]
  · exact fun i => by rw [schema]
  · rw [schemas, building.newest]
  · rw [schema, building.bare]

/-- A world is sound, with a schema that is being compiled, if the older schemas are those of a
sound world and the newest one keeps no list and has what a schema has. -/
theorem of_newest {w w' : World} (sound : w.SoundSchemas) {s : Nat} (plain : w'.Plain)
    (unshared : w'.sharedParts = []) (names : w.KeepsNames w') (size : w'.schemas.size = s + 1)
    (below : ∀ i < s, i < w.schemas.size ∧ w'.schema i = w.schema i)
    (parent : ∀ p, (w'.schema s).parent = some p → p < s)
    (registry : ∃ r, (w'.schema s).registry = .registry r)
    (fields : ∀ e ∈ (w'.schema s).fields,
      ∃ f < w'.fields.size, e = (.str (w'.field f).name, .field f))
    (bare : (w'.schema s).fieldLists = []) : w'.Building s := by
  have above : ∀ i, s < i → w'.schema i = default := fun i h => schema_of_size_le (by omega)
  have older : ∀ i p, (w'.schema i).parent = some p → p < i := by
    intro i p h
    rcases Nat.lt_trichotomy i s with lower | rfl | upper
    · rw [(below i lower).2] at h
      exact sound.older i p h
    · exact parent p h
    · rw [above i upper] at h
      cases h
  -- a schema that keeps a list is older than the one that is being compiled
  have listed : ∀ i names p, (w'.schema i).fieldLists.get? p = some names →
      (w.schema i).fieldLists.get? p = some names ∧ w'.declared i = w.declared i := by
    intro i names p kept
    rcases Nat.lt_trichotomy i s with lower | rfl | upper
    · rw [(below i lower).2] at kept
      refine ⟨kept, declared_congr sound.older older (fun j h => ?_) (fun j h => ?_) i lower⟩
      · rw [(below j h).2]
      · rw [(below j h).2]
    · rw [bare] at kept
      cases kept
    · rw [above i upper] at kept
      cases kept
  refine ⟨⟨plain, unshared, older, ?_, ?_, ?_, ?_⟩, size, bare⟩
  · intro i h
    rcases Nat.lt_or_ge i s with lower | upper
    · rw [(below i lower).2]
      exact sound.served i (below i lower).1
    · obtain rfl : i = s := by omega
      exact registry
  · intro i e h
    rcases Nat.lt_trichotomy i s with lower | rfl | upper
    · rw [(below i lower).2] at h
      exact names.entry (sound.fields i e h)
    · exact fields e h
    · rw [above i upper] at h
      cases h
  · intro i names kept
    obtain ⟨old, same⟩ := listed i names _ kept
    rw [same]
    exact sound.full i names old
  · intro i names kept
    obtain ⟨old, same⟩ := listed i names _ kept
    rw [same]
    exact sound.shown i names old

/-- The entries of a schema to which a field was added under its name are fields under their
names; a text is equal to itself only, so the field is not added under another name. -/
theorem named_of_mem_insert (name : Nat → String) {fields : Table Value Value} {size : Nat}
    (named : ∀ e ∈ fields, ∃ f < size, e = (.str (name f), .field f)) {f : Nat} (inside : f < size)
    {e : Value × Value} (h : e ∈ fields.insert (.str (name f)) (.field f)) :
    ∃ g < size, e = (.str (name g), .field g) := by
  rcases Table.of_mem_insert h with old | ⟨value, key⟩
  · exact named e old
  · have under : e.1 = .str (name f) := by
      rcases key with same | ⟨old, same⟩
      · exact same
      · obtain ⟨other, there, first⟩ := List.mem_map.mp old
        obtain ⟨g, -, rfl⟩ := named other there
        rw [← first, Value.beq_str, beq_iff_eq] at same
        rw [← first, same]
    exact ⟨f, inside, by rw [← under, ← value]⟩

/-- A field that is put among the own fields of the schema under its name. -/
theorem placed (building : w.Building s) {n : String} {f : Nat} (exists' : f < w.fields.size)
    (named : (w.field f).name = n) :
    (w.modifySchema s fun node =>
      { node with fields := Table.insert (w.schema s).fields (.str n) (.field f) }).Building s := by
  have sound := building.sound
  have inside := building.inside
  have schema := w.schema_modifySchema s fun node =>
    { node with fields := Table.insert (w.schema s).fields (.str n) (.field f) }
  have here := schema s
  rw [if_pos ⟨rfl, inside⟩] at here
  refine of_newest sound ?_ sound.unshared (.of_fields rfl) ?_ (fun i h => ?_) ?_ ?_ ?_ ?_
  · exact (w.untouched_modifySchema s (by exact fun _ h => h)).plain sound.plain
  · exact Array.size_modify.trans building.newest
  · rw [schema i, if_neg fun both => Nat.ne_of_gt h both.1]
    exact ⟨Nat.lt_trans h inside, rfl⟩
  · rw [here]
    exact sound.older s
  · rw [here]
    exact sound.served s inside
  · rw [here, ← named]
    exact fun e h => named_of_mem_insert (fun f => (w.field f).name) (sound.fields s) exists' h
  · rw [here]
    exact building.bare

end World.Building

section Compile

set_option synthInstance.maxSize 1000

variable {d : Dispatch} {w w' : World} {s : Nat}

/-- A field that is made is the newest one. It has its name, which is not empty, and what it was
made with, but no attributes yet. -/
theorem world_of_makeField {schema type label : Value} {n : String} {isArray : Bool} {id : Nat}
    (run : exec (makeField d schema (.str n) type (.bool isArray) label) w = (.ok id, w')) :
    ∃ held : FieldType, held.toValue = type ∧ n.isEmpty = false ∧ id = w.fields.size ∧
      w' = { w with fields := w.fields.push ⟨schema, n, held, isArray, label, [], []⟩ } := by
  unfold makeField at run
  dsimp only at run
  split at run
  · simp at run
  · next named =>
    have named := Bool.eq_false_iff.mpr named
    have pushed : ∀ held : FieldType,
        exec (newField ⟨schema, n, held, isArray, label, [], []⟩) w = (.ok id, w') →
        id = w.fields.size ∧
          w' = { w with fields := w.fields.push ⟨schema, n, held, isArray, label, [], []⟩ } := by
      intro held run
      obtain ⟨given, last⟩ := Prod.mk.inj run
      exact ⟨(Except.ok.inj given).symm, last.symm⟩
    split at run
    · exact ⟨_, rfl, named, pushed _ run⟩
    · exact ⟨_, rfl, named, pushed _ run⟩
    · simp [exec_bind_eq_ok] at run

/-- A field is made of what it holds. -/
theorem exec_makeField (schema : Value) {n : String} (named : n.isEmpty = false) (held : FieldType)
    (isArray : Bool) (label : Value) :
    exec (makeField d schema (.str n) held.toValue (.bool isArray) label) w
      = (.ok w.fields.size,
        { w with fields := w.fields.push ⟨schema, n, held, isArray, label, [], []⟩ }) := by
  unfold makeField
  dsimp only
  rw [if_neg (by simp [named])]
  cases held <;> rfl

/-- Attributes are merged into a field that nothing was set on. -/
theorem exec_mergeFieldAttributes (plain : w.Plain) (unshared : w.sharedParts = []) (id : Nat)
    (entries : Entries) :
    exec (mergeFieldAttributes d id (.freshDict entries)) w
      = (.ok ⟨⟩, w.modifyField id fun f =>
          { f with attributes := Table.update (w.field id).attributes entries }) := by
  unfold mergeFieldAttributes
  rw [exec_bind_ok (plain.exec_standIn? _ _)]
  show (Except.ok PUnit.unit, w.changePart (.fieldAttributes id) _) = _
  rw [World.changePart_of_unshared unshared]
  rfl

theorem exec_placeField (plain : w.Plain) (unshared : w.sharedParts = []) (name field : Value) :
    exec (placeField s name field) w
      = (.ok ⟨⟩, w.modifySchema s fun n =>
          { n with fields := Table.insert (w.schema s).fields name field }) := by
  unfold placeField
  rw [exec_bind_ok (plain.exec_standIn? _ _)]
  show (Except.ok PUnit.unit, w.changePart (.schemaFields s) _) = _
  rw [World.changePart_of_unshared unshared]
  rfl

/-- The field that is compiled from a specification that was read. -/
def FieldSpec.node (read : FieldSpec) (s : Nat) (name : String) (held : FieldType) : FieldNode :=
  ⟨.schema s, name, held, read.isArray, read.label, Table.ofEntries read.attributes, []⟩

/-- A change of the field that was added last. -/
theorem World.modifyField_push (w : World) (node : FieldNode) (f : FieldNode → FieldNode) :
    World.modifyField { w with fields := w.fields.push node } w.fields.size f
      = { w with fields := w.fields.push (f node) } := by
  have changed : (w.fields.push node).modify w.fields.size f = w.fields.push (f node) := by
    refine Array.ext (by simp) fun i inside _ => ?_
    rw [Array.getElem_modify inside, Array.getElem_push, Array.getElem_push]
    grind
  rw [World.modifyField, changed]

section Field

variable {r : Nat} (plain : w.Plain) (unshared : w.sharedParts = [])
  (served : (w.schema s).registry = .registry r)

include plain unshared

/-- A specification that can be read, with what a field can hold, is compiled to the next field. -/
theorem exec_compileField_of_read {n : String} (named : n.isEmpty = false) {spec : Value}
    {read : FieldSpec} {held : FieldType} (first : exec (readSpec d s n spec) w = (.ok read, w))
    (type : held.toValue = read.type) :
    exec (compileField d s (.str n) spec) w
      = (.ok w.fields.size, { w with fields := w.fields.push (read.node s n held) }) := by
  have made := @exec_makeField d w (.schema s) n named held read.isArray read.label
  have plain₁ := @World.Plain.pushField w plain
    ⟨.schema s, n, held, read.isArray, read.label, [], []⟩ rfl
  have merged := @exec_mergeFieldAttributes d _ plain₁ unshared w.fields.size read.attributes
  rw [World.field_push, if_pos rfl, World.modifyField_push] at merged
  unfold compileField
  dsimp only
  rw [if_neg (by simp [named]), exec_bind_ok first, ← type, exec_bind_ok made, exec_bind_ok merged]
  rfl

include served

/-- A field is compiled under a text that is not empty, from a specification that can be read; it is
the next one, and nothing else is changed. -/
theorem exec_compileField_eq_ok {name spec : Value} {id : Nat} :
    exec (compileField d s name spec) w = (.ok id, w') ↔
      ∃ n read held, name = .str n ∧ n.isEmpty = false ∧
        exec (readSpec d s n spec) w = (.ok read, w) ∧ held.toValue = read.type ∧
        id = w.fields.size ∧ w' = { w with fields := w.fields.push (read.node s n held) } := by
  constructor
  · intro run
    have whole := run
    unfold compileField at run
    split at run
    · next n =>
      dsimp only at run
      split at run
      · simp at run
      · obtain ⟨read, w₁, first, rest⟩ := exec_bind_eq_ok.mp run
        obtain rfl := world_of_readSpec served first
        obtain ⟨field, w₂, made, -⟩ := exec_bind_eq_ok.mp rest
        obtain ⟨held, type, named, -⟩ := world_of_makeField made
        rw [exec_compileField_of_read plain unshared named first type] at whole
        obtain ⟨given, rfl⟩ := Prod.mk.inj whole
        exact ⟨n, read, held, rfl, named, first, type, (Except.ok.inj given).symm, rfl⟩
    · simp [exec_bind_eq_ok] at run
  · rintro ⟨n, read, held, rfl, named, first, type, rfl, rfl⟩
    exact exec_compileField_of_read plain unshared named first type

/-- A field is not compiled where its name is refused, its specification cannot be read, or no field
can be made of it; attributes can always be merged. -/
theorem exec_compileField_eq_error {name spec : Value} {e : Fault}
    (run : exec (compileField d s name spec) w = (.error e, w')) :
    w' = (exec (shown d name) w).2 ∨ (∃ n, exec (readSpec d s n spec) w = (.error e, w')) ∨
      ∃ n type isArray label,
        exec (makeField d (.schema s) (.str n) type (.bool isArray) label) w = (.error e, w') := by
  have refused : ∀ {β : Type} (rest : β → Action Nat),
      exec (do
        let x ← throw (.definition (.fieldKey (← shown d name)))
        rest x) w = (.error e, w') → w' = (exec (shown d name) w).2 := by
    intro β rest run
    rw [exec_bind] at run
    rcases worded : exec (shown d name) w with ⟨_ | text, u⟩ <;> rw [worded] at run <;>
      exact (Prod.mk.inj run).2.symm
  unfold compileField at run
  split at run
  · next n =>
    dsimp only at run
    split at run
    · exact .inl (refused _ run)
    · rcases exec_bind_eq_error.mp run with unread | ⟨read, w₁, first, rest⟩
      · exact .inr (.inl ⟨n, unread⟩)
      · obtain rfl := world_of_readSpec served first
        rcases exec_bind_eq_error.mp rest with unmade | ⟨field, w₂, made, unmerged⟩
        · exact .inr (.inr ⟨n, _, _, _, unmade⟩)
        · obtain ⟨held, -, -, rfl, rfl⟩ := world_of_makeField made
          rw [exec_bind_ok (exec_mergeFieldAttributes (plain.pushField rfl) unshared ..)]
            at unmerged
          cases unmerged
  · exact .inl (refused pure (by simpa using run))

end Field

/-- A compiled field has its name, which is a text, and its schema goes on being compiled; no field
that was there before is changed. -/
theorem building_compileField (building : w.Building s) {name spec : Value} {id : Nat}
    (run : exec (compileField d s name spec) w = (.ok id, w')) :
    (∃ n, name = .str n ∧ id < w'.fields.size ∧ (w'.field id).name = n) ∧ w'.Building s ∧
      w.KeepsNodes w' ∧ w'.schemas = w.schemas := by
  obtain ⟨r, served⟩ := building.served
  obtain ⟨n, read, held, rfl, -, -, -, rfl, rfl⟩ :=
    (exec_compileField_eq_ok building.sound.plain building.sound.unshared served).mp run
  have nodes := World.KeepsNodes.push w (read.node s n held)
  refine ⟨⟨n, rfl, ?_, ?_⟩, ?_, nodes, rfl⟩
  · rw [Array.size_push]
    exact Nat.lt_succ_self _
  · rw [World.field_push, if_pos rfl]
    rfl
  · exact building.of_schemas (building.sound.plain.pushField rfl) nodes.names
      building.sound.unshared rfl

/-- What was added goes on with a field that is made for the newest schema. -/
theorem World.Adds.compiled {w₀ : World} (adds : w₀.Adds w s) (building : w'.Building s)
    (nodes : w.KeepsNodes w') (schemas : w'.schemas = w.schemas) : w₀.Adds w' s := by
  have schema : ∀ i, w'.schema i = w.schema i := fun i => by rw [World.schema, schemas]; rfl
  refine ⟨building, adds.fresh, adds.nodes.trans nodes, fun i h => ?_, fun i h => ?_,
    fun i h => ?_⟩
  · rw [schema, adds.parent i h]
  · rw [schema, adds.fields i h]
  · rw [schema, adds.lists i h]

/-- What was added goes on with a field that is put among those of the newest schema. -/
theorem World.Adds.placed {w₀ : World} (adds : w₀.Adds w s) {n : String} {f : Nat}
    (inside : f < w.fields.size) (named : (w.field f).name = n) :
    w₀.Adds (w.modifySchema s fun node =>
      { node with fields := Table.insert (w.schema s).fields (.str n) (.field f) }) s := by
  have other : ∀ i < s, (w.modifySchema s fun node => { node with
      fields := Table.insert (w.schema s).fields (.str n) (.field f) }).schema i = w.schema i := by
    intro i h
    rw [World.schema_modifySchema, if_neg fun both => Nat.ne_of_gt h both.1]
  refine ⟨adds.building.placed inside named, adds.fresh, adds.nodes.trans (.of_fields rfl),
    fun i h => ?_, fun i h => ?_, fun i h => ?_⟩
  · rw [other i h, adds.parent i h]
  · rw [other i h, adds.fields i h]
  · rw [other i h, adds.lists i h]

/-- A name that is put among others, all of them texts, is merged into them. -/
theorem keys_insert_text {fields : Table Value Value} (texts : AllTexts fields.keys) (n : String)
    (v : Value) : (Table.insert fields (.str n) v).keys = mergeNames fields.keys [.str n] := by
  have known : fields.contains (.str n) = true ↔ Value.str n ∈ fields.keys := by
    rw [Table.contains, Option.isSome_iff_exists]
    constructor
    · rintro ⟨v, found⟩
      obtain ⟨k, there, same⟩ := Table.exists_key_of_get? found
      obtain ⟨m, rfl⟩ := texts k there
      rw [Value.beq_str, beq_iff_eq] at same
      rwa [← same]
    · exact Table.exists_get?_of_mem_keys (by simp)
  rw [Table.keys_insert]
  show _ = if (Value.str n).isIn fields.keys then fields.keys else fields.keys ++ [.str n]
  by_cases member : Value.str n ∈ fields.keys
  · rw [if_pos (known.mpr member), if_pos ((texts.isIn_iff n).mpr member)]
  · rw [if_neg (member ∘ known.mp), if_neg (member ∘ (texts.isIn_iff n).mp)]

/-- Fields that are compiled are added under the names of the template, in their order. By induction
on the template. -/
theorem adds_of_compileFields {w₀ : World} (entries : List (Value × Value)) :
    ∀ {w w' : World}, w₀.Adds w s → exec (compileFields d s entries) w = (.ok ⟨⟩, w') →
      w₀.Adds w' s ∧ AllTexts (Table.keys entries) ∧
      (w'.schema s).parent = (w.schema s).parent ∧
      (w'.schema s).fields.keys = mergeNames (w.schema s).fields.keys (Table.keys entries) := by
  induction entries with
  | nil =>
    intro w w' adds run
    obtain ⟨-, rfl⟩ := exec_pure_eq_ok.mp run
    exact ⟨adds, fun _ h => absurd h List.not_mem_nil, rfl, rfl⟩
  | cons entry rest ih =>
    intro w w' adds run
    obtain ⟨name, spec⟩ := entry
    rw [compileFields] at run
    obtain ⟨id, w₁, compiled, run⟩ := exec_bind_eq_ok.mp run
    obtain ⟨⟨n, rfl, inside, named⟩, building₁, nodes, schemas⟩ :=
      building_compileField adds.building compiled
    rw [exec_bind_ok (exec_placeField building₁.sound.plain building₁.sound.unshared ..)] at run
    have adds₁ := adds.compiled building₁ nodes schemas
    obtain ⟨adds', texts, parent, keys⟩ := ih (adds₁.placed inside named) run
    have same : w₁.schema s = w.schema s := by rw [World.schema, schemas]; rfl
    rw [World.schema_modifySchema, if_pos ⟨rfl, building₁.inside⟩] at parent keys
    refine ⟨adds', ?_, by rw [parent, same], ?_⟩
    · intro k there
      rcases List.mem_cons.mp there with rfl | there
      · exact ⟨n, rfl⟩
      · exact texts k there
    · rw [keys, keys_insert_text (building₁.sound.ownNames_texts s), same]
      rfl

/-! ## Faults -/

variable {R : World → World → Prop} [Developing R]

theorem along_newField {node : FieldNode} (h : node.stored = []) : Along R (newField node) := by
  exact ⟨fun w => Developing.apart (fun plain => plain.pushField h)
    fun unshared => ⟨unshared, .push w node, rfl⟩⟩

variable [d.Within R]

instance along_makeField (schema name type isArray label : Value) :
    Along R (makeField d schema name type isArray label) := by
  have made : ∀ (s : String) (held : FieldType) (b : Bool),
      Along R (newField ⟨schema, s, held, b, label, [], []⟩) := fun _ _ _ => along_newField rfl
  unfold makeField
  split
  · dsimp only
    split
    · refine Along.andThen fun text => Along.andThen fun _ => ?_
      split <;> infer_instance
    · split <;> infer_instance
  · infer_instance

instance along_typeRequired (registry : Value) (name field : String) :
    Along R (typeRequired d registry name field) := by
  unfold typeRequired
  split <;> infer_instance

instance along_resolveReference (field : String) (reference : Value) :
    Along R (resolveReference d s field reference) := by
  unfold resolveReference
  split <;> infer_instance

instance along_readPlainSpec (field : String) (isArray : Bool) (spec : Value) :
    Along R (readPlainSpec d s field isArray spec) := by
  unfold readPlainSpec
  refine Along.andThen fun entries => ?_
  split
  · split <;> infer_instance
  · infer_instance

instance along_readSpec (field : String) (spec : Value) :
    Along R (readSpec d s field spec) := by
  unfold readSpec
  split <;> infer_instance

/-- A field that cannot be compiled is not made, or it could not be read; its attributes can always
be merged. -/
theorem follows_of_compileField (building : w.Building s) {name spec : Value} {e : Fault}
    (run : exec (compileField d s name spec) w = (.error e, w')) : R w w' := by
  obtain ⟨r, served⟩ := building.served
  rcases exec_compileField_eq_error building.sound.plain building.sound.unshared served run with
    rfl | ⟨n, unread⟩ | ⟨n, type, isArray, label, unmade⟩
  · exact Along.out w
  · exact Along.of_error unread
  · exact Along.of_error unmade

/-- By induction on the template: each field that is compiled is added, and a fault ends the
compilation. -/
theorem follows_compileFields {w₀ : World} (sound : w₀.SoundSchemas)
    (entries : List (Value × Value)) : ∀ {w : World}, w₀.Adds w s →
      R w₀ (exec (compileFields d s entries) w).2 := by
  induction entries with
  | nil => exact fun adds => Developing.added sound adds
  | cons entry rest ih =>
    intro w adds
    obtain ⟨name, spec⟩ := entry
    rw [compileFields, exec_bind]
    rcases run : exec (compileField d s name spec) w with ⟨e | id, w₁⟩
    · exact Frame.trans (Developing.added sound adds) (follows_of_compileField adds.building run)
    · obtain ⟨⟨n, rfl, inside, named⟩, building₁, nodes, schemas⟩ :=
        building_compileField adds.building run
      dsimp only
      rw [exec_bind_ok (exec_placeField building₁.sound.plain building₁.sound.unshared ..)]
      exact ih ((adds.compiled building₁ nodes schemas).placed inside named)

/-! ## A new schema -/

omit [d.Within R] [Developing R] in
/-- A schema on which nothing was set leaves the world plain when it is added. -/
theorem World.Plain.pushSchema (plain : w.Plain) {node : SchemaNode} (stored : node.stored = []) :
    World.Plain { w with schemas := w.schemas.push node } := by
  refine ⟨plain.types, plain.fields, fun i => ?_⟩
  rw [World.schema_push]
  split
  · exact stored
  · exact plain.schemas i

omit [d.Within R] [Developing R] in
/-- A schema without fields that is added, on top of a parent that exists. -/
theorem World.SoundSchemas.adds_push (sound : w.SoundSchemas) {node : SchemaNode} {r : Nat}
    (registry : node.registry = .registry r)
    (parent : ∀ p, node.parent = some p → p < w.schemas.size)
    (fields : node.fields = []) (lists : node.fieldLists = []) (stored : node.stored = []) :
    w.Adds { w with schemas := w.schemas.push node } w.schemas.size := by
  generalize hw' : { w with schemas := w.schemas.push node } = w'
  have size : w'.schemas.size = w.schemas.size + 1 := by
    rw [← hw']
    exact Array.size_push ..
  have schema : ∀ i, w'.schema i = if i = w.schemas.size then node else w.schema i := by
    rw [← hw']
    exact w.schema_push node
  have here : w'.schema w.schemas.size = node := by
    rw [schema, if_pos rfl]
  have below : ∀ i < w.schemas.size, w'.schema i = w.schema i := fun i h => by
    rw [schema, if_neg (Nat.ne_of_lt h)]
  have nodes : w.KeepsNodes w' := by
    rw [← hw']
    exact .of_fields rfl
  have plain : w'.Plain := by
    rw [← hw']
    exact sound.plain.pushSchema stored
  have unshared : w'.sharedParts = [] := by
    rw [← hw']
    exact sound.unshared
  refine ⟨.of_newest sound plain unshared nodes.names size (fun i h => ⟨h, below i h⟩) ?_ ?_ ?_ ?_,
    rfl, nodes, fun i h => by rw [below i h], fun i h => by rw [below i h],
    fun i h => by rw [below i h]⟩
  · rw [here]
    exact parent
  · rw [here]
    exact ⟨r, registry⟩
  · rw [here, fields]
    exact fun e h => absurd h List.not_mem_nil
  · rw [here]
    exact lists

/-- A world in which a schema is marked as one that is extended. -/
def World.withChildren (w : World) (p : Nat) : World :=
  w.modifySchema p fun n => { n with
    hasChildren := true, stored := n.stored.erase "_has_children" }

omit [d.Within R] [Developing R] in
/-- The mark changes nothing else of a schema. -/
theorem World.part_withChildren {α : Type} (part : SchemaNode → α) (same : ∀ n, part { n with
    hasChildren := true, stored := n.stored.erase "_has_children" } = part n) (p i : Nat) :
    part ((w.withChildren p).schema i) = part (w.schema i) :=
  w.part_modifySchema part same p i

omit [d.Within R] [Developing R] in
theorem World.Plain.withChildren (plain : w.Plain) (p : Nat) : (w.withChildren p).Plain := by
  refine (w.untouched_modifySchema p fun n h => ?_).plain plain
  show n.stored.erase "_has_children" = []
  rw [h]
  rfl

omit [d.Within R] [Developing R] in
/-- What was added goes on with the mark of the schema that is extended. -/
theorem World.Adds.marked {w₀ : World} (adds : w₀.Adds w s) (p : Nat) :
    w₀.Adds (w.withChildren p) s := by
  have sound := adds.building.sound
  have parent := w.part_withChildren SchemaNode.parent (fun _ => rfl) p
  have fields := w.part_withChildren SchemaNode.fields (fun _ => rfl) p
  have lists := w.part_withChildren SchemaNode.fieldLists (fun _ => rfl) p
  have registry := w.part_withChildren SchemaNode.registry (fun _ => rfl) p
  have size : (w.withChildren p).schemas.size = w.schemas.size := Array.size_modify
  refine ⟨⟨sound.of_kept (sound.plain.withChildren p) (.of_fields rfl) sound.unshared size parent
    fields registry lists, ?_, ?_⟩, adds.fresh, adds.nodes.trans (.of_fields rfl), fun i h => ?_,
    fun i h => ?_, fun i h => ?_⟩
  · rw [size, adds.building.newest]
  · rw [lists, adds.building.bare]
  · rw [parent, adds.parent i h]
  · rw [fields, adds.fields i h]
  · rw [lists, adds.lists i h]

omit [d.Within R] [Developing R] in
/-- A schema that is made on a registry, with no parent or one that exists, is then being compiled,
and has no fields. It has the given name, and all others keep theirs. -/
theorem adds_makeSchema (d : Dispatch) (sound : w.SoundSchemas) (collectionName : Value) (r : Nat)
    (above : Option Nat) (exists' : ∀ p, above = some p → p < w.schemas.size) :
    ∃ w', exec (makeSchema d collectionName (objectOrNull .schema above) (.registry r)) w
        = (.ok w.schemas.size, w') ∧ w.Adds w' w.schemas.size ∧
      (w'.schema w.schemas.size).parent = above ∧ (w'.schema w.schemas.size).fields = [] ∧
      ∀ i, (w'.schema i).collectionName
        = if i = w.schemas.size then collectionName else (w.schema i).collectionName := by
  have adds := @World.SoundSchemas.adds_push w sound
    ⟨.registry r, collectionName, above, [], false, [], []⟩ r rfl exists' rfl rfl rfl
  have pushed := w.schema_push ⟨.registry r, collectionName, above, [], false, [], []⟩
  have here := pushed w.schemas.size
  rw [if_pos rfl] at here
  have names := fun i => (congrArg SchemaNode.collectionName (pushed i)).trans
    (apply_ite SchemaNode.collectionName ..)
  cases above with
  | none =>
    refine ⟨_, rfl, adds, ?_, ?_, names⟩
    · exact congrArg SchemaNode.parent here
    · exact congrArg SchemaNode.fields here
  | some p =>
    refine ⟨_, rfl, adds.marked p, ?_, ?_, fun i => ?_⟩
    · exact (World.part_withChildren SchemaNode.parent (fun _ => rfl) p _).trans
        (congrArg SchemaNode.parent here)
    · exact (World.part_withChildren SchemaNode.fields (fun _ => rfl) p _).trans
        (congrArg SchemaNode.fields here)
    · exact (World.part_withChildren SchemaNode.collectionName (fun _ => rfl) p i).trans (names i)

/-- The registry of a new schema is the given one, its parent's, or the shared one, for which the
settings are read; a schema that exists is still there. -/
theorem exec_registryForSchema (sound : w.SoundSchemas) (given : Option Nat) {above : Option Nat}
    (exists' : ∀ p, above = some p → p < w.schemas.size) :
    (∃ e w₀, exec (registryForSchema d (objectOrNull .registry given) above) w = (.error e, w₀) ∧
      R w w₀) ∨
    ∃ r w₀, exec (registryForSchema d (objectOrNull .registry given) above) w
        = (.ok (.registry r), w₀) ∧ R w w₀ ∧ ∀ p, above = some p → p < w₀.schemas.size := by
  cases given with
  | some r => exact .inr ⟨r, w, rfl, Frame.refl w, exists'⟩
  | none =>
    cases above with
    | some p =>
      obtain ⟨r, served⟩ := sound.served p (exists' p rfl)
      refine .inr ⟨r, w, ?_, Frame.refl w, exists'⟩
      rw [← served]
      rfl
    | none =>
      have taken : exec (registryForSchema d (objectOrNull .registry none) none) w
          = exec (do return .registry (← sharedRegistry d)) w := rfl
      have follows := (along_sharedRegistry (R := R) (d := d)).out w
      rw [taken, exec_bind]
      rcases shared : exec (sharedRegistry d) w with ⟨e | r, w₀⟩ <;> rw [shared] at follows
      · exact .inl ⟨e, w₀, rfl, follows⟩
      · exact .inr ⟨r, w₀, rfl, follows, nofun⟩

section Home

variable {registry : Value} {above : Option Nat} {w₀ : World}

omit [d.Within R] [Developing R] in
/-- A schema is made as on the registry that is found for it. -/
theorem exec_makeSchema_of_ok
    (found : exec (registryForSchema d registry above) w = (.ok (.registry r), w₀))
    (collectionName : Value) :
    exec (makeSchema d collectionName (objectOrNull .schema above) registry) w
      = exec (makeSchema d collectionName (objectOrNull .schema above) (.registry r)) w₀ := by
  have parent : ∀ u, exec (parentOf d (objectOrNull .schema above)) u = (.ok above, u) := by
    cases above <;> exact fun _ => rfl
  have home : exec (registryForSchema d (.registry r) above) w₀ = (.ok (.registry r), w₀) := rfl
  unfold makeSchema
  rw [exec_bind_ok (parent w), exec_bind_ok (parent w₀), exec_bind_ok found, exec_bind_ok home]

omit [d.Within R] [Developing R] in
/-- Without a registry no schema is made. -/
theorem exec_makeSchema_of_error {e : Fault}
    (unfound : exec (registryForSchema d registry above) w = (.error e, w₀))
    (collectionName : Value) :
    exec (makeSchema d collectionName (objectOrNull .schema above) registry) w
      = (.error e, w₀) := by
  have parent : exec (parentOf d (objectOrNull .schema above)) w = (.ok above, w) := by
    cases above <;> rfl
  unfold makeSchema
  rw [exec_bind_ok parent, exec_bind_error unfound]

end Home

omit [d.Within R] [Developing R] in
/-- On top of anything else no schema is made. -/
theorem exec_makeSchema_of_not_schema {parent : Value}
    (other : ∀ above, parent ≠ objectOrNull .schema above) (collectionName registry : Value) :
    ∃ e, exec (makeSchema d collectionName parent registry) w
      = (.error e, (exec (shown d parent) w).2) := by
  obtain ⟨e, run⟩ := exec_bind_throw (β := Option Nat) (shown d parent)
    (fun text => .definition (.parentSchema text)) w
  unfold makeSchema parentOf
  cases parent with
  | null => exact absurd rfl (other none)
  | schema p => exact absurd rfl (other (some p))
  | _ => exact ⟨e, exec_bind_error run _⟩

instance along_logCompiled : Along R (logCompiled d s) := by
  unfold logCompiled
  refine Along.andThen fun given => Along.andThen fun name => ?_
  refine Along.andThen fun names => Along.andThen fun fields => Along.andThen fun w => ?_
  split <;> infer_instance

omit [d.Within R] [Developing R] in
/-- A template is compiled if it is a mapping, a schema is made for it, its fields are compiled, and
that is recorded. -/
theorem exec_compileSchema_eq_ok {template collectionName parent registry : Value} :
    exec (compileSchema d template collectionName parent registry) w = (.ok s, w') ↔
      ∃ entries w₁ w₂, w.mapping? template = some entries ∧
        exec (makeSchema d collectionName parent registry) w = (.ok s, w₁) ∧
        exec (compileFields d s entries) w₁ = (.ok ⟨⟩, w₂) ∧
        exec (logCompiled d s) w₂ = (.ok ⟨⟩, w') := by
  unfold compileSchema
  rw [exec_bind_ok (exec_mappingOf? template w)]
  constructor
  · intro run
    split at run
    · next entries mapped =>
      obtain ⟨schema, w₁, made, run⟩ := exec_bind_eq_ok.mp run
      obtain ⟨⟨⟩, w₂, compiled, run⟩ := exec_bind_eq_ok.mp run
      obtain ⟨⟨⟩, w₃, logged, run⟩ := exec_bind_eq_ok.mp run
      obtain ⟨rfl, rfl⟩ := exec_pure_eq_ok.mp run
      exact ⟨entries, w₁, w₂, mapped, made, compiled, logged⟩
    · simp [exec_bind_eq_ok] at run
  · rintro ⟨entries, w₁, w₂, mapped, made, compiled, logged⟩
    rw [mapped]
    dsimp only
    rw [exec_bind_ok made, exec_bind_ok compiled, exec_bind_ok logged]
    rfl

/-- A template that is compiled has texts as names. On the registry of the new schema, which is
found first, it adds a schema with the given parent and with the names of the template as its own,
in their order, once its fields are compiled; then the compilation is recorded. -/
theorem adds_of_compileSchema (sound : w.SoundSchemas) {template collectionName : Value}
    {given above : Option Nat} (exists' : ∀ p, above = some p → p < w.schemas.size)
    (run : exec (compileSchema d template collectionName (objectOrNull .schema above)
      (objectOrNull .registry given)) w = (.ok s, w')) :
    ∃ entries w₀, w.mapping? template = some entries ∧ R w w₀ ∧ (w₀.SoundSchemas →
      ∃ w₁, AllTexts (Table.keys entries) ∧ w₀.Adds w₁ s ∧ (w₁.schema s).parent = above ∧
        (w₁.schema s).fields.keys = mergeNames [] (Table.keys entries) ∧
        exec (logCompiled d s) w₁ = (.ok ⟨⟩, w')) := by
  obtain ⟨entries, w₁, w₂, mapped, made, compiled, logged⟩ := exec_compileSchema_eq_ok.mp run
  rcases exec_registryForSchema (R := R) (d := d) sound given exists' with
    ⟨e, w₀, unfound, -⟩ | ⟨r, w₀, found, follows, exists₀⟩
  · cases made.symm.trans (exec_makeSchema_of_error unfound collectionName)
  · refine ⟨entries, w₀, mapped, follows, fun sound₀ => ?_⟩
    obtain ⟨u, made', adds, parent, fields, -⟩ :=
      adds_makeSchema d sound₀ collectionName r above exists₀
    rw [exec_makeSchema_of_ok found, made'] at made
    obtain ⟨⟨⟩, rfl⟩ := Prod.mk.inj made
    obtain ⟨adds₂, texts, parent₂, keys⟩ := adds_of_compileFields entries adds compiled
    rw [fields] at keys
    exact ⟨w₂, texts, adds₂, parent₂.trans parent, keys, logged⟩

/-- To compile a template, on top of a parent that exists, follows what schemas develop by. -/
theorem follows_compileSchema {template collectionName parent : Value} (given : Option Nat)
    (exists' : ∀ p, parent = .schema p → p < w.schemas.size) :
    R w (exec (compileSchema d template collectionName parent (objectOrNull .registry given)) w).2
    := by
  refine Developing.assuming fun sound => ?_
  unfold compileSchema
  rw [exec_bind_ok (exec_mappingOf? template w)]
  split
  · next entries _ =>
    by_cases schema : ∃ above, parent = objectOrNull .schema above
    · obtain ⟨above, rfl⟩ := schema
      rcases exec_registryForSchema (R := R) (d := d) sound given
          (fun p (h : above = some p) => exists' p (by rw [h]; rfl)) with
        ⟨e, w₀, unfound, follows₀⟩ | ⟨r, w₀, found, follows₀, exists₀⟩
      · rw [exec_bind_error (exec_makeSchema_of_error unfound collectionName)]
        exact follows₀
      -- To find the registry may change something, so the schema is made in the world after it.
      · refine Frame.trans follows₀ (Developing.assuming fun sound₀ => ?_)
        obtain ⟨w', made, adds, -⟩ := adds_makeSchema d sound₀ collectionName r above exists₀
        rw [← exec_makeSchema_of_ok found] at made
        rw [exec_bind_ok made, exec_bind]
        have follows := follows_compileFields (R := R) (d := d) sound₀ entries adds
        rcases fields : exec (compileFields d w₀.schemas.size entries) w' with ⟨e | _, w₁⟩ <;>
          rw [fields] at follows
        · exact follows
        · have logged : Along R (do
              logCompiled d w₀.schemas.size
              return w₀.schemas.size) := inferInstance
          exact Frame.trans follows (logged.out w₁)
    · obtain ⟨e, run⟩ := exec_makeSchema_of_not_schema (d := d) (w := w)
        (fun above same => schema ⟨above, same⟩) collectionName (objectOrNull .registry given)
      rw [exec_bind_error run]
      exact (along_shown (R := R) (d := d) parent).out w
  · exact (inferInstance : Along R (do
      throw (.definition (.template (← shown d template))) : Action Nat)).out w

end Compile

end DataShape
