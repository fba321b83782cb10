import DataShape.Proofs.Json.Canonical
import DataShape.Proofs.Plain
import DataShape.Proofs.Schema.Run
import DataShape.Proofs.Settling
import DataShape.Schema.Fingerprint

/-! # What a fingerprint covers

The text that is hashed for a fingerprint is a faithful account of what a schema says of itself and
of its own fields: two schemas have the same text just if they say the same, up to the order of the
entries of mappings in the attributes.

* `FieldSummary`, `SchemaSummary` — what a schema says; `Same` — the same is said.
* `hashedText` — the text that is hashed.
* `World.Documented` — a schema whose names, labels and attributes are data.
* `exec_describeSchema` — what the description of such a schema is.
* `fingerprint_faithful` — two texts are equal just if the same is said. -/

namespace DataShape

/-! ## What a schema says -/

/-- What a schema says of a field. -/
structure FieldSummary where
  name : String
  typeName : Value
  label : Value
  isArray : Bool
  isReference : Bool
  attributes : Entries

/-- The same is said of two fields. -/
structure FieldSummary.Same (f g : FieldSummary) : Prop where
  name : f.name = g.name
  typeName : SameData f.typeName g.typeName
  label : SameData f.label g.label
  isArray : f.isArray = g.isArray
  isReference : f.isReference = g.isReference
  attributes : SameData (.freshDict f.attributes) (.freshDict g.attributes)

/-- What a schema says of itself and of its own fields, in their order. -/
structure SchemaSummary where
  collectionName : Value
  parentName : Value
  fields : List FieldSummary

/-- Two schemas say the same. -/
structure SchemaSummary.Same (s t : SchemaSummary) : Prop where
  collectionName : SameData s.collectionName t.collectionName
  parentName : SameData s.parentName t.parentName
  fields : List.Forall₂ FieldSummary.Same s.fields t.fields

/-- Whether no integer is too long to be written. -/
def FieldSummary.isShort (f : FieldSummary) : Bool :=
  f.typeName.isShort && f.label.isShort && entriesShort f.attributes

/-- Whether no integer is too long to be written. -/
def SchemaSummary.isShort (s : SchemaSummary) : Bool :=
  s.collectionName.isShort && s.parentName.isShort && s.fields.all FieldSummary.isShort

/-- The label of a field: the given one, or one made from the name. -/
def FieldNode.shownLabel (f : FieldNode) : Value :=
  if f.label.isTrue then f.label else .str (Text.labelOf f.name)

/-- The name of a schema: its collection name, or a general word. -/
def SchemaNode.shownName (s : SchemaNode) : Value :=
  if s.collectionName.isTrue then s.collectionName else .str "Schema"

/-- Whether a field holds a record of a schema. -/
def FieldType.isSchema : FieldType → Bool
  | .type _ => false
  | .schema _ => true

/-- The field that a value is. -/
def Value.field? : Value → Option Nat
  | .field id => some id
  | _ => none

namespace World

/-- The name of what a field holds. -/
def shownTypeName (w : World) : FieldType → Value
  | .type t => .str (w.type t).name
  | .schema s => (w.schema s).shownName

/-- What is said of a field. -/
def fieldSummary (w : World) (id : Nat) : FieldSummary :=
  let f := w.field id
  ⟨f.name, w.shownTypeName f.type, f.shownLabel, f.isArray, f.type.isSchema, f.attributes⟩

/-- What a schema says. -/
def summary (w : World) (s : Nat) : SchemaSummary where
  collectionName := (w.schema s).collectionName
  parentName := (w.schema s).parent.elim .null fun p => (w.schema p).shownName
  fields := ((w.schema s).fields.values.filterMap Value.field?).map w.fieldSummary

/-- A field whose label and attributes are data, as is the name of what it holds. Nothing was set on
the field itself, or on the type that it holds. -/
structure DocumentedField (w : World) (f : Nat) : Prop where
  bare : (w.field f).stored = []
  label : (w.field f).label.isTree = true
  attributes : entriesTrees (w.field f).attributes = true
  type : ∀ t, (w.field f).type = .type t → (w.type t).stored = []
  schema : ∀ s, (w.field f).type = .schema s → (w.schema s).collectionName.isTree = true

/-- A schema whose name is data, as is that of its parent, with such fields of its own. Nothing was
set on the schema itself. -/
structure Documented (w : World) (s : Nat) : Prop where
  bare : (w.schema s).stored = []
  collectionName : (w.schema s).collectionName.isTree = true
  parentName : ∀ p, (w.schema s).parent = some p → (w.schema p).collectionName.isTree = true
  fields : ∀ v ∈ (w.schema s).fields.values, ∃ f, v = .field f ∧ w.DocumentedField f

/-- Whether a field is documented. -/
def documentsField (w : World) (f : Nat) : Bool :=
  (w.field f).stored.isEmpty && (w.field f).label.isTree && entriesTrees (w.field f).attributes &&
    match (w.field f).type with
    | .type t => (w.type t).stored.isEmpty
    | .schema s => (w.schema s).collectionName.isTree

/-- Whether a schema is documented. -/
def documents (w : World) (s : Nat) : Bool :=
  (w.schema s).stored.isEmpty && (w.schema s).collectionName.isTree &&
    (w.schema s).parent.all (fun p => (w.schema p).collectionName.isTree) &&
    (w.schema s).fields.values.all fun v => v.field?.any w.documentsField

theorem documentsField_iff {w : World} {f : Nat} :
    w.documentsField f = true ↔ w.DocumentedField f := by
  unfold documentsField
  simp only [Bool.and_eq_true, List.isEmpty_iff]
  constructor
  · rintro ⟨⟨⟨bare, label⟩, attributes⟩, held⟩
    refine ⟨bare, label, attributes, fun t same => ?_, fun s same => ?_⟩
    · rw [same] at held
      exact List.isEmpty_iff.mp held
    · rw [same] at held
      exact held
  · rintro ⟨bare, label, attributes, type, schema⟩
    refine ⟨⟨⟨bare, label⟩, attributes⟩, ?_⟩
    split
    · next t same => exact List.isEmpty_iff.mpr (type t same)
    · next s same => exact schema s same

theorem documents_iff {w : World} {s : Nat} : w.documents s = true ↔ w.Documented s := by
  unfold documents
  simp only [Bool.and_eq_true, List.isEmpty_iff, List.all_eq_true, Option.all_eq_true]
  constructor
  · rintro ⟨⟨⟨bare, name⟩, parent⟩, fields⟩
    refine ⟨bare, name, parent, fun v there => ?_⟩
    have documented := fields v there
    cases v with
    | field f => exact ⟨f, rfl, documentsField_iff.mp documented⟩
    | _ => cases documented
  · rintro ⟨bare, name, parent, fields⟩
    refine ⟨⟨⟨bare, name⟩, parent⟩, fun v there => ?_⟩
    obtain ⟨f, rfl, documented⟩ := fields v there
    exact documentsField_iff.mpr documented

end World

/-- The text that is hashed for the fingerprint of a schema. -/
def hashedText (d : Dispatch) (id : Nat) : Action String := do
  let description ← orStandIn d (.schema id) "to_dict" [] pure (describeSchema d id)
  ofExcept (canonicalText (← get) description)

theorem fingerprint_eq (d : Dispatch) (id : Nat) :
    fingerprint d id = fingerprintOf <$> hashedText d id := by
  simp only [fingerprint, hashedText, map_bind]
  rfl

/-! ## Descriptions of fields -/

/-- A flag is only mentioned if it is set. -/
def flagEntry (key : String) (b : Bool) : List (String × Value) :=
  if b then [(key, .bool true)] else []

namespace FieldSummary

/-- The description of a field, with its attributes as they are written. -/
def entries (f : FieldSummary) (written : Value) : List (String × Value) :=
  [("name", .str f.name), ("type", f.typeName), ("label", f.label)]
    ++ flagEntry "is_array" f.isArray ++ flagEntry "is_schema_reference" f.isReference
    ++ (if f.attributes.isEmpty then [] else [("attributes", written)])

variable {f g : FieldSummary} {a b : Value}

theorem isTree_entries (typeName : f.typeName.isTree = true) (label : f.label.isTree = true)
    (written : a.isTree = true) : (Value.ofFields (f.entries a)).isTree = true := by
  obtain ⟨name, typeName, label, isArray, isReference, attributes⟩ := f
  simp only [entries, flagEntry]
  cases isArray <;> cases isReference <;> cases attributes <;>
    simp_all [Value.ofFields, Value.isTree, entriesTrees, entryTree, Value.text?]

theorem isShort_entries (written : a.isShort = entriesShort f.attributes) :
    (Value.ofFields (f.entries a)).isShort = f.isShort := by
  obtain ⟨name, typeName, label, isArray, isReference, attributes⟩ := f
  simp only [entries, flagEntry]
  cases isArray <;> cases isReference <;> cases attributes <;>
    simp_all [Value.ofFields, Value.isShort, entriesShort, entryShort, isShort, Bool.and_assoc]

theorem nodup_entries : (Table.keys (f.entries a)).Nodup := by
  obtain ⟨name, typeName, label, isArray, isReference, attributes⟩ := f
  cases isArray <;> cases isReference <;> cases attributes <;>
    simp [entries, flagEntry, Table.keys]

theorem sameEntries_append {es fs es' fs' : Entries} (first : SameEntries es fs)
    (second : SameEntries es' fs') : SameEntries (es ++ es') (fs ++ fs') :=
  sameEntries_iff.mpr (List.rel_append (sameEntries_iff.mp first) (sameEntries_iff.mp second))

/-- What a description says under its keys. -/
theorem get?_entries : Table.get? (f.entries a) "name" = some (.str f.name) ∧
    Table.get? (f.entries a) "type" = some f.typeName ∧
    Table.get? (f.entries a) "label" = some f.label ∧
    (Table.get? (f.entries a) "is_array").isSome = f.isArray ∧
    (Table.get? (f.entries a) "is_schema_reference").isSome = f.isReference ∧
    Table.get? (f.entries a) "attributes" = if f.attributes.isEmpty then none else some a := by
  obtain ⟨name, typeName, label, isArray, isReference, attributes⟩ := f
  cases isArray <;> cases isReference <;> cases attributes <;> simp [entries, flagEntry]

section Alike

variable (same : SameData (.freshDict f.attributes) a)
  (same' : SameData (.freshDict g.attributes) b)

include same same'

/-- The attributes of two fields are the same if they are where they are written. -/
theorem sameAttributes_of_entries
    (h : SameData (.ofFields (f.entries a)) (.ofFields (g.entries b))) :
    SameData (.freshDict f.attributes) (.freshDict g.attributes) := by
  have given := h.isSome_get? nodup_entries nodup_entries "attributes"
  rw [get?_entries.2.2.2.2.2, get?_entries.2.2.2.2.2] at given
  cases none : f.attributes with
  | nil =>
    cases none' : g.attributes with
    | nil => exact .dict 0 0 .nil (.refl _)
    | cons e rest =>
      rw [none, none'] at given
      cases given
  | cons e rest =>
    have found : Table.get? (f.entries a) "attributes" = some a := by
      rw [get?_entries.2.2.2.2.2, none]
      rfl
    obtain ⟨x, found', written⟩ := h.get? nodup_entries nodup_entries found
    rw [get?_entries.2.2.2.2.2] at found'
    cases none' : g.attributes with
    | nil =>
      rw [none'] at found'
      cases found'
    | cons e' rest' =>
      rw [none'] at found'
      obtain rfl : b = x := Option.some.inj found'
      rw [← none, ← none']
      exact (same.trans written).trans same'.symm

/-- Two fields are described by the same data just if the same is said of them. -/
theorem sameData_entries_iff :
    SameData (.ofFields (f.entries a)) (.ofFields (g.entries b)) ↔ f.Same g := by
  constructor
  · intro h
    have under : ∀ {k : String} {v x : Value}, Table.get? (f.entries a) k = some v →
        Table.get? (g.entries b) k = some x → SameData v x := by
      intro k v x found found'
      obtain ⟨y, there, alike⟩ := h.get? nodup_entries nodup_entries found
      rwa [Option.some.inj (found'.symm.trans there)]
    have given := h.isSome_get? nodup_entries nodup_entries
    obtain ⟨name, typeName, label, isArray, isReference, -⟩ := @get?_entries f a
    obtain ⟨name', typeName', label', isArray', isReference', -⟩ := @get?_entries g b
    exact ⟨sameData_str.mp (under name name'), under typeName typeName', under label label',
      isArray.symm.trans ((given _).trans isArray'),
      isReference.symm.trans ((given _).trans isReference'),
      sameAttributes_of_entries same same' h⟩
  · rintro ⟨name, typeName, label, isArray, isReference, attributes⟩
    have empty : f.attributes.isEmpty = g.attributes.isEmpty := by
      cases attributes with
      | dict _ _ alike order =>
        have size := (sameEntries_iff.mp alike).length_eq.trans order.length_eq
        rw [Bool.eq_iff_iff, List.isEmpty_iff, List.isEmpty_iff, ← List.length_eq_zero_iff,
          ← List.length_eq_zero_iff, size]
    have written : SameData a b := (same.symm.trans attributes).trans same'
    have flags : ∀ (key : String) (b : Bool), SameEntries
        ((flagEntry key b).map fun f => (Value.str f.1, f.2))
        ((flagEntry key b).map fun f => (Value.str f.1, f.2)) := by
      intro key b
      cases b
      · exact .nil
      · exact .cons (.bool true) .nil
    refine .dict 0 0 ?_ (.refl _)
    unfold entries
    rw [name, isArray, isReference, empty]
    simp only [List.map_append]
    refine sameEntries_append
      (sameEntries_append (sameEntries_append ?_ (flags _ _)) (flags _ _)) ?_
    · exact .cons (.str _) (.cons typeName (.cons label .nil))
    · split
      · exact .nil
      · exact .cons written .nil

end Alike

end FieldSummary

/-! ## Attributes as they are written -/

/-- Data and what is written in its place. -/
structure Redone (v x : Value) : Prop where
  same : SameData v x
  tree : x.isTree = true
  short : x.isShort = v.isShort

/-- Entries with distinct texts as keys are a table of their own. -/
theorem ofEntries_of_entriesTrees {es : Entries} (h : entriesTrees es = true) :
    Table.ofEntries es = es := by
  obtain ⟨texts, distinct⟩ := Json.keyed_of_entriesTrees h
  refine Table.update_eq_append (List.pairwise_map.mpr (distinct.imp_of_mem ?_))
  intro e f inside inside' apart
  obtain ⟨k, isKey⟩ := texts e inside
  obtain ⟨k', isKey'⟩ := texts f inside'
  rw [isKey, isKey'] at apart ⊢
  rw [Value.beq_str, beq_eq_false_iff_ne]
  exact apart

theorem SameEntries.any_key {es fs : Entries} (h : SameEntries es fs) (p : Value → Bool) :
    fs.any (fun e => p e.1) = es.any fun e => p e.1 := by
  induction es generalizing fs with
  | nil =>
    cases h
    rfl
  | cons e es ih =>
    cases h with
    | cons first rest => rw [List.any_cons, List.any_cons, ih rest]

section Plain

variable (d : Dispatch) (w : World)

mutual

/-- Data is written as it is, without effect. -/
theorem exec_plainTree : ∀ v : Value, v.isTree = true →
    ∃ x, exec (plainTree d v) w = (.ok x, w) ∧ Redone v x
  | .null, _ => ⟨.null, rfl, .null, rfl, rfl⟩
  | .bool b, _ => ⟨.bool b, rfl, .bool b, rfl, rfl⟩
  | .int n, _ => ⟨.int n, rfl, .int n, rfl, rfl⟩
  | .float x, _ => ⟨.float x, rfl, .float rfl, rfl, rfl⟩
  | .str s, _ => ⟨.str s, rfl, .str s, rfl, rfl⟩
  | .list share items, tree => by
    obtain ⟨xs, run, same, trees, short⟩ := exec_plainItems items tree
    refine ⟨.fresh xs, ?_, .list share 0 same, trees, short⟩
    rw [plainTree, exec_bind_ok run]
    rfl
  | .dict share entries, tree => by
    obtain ⟨xs, run, same, trees, short⟩ := exec_plainEntries entries tree
    refine ⟨.freshDict xs, ?_, .dict share 0 same (.refl _), trees, short⟩
    rw [plainTree, exec_bind_ok run, ofEntries_of_entriesTrees trees]
    rfl

theorem exec_plainItems : ∀ vs : List Value, allTrees vs = true →
    ∃ xs, exec (plainItems d vs) w = (.ok xs, w) ∧ SameItems vs xs ∧ allTrees xs = true ∧
      allShort xs = allShort vs
  | [], _ => ⟨[], rfl, .nil, rfl, rfl⟩
  | v :: vs, trees => by
    rw [allTrees, Bool.and_eq_true] at trees
    obtain ⟨x, run, redone⟩ := exec_plainTree v trees.1
    obtain ⟨xs, runs, same, trees', short⟩ := exec_plainItems vs trees.2
    refine ⟨x :: xs, ?_, .cons redone.same same, ?_, ?_⟩
    · rw [plainItems, exec_bind_ok run, exec_bind_ok runs]
      rfl
    · rw [allTrees, redone.tree, trees', Bool.and_self]
    · rw [allShort, allShort, redone.short, short]

theorem exec_plainEntries : ∀ es : List (Value × Value), entriesTrees es = true →
    ∃ xs, exec (plainEntries d es) w = (.ok xs, w) ∧ SameEntries es xs ∧
      entriesTrees xs = true ∧ entriesShort xs = entriesShort es
  | [], _ => ⟨[], rfl, .nil, rfl, rfl⟩
  | e :: es, trees => by
    rw [entriesTrees, Bool.and_eq_true, Bool.and_eq_true] at trees
    obtain ⟨x, run, redone, isText⟩ := exec_plainEntry e trees.1.1
    obtain ⟨xs, runs, same, trees', short⟩ := exec_plainEntries es trees.2
    refine ⟨(e.1, x) :: xs, ?_, .cons redone.same same, ?_, ?_⟩
    · rw [plainEntries, exec_bind_ok run, exec_bind_ok runs]
      rfl
    · have apart := same.any_key fun k => k.text? == e.1.text?
      rw [entriesTrees, entryTree, isText, redone.tree, trees', apart, trees.1.2]
      rfl
    · rw [entriesShort, entriesShort, entryShort, short, redone.short]
      cases e
      rfl

theorem exec_plainEntry : ∀ e : Value × Value, entryTree e = true →
    ∃ x, exec (plainEntry d e) w = (.ok (e.1, x), w) ∧ Redone e.2 x ∧
      e.1.text?.isSome = true
  | (.str k, v), tree => by
    obtain ⟨x, run, redone⟩ := exec_plainTree v tree
    refine ⟨x, ?_, redone, rfl⟩
    rw [plainEntry, textOf_str, pure_bind, exec_bind_ok run]
    rfl

end

end Plain

/-! ## Descriptions of schemas -/

section Descriptions

variable (d : Dispatch) {w : World}

/-- What is no container of the engine is true by itself. -/
theorem truthOf_of_own {v : Value} (own : v.isEngineContainer = false) :
    truthOf d v = pure v.isTrue := by
  rw [truthOf, if_neg (by simp [own])]

theorem own_of_isTree {v : Value} (tree : v.isTree = true) : v.isEngineContainer = false := by
  cases v <;> first | rfl | cases tree

/-- The label of a field that nothing was set on. -/
theorem exec_fieldLabel_of_bare {f : Nat} (bare : (w.field f).stored = [])
    (own : (w.field f).label.isEngineContainer = false) :
    exec (fieldLabel d f) w = (.ok (w.field f).shownLabel, w) := by
  unfold fieldLabel FieldNode.shownLabel
  rw [exec_bind_ok (exec_get w)]
  dsimp only
  rw [truthOf_of_own d own, pure_bind]
  split
  · rfl
  · rw [exec_bind_ok (exec_get w), World.fieldName, bare]
    rfl

theorem isTree_shownName {s : SchemaNode} (tree : s.collectionName.isTree = true) :
    s.shownName.isTree = true := by
  unfold SchemaNode.shownName
  split
  · exact tree
  · rfl

theorem isTree_shownLabel {f : FieldNode} (tree : f.label.isTree = true) :
    f.shownLabel.isTree = true := by
  unfold FieldNode.shownLabel
  split
  · exact tree
  · rfl

theorem exec_schemaName_of_isTree {s : Nat} (tree : (w.schema s).collectionName.isTree = true) :
    exec (schemaName d s) w = (.ok (w.schema s).shownName, w) := by
  unfold schemaName orElseValue SchemaNode.shownName
  rw [exec_bind_ok (exec_get w), truthOf_of_own d (own_of_isTree tree), pure_bind]
  split <;> rfl

/-- What is described of a field, told by its data alone. -/
def describeNode (d : Dispatch) (f : FieldNode) : Action Value := do
  let held ← nameOf d f.type.toValue
  let written ← if f.attributes.isEmpty then pure .null
    else plainData d (.freshDict f.attributes)
  return .ofFields (FieldSummary.entries
    ⟨f.name, held, f.shownLabel, f.isArray, f.type.isSchema, f.attributes⟩ written)

/-- A field that nothing was set on is described as its data tells, if it stays as it is while what
it holds is named and its attributes are written. -/
theorem exec_describeField_of_node {f : Nat} {node : FieldNode} (here : w.field f = node)
    (bare : node.stored = []) (own : node.label.isEngineContainer = false)
    (named : ∀ held w₁, exec (nameOf d node.type.toValue) w = (.ok held, w₁) → w₁.field f = node ∧
      ∀ written w₂, exec (plainData d (.freshDict node.attributes)) w₁ = (.ok written, w₂) →
        w₂.field f = node) :
    exec (describeField d f) w = exec (describeNode d node) w := by
  have type : w.fieldType f = node.type.toValue := by
    rw [World.fieldType, World.setOr, World.storedOn, here, bare]
    rfl
  have attributes : w.fieldAttributes f = .freshDict node.attributes := by
    rw [World.fieldAttributes, World.setOr, World.storedOn, here, bare]
    rfl
  have name : ∀ u : World, u.field f = node → u.fieldName f = .str node.name := fun u same => by
    rw [World.fieldName, same, bare]
    rfl
  unfold describeField describeNode
  rw [exec_bind_ok (exec_get w), type, attributes]
  refine exec_bind_congr ?_ fun held w₁ run => ?_
  · unfold heldName
    rw [exec_bind_ok (exec_get w), type]
  obtain ⟨same, written⟩ := named held w₁ run
  have label := exec_fieldLabel_of_bare d (same ▸ bare : (w₁.field f).stored = []) (same ▸ own)
  have array : exec (fieldIsArray d f) w₁ = (.ok node.isArray, w₁) := by
    unfold fieldIsArray
    rw [exec_bind_ok (exec_get w₁)]
    simp only [same, bare, Table.get?_nil]
    rfl
  rw [exec_bind_ok label, exec_bind_ok array, same,
    truthOf_of_own d (rfl : (Value.freshDict node.attributes).isEngineContainer = false), pure_bind]
  dsimp only
  -- Attributes are only mentioned if there are some.
  cases given : node.attributes with
  | nil =>
    rw [if_neg (by simp [Value.freshDict, Value.isTrue]), exec_bind_ok (exec_pure _ _),
      exec_bind_ok (exec_get _), name w₁ same]
    cases node.type <;> rfl
  | cons e rest =>
    have some : ¬ List.isEmpty (e :: rest) = true := by simp
    rw [if_pos (by simp [Value.freshDict, Value.isTrue]), if_neg some]
    rw [given] at written
    refine exec_bind_congr rfl fun x w₂ read => ?_
    rw [exec_bind_ok (exec_pure _ w₂), exec_bind_ok (exec_get w₂), name w₂ (written x w₂ read)]
    cases node.type <;> rfl

namespace World.DocumentedField

variable {f : Nat} (h : w.DocumentedField f)

include h

theorem exec_nameOf :
    exec (nameOf d (w.field f).type.toValue) w = (.ok (w.shownTypeName (w.field f).type), w) := by
  cases held : (w.field f).type with
  | type t =>
    show (Except.ok (w.typeName t), w) = (.ok (.str (w.type t).name), w)
    rw [World.typeName, h.type t held]
    rfl
  | schema s => exact exec_schemaName_of_isTree d (h.schema s held)

theorem isTree_shownTypeName : (w.shownTypeName (w.field f).type).isTree = true := by
  cases held : (w.field f).type with
  | type t => rfl
  | schema s => exact isTree_shownName (h.schema s held)

/-- A field is described by what is said of it, with its attributes as they are written. -/
theorem exec_describeField : ∃ a, exec (describeField d f) w
      = (.ok (.ofFields ((w.fieldSummary f).entries a)), w) ∧
    Redone (.freshDict (w.field f).attributes) a := by
  have tree : (Value.freshDict (w.field f).attributes).isTree = true := h.attributes
  obtain ⟨a, run, redone⟩ := exec_plainTree d w _ tree
  have plain : exec (plainData d (.freshDict (w.field f).attributes)) w = (.ok a, w) := by
    unfold plainData
    rw [exec_bind_ok (exec_get w), World.settled_of_isTree tree, run]
  have told := exec_describeField_of_node d (w := w) rfl h.bare (own_of_isTree h.label)
    fun held w₁ named => by
      obtain rfl := (Prod.mk.inj ((h.exec_nameOf d).symm.trans named)).2
      refine ⟨rfl, fun written w₂ read => ?_⟩
      obtain rfl := (Prod.mk.inj (plain.symm.trans read)).2
      rfl
  refine ⟨a, ?_, redone⟩
  rw [told, describeNode, exec_bind_ok (h.exec_nameOf d)]
  unfold World.fieldSummary FieldSummary.entries
  dsimp only
  split
  · rfl
  · rw [exec_bind_ok plain]
    rfl

end World.DocumentedField

/-- What is written for a field in the description of a schema. -/
def IsDescription (f : FieldSummary) (v : Value) : Prop :=
  ∃ a, v = .ofFields (f.entries a) ∧ f.typeName.isTree = true ∧ f.label.isTree = true ∧
    Redone (.freshDict f.attributes) a

theorem IsDescription.isTree {f : FieldSummary} {v : Value} (h : IsDescription f v) :
    v.isTree = true := by
  obtain ⟨a, rfl, typeName, label, redone⟩ := h
  exact FieldSummary.isTree_entries typeName label redone.tree

theorem IsDescription.isShort {f : FieldSummary} {v : Value} (h : IsDescription f v) :
    v.isShort = f.isShort := by
  obtain ⟨a, rfl, -, -, redone⟩ := h
  exact FieldSummary.isShort_entries redone.short

theorem IsDescription.same_iff {f g : FieldSummary} {v x : Value} (h : IsDescription f v)
    (h' : IsDescription g x) : SameData v x ↔ f.Same g := by
  obtain ⟨a, rfl, -, -, redone⟩ := h
  obtain ⟨b, rfl, -, -, redone'⟩ := h'
  exact FieldSummary.sameData_entries_iff redone.same redone'.same

/-- The description of a schema, with those of its fields. -/
def SchemaSummary.entries (s : SchemaSummary) (fields : List Value) : List (String × Value) :=
  [("collection_name", s.collectionName), ("parent_schema", s.parentName),
    ("fields", .fresh fields)]

/-- The own fields of a schema that nothing was set on. -/
theorem exec_ownFields_of_bare {s : Nat} (bare : w.storedOn (.schema s) = []) :
    exec (ownFields d s) w = (.ok (w.schema s).fields.values, w) := by
  have held : exec (heldFields s) w = (.ok (.live (.schemaFields s) false), w) := by
    show (Except.ok (w.setOr _ _ _), w) = _
    rw [World.setOr, bare]
    rfl
  unfold ownFields
  rw [exec_bind_ok held]
  rfl

/-- A schema is described by what it says. -/
theorem exec_describeSchema {s : Nat} (h : w.Documented s) :
    ∃ fields, exec (describeSchema d s) w = (.ok (.ofFields ((w.summary s).entries fields)), w) ∧
      List.Forall₂ IsDescription (w.summary s).fields fields := by
  have bare : w.storedOn (.schema s) = [] := h.bare
  have parent : exec (parentName? d s) w
      = (.ok ((w.schema s).parent.map fun p => (w.schema p).shownName), w) := by
    have held : w.parentOf s = objectOrNull .schema (w.schema s).parent := by
      rw [World.parentOf, World.setOr, bare]
      rfl
    unfold parentName?
    rw [exec_bind_ok (exec_get w), held]
    cases above : (w.schema s).parent with
    | none => rfl
    | some p =>
      show exec (some <$> schemaName d p) w = _
      rw [exec_map, exec_schemaName_of_isTree d (h.parentName p above)]
      rfl
  -- Each of the own fields is described in turn.
  have each : List.Forall₂ (fun f v => ∃ x, exec (describeMember d v) w = (.ok x, w) ∧
      IsDescription f x) (w.summary s).fields (w.schema s).fields.values := by
    have fields := h.fields
    simp only [World.summary]
    generalize (w.schema s).fields.values = values at fields
    induction values with
    | nil => exact .nil
    | cons v values ih =>
      obtain ⟨⟨f, rfl, documented⟩, rest⟩ := List.forall_mem_cons.mp fields
      refine .cons ?_ (ih rest)
      obtain ⟨a, run, redone⟩ := documented.exec_describeField d
      refine ⟨_, ?_, a, rfl, documented.isTree_shownTypeName, isTree_shownLabel documented.label,
        redone⟩
      show exec (orStandIn d (.field f) "to_dict" [] pure (describeField d f)) w = _
      rw [World.exec_orStandIn_of_bare d (show w.storedOn (.field f) = [] from documented.bare),
        run]
  obtain ⟨fields, run, descriptions⟩ := exec_mapM_forall₂ each
  refine ⟨fields, ?_, descriptions.flip⟩
  unfold describeSchema
  rw [exec_bind_ok (exec_get w), exec_bind_ok parent,
    exec_bind_ok (exec_ownFields_of_bare d bare), exec_bind_ok run,
    exec_pure, SchemaSummary.entries, World.summary]
  cases (w.schema s).parent <;> rfl

section Lists

variable {fs gs : List FieldSummary} {vs xs : List Value}

theorem allTrees_of_descriptions (h : List.Forall₂ IsDescription fs vs) : allTrees vs = true := by
  induction h with
  | nil => rfl
  | cons first _ ih => rw [allTrees, first.isTree, ih, Bool.and_self]

theorem allShort_of_descriptions (h : List.Forall₂ IsDescription fs vs) :
    allShort vs = fs.all FieldSummary.isShort := by
  induction h with
  | nil => rfl
  | cons first _ ih => rw [allShort, List.all_cons, first.isShort, ih]

theorem sameItems_of_descriptions (h : List.Forall₂ IsDescription fs vs)
    (h' : List.Forall₂ IsDescription gs xs) :
    SameItems vs xs ↔ List.Forall₂ FieldSummary.Same fs gs := by
  rw [sameItems_iff]
  induction h generalizing gs xs with
  | nil => cases h' <;> simp
  | cons first _ ih =>
    cases h' with
    | nil => simp
    | cons first' rest' =>
      rw [List.forall₂_cons, List.forall₂_cons, first.same_iff first', ih rest']

end Lists

/-- What is written for a schema. -/
def SchemaSummary.DescribedBy (s : SchemaSummary) (v : Value) : Prop :=
  ∃ fields, v = .ofFields (s.entries fields) ∧ s.collectionName.isTree = true ∧
    s.parentName.isTree = true ∧ List.Forall₂ IsDescription s.fields fields

namespace SchemaSummary.DescribedBy

variable {s t : SchemaSummary} {v x : Value}

theorem isTree (h : s.DescribedBy v) : v.isTree = true := by
  obtain ⟨fields, rfl, name, parent, written⟩ := h
  simp [SchemaSummary.entries, Value.ofFields, Value.isTree, entriesTrees, entryTree,
    Value.text?, Value.fresh, name, parent, allTrees_of_descriptions written]

theorem isShort (h : s.DescribedBy v) : v.isShort = s.isShort := by
  obtain ⟨fields, rfl, -, -, written⟩ := h
  simp [SchemaSummary.entries, Value.ofFields, Value.isShort, entriesShort, entryShort,
    Value.fresh, SchemaSummary.isShort, allShort_of_descriptions written, Bool.and_assoc]

/-- Two schemas are described by the same data just if they say the same. -/
theorem same_iff (h : s.DescribedBy v) (h' : t.DescribedBy x) : SameData v x ↔ s.Same t := by
  obtain ⟨fields, rfl, -, -, written⟩ := h
  obtain ⟨fields', rfl, -, -, written'⟩ := h'
  constructor
  · intro same
    have under : ∀ key, ∀ a ∈ Table.get? (s.entries fields) key,
        ∀ b ∈ Table.get? (t.entries fields') key, SameData a b := by
      intro key a found b found'
      obtain ⟨c, there, alike⟩ := same.get? (by simp [SchemaSummary.entries, Table.keys])
        (by simp [SchemaSummary.entries, Table.keys]) found
      rwa [Option.some.inj (found'.symm.trans there)]
    refine ⟨under "collection_name" _ rfl _ rfl, under "parent_schema" _ rfl _ rfl, ?_⟩
    cases under "fields" _ rfl _ rfl with
    | list _ _ items => exact (sameItems_of_descriptions written written').mp items
  · rintro ⟨name, parent, items⟩
    exact .dict 0 0 (.cons name (.cons parent (.cons
      (.list 0 0 ((sameItems_of_descriptions written written').mpr items)) .nil))) (.refl _)

end SchemaSummary.DescribedBy

/-! ## The hashed text -/

/-- The text that is hashed is the canonical text of what describes the schema. -/
theorem exec_hashedText {s : Nat} (h : w.Documented s) : ∃ description,
    (w.summary s).DescribedBy description ∧
      exec (hashedText d s) w = (Json.text .compact description, w) := by
  obtain ⟨fields, run, written⟩ := exec_describeSchema d h
  have describes : (w.summary s).DescribedBy (.ofFields ((w.summary s).entries fields)) := by
    refine ⟨fields, rfl, h.collectionName, ?_, written⟩
    simp only [World.summary]
    cases above : (w.schema s).parent with
    | none => rfl
    | some p => exact isTree_shownName (h.parentName p above)
  refine ⟨_, describes, ?_⟩
  unfold hashedText
  rw [exec_bind_ok ((World.exec_orStandIn_of_bare d (show w.storedOn (.schema s) = [] from h.bare)
    ..).trans run), exec_bind_ok (exec_get w), canonicalText,
    World.settled_of_isTree describes.isTree]
  cases Json.text .compact (.ofFields ((w.summary s).entries fields)) <;> rfl

/-- A text is hashed for the fingerprint. -/
def World.Hashes (w : World) (s : Nat) (text : String) : Prop :=
  exec (hashedText d s) w = (.ok text, w) ∧
    exec (fingerprint d s) w = (.ok (fingerprintOf text), w)

/-- There is such a text, unless some integer is too long to be written. -/
theorem World.Documented.hashes_or_tooLong {s : Nat} (h : w.Documented s) :
    ((w.summary s).isShort = true ∧ ∃ text, w.Hashes d s text) ∨
      (w.summary s).isShort = false ∧ exec (fingerprint d s) w = (.error integerTooLong, w) := by
  obtain ⟨description, describes, run⟩ := exec_hashedText d h
  rw [← describes.isShort, fingerprint_eq]
  rcases Json.text_of_isTree describes.isTree with ⟨short, text, written⟩ | ⟨long, failed⟩
  · rw [written] at run
    exact .inl ⟨short, text, run, by rw [fingerprint_eq, exec_map, run]⟩
  · rw [failed] at run
    exact .inr ⟨long, by rw [exec_map, run]⟩

end Descriptions

/-- **The hashed text is a faithful account.** A schema whose names, labels and attributes are data
has a text, unless an integer in it is too long to be written. Two such schemas have the same text
just if they say the same. -/
theorem fingerprint_faithful (d₁ d₂ : Dispatch) {w₁ w₂ : World} {s₁ s₂ : Nat}
    (h₁ : w₁.Documented s₁) (h₂ : w₂.Documented s₂) :
    (((w₁.summary s₁).isShort = true ∧ ∃ text, w₁.Hashes d₁ s₁ text) ∨
      (w₁.summary s₁).isShort = false ∧
        exec (fingerprint d₁ s₁) w₁ = (.error integerTooLong, w₁)) ∧
    (((w₂.summary s₂).isShort = true ∧ ∃ text, w₂.Hashes d₂ s₂ text) ∨
      (w₂.summary s₂).isShort = false ∧
        exec (fingerprint d₂ s₂) w₂ = (.error integerTooLong, w₂)) ∧
    ∀ t₁ t₂, w₁.Hashes d₁ s₁ t₁ → w₂.Hashes d₂ s₂ t₂ →
      (t₁ = t₂ ↔ (w₁.summary s₁).Same (w₂.summary s₂)) := by
  refine ⟨h₁.hashes_or_tooLong d₁, h₂.hashes_or_tooLong d₂, fun t₁ t₂ hashes₁ hashes₂ => ?_⟩
  obtain ⟨v₁, describes₁, run₁⟩ := exec_hashedText d₁ h₁
  obtain ⟨v₂, describes₂, run₂⟩ := exec_hashedText d₂ h₂
  have text₁ : Json.text .compact v₁ = .ok t₁ := congrArg Prod.fst (run₁.symm.trans hashes₁.1)
  have text₂ : Json.text .compact v₂ = .ok t₂ := congrArg Prod.fst (run₂.symm.trans hashes₂.1)
  rw [Json.text_eq_iff describes₁.isTree describes₂.isTree text₁ text₂,
    describes₁.same_iff describes₂]

/-- A world with a schema of one field, which has an attribute that is a mapping. -/
def World.withNested (entries : List (String × Value)) : World :=
  afterSession (answering.dispatch 2)
    [.newRegistry, .define 0 (.define (bareDefinition "T" .null)),
     .compile 0 (.ofFields [("a", .ofFields [("type", .str "T"), ("k", .ofFields entries)])])
      .null .null] (.empty "" [])

/-- The summary of the schema. -/
def nestedSummary (entries : List (String × Value)) : SchemaSummary :=
  ⟨.null, .null, [⟨"a", .str "T", .str "A", false, false, [(.str "k", .ofFields entries)]⟩]⟩

/-- An integer and a list, in two orders, and a truth value in place of the integer. -/
def counted : List (String × Value) := [("x", .int 1), ("y", .fresh [.null])]

def recounted : List (String × Value) := [("y", .fresh [.null]), ("x", .int 1)]

def affirmed : List (String × Value) := [("x", .bool true), ("y", .fresh [.null])]

/-- The order of entries does not change the text, and a truth value is told from an integer. -/
theorem fingerprint_faithful_nested :
    (World.withNested counted).Documented 0 ∧ (World.withNested recounted).Documented 0 ∧
    (World.withNested affirmed).Documented 0 ∧
    ∃ text other, (World.withNested counted).Hashes (answering.dispatch 2) 0 text ∧
      (World.withNested recounted).Hashes (answering.dispatch 2) 0 text ∧
      (World.withNested affirmed).Hashes (answering.dispatch 2) 0 other ∧ text ≠ other := by
  have documents : (World.withNested counted).documents 0 = true ∧
      (World.withNested recounted).documents 0 = true ∧
      (World.withNested affirmed).documents 0 = true := by decide +kernel
  have summary : (World.withNested counted).summary 0 = nestedSummary counted := by rfl
  have summary₁ : (World.withNested recounted).summary 0 = nestedSummary recounted := by rfl
  have summary₂ : (World.withNested affirmed).summary 0 = nestedSummary affirmed := by rfl
  have h := World.documents_iff.mp documents.1
  have h₁ := World.documents_iff.mp documents.2.1
  have h₂ := World.documents_iff.mp documents.2.2
  obtain ⟨outcome, outcome₁, alike⟩ :=
    fingerprint_faithful (answering.dispatch 2) (answering.dispatch 2) h h₁
  obtain ⟨-, outcome₂, unlike⟩ :=
    fingerprint_faithful (answering.dispatch 2) (answering.dispatch 2) h h₂
  rw [summary, summary₁] at alike
  rw [summary, summary₂] at unlike
  have short : ((World.withNested counted).summary 0).isShort = true ∧
      ((World.withNested recounted).summary 0).isShort = true ∧
      ((World.withNested affirmed).summary 0).isShort = true := by decide +kernel
  obtain ⟨-, text, hashes⟩ := outcome.resolve_right fun long => by cases short.1.symm.trans long.1
  obtain ⟨-, text₁, hashes₁⟩ :=
    outcome₁.resolve_right fun long => by cases short.2.1.symm.trans long.1
  obtain ⟨-, other, hashes₂⟩ :=
    outcome₂.resolve_right fun long => by cases short.2.2.symm.trans long.1
  have same : (nestedSummary counted).Same (nestedSummary recounted) := by
    refine ⟨.null, .null, .cons ⟨rfl, .str _, .str _, rfl, rfl, ?_⟩ .nil⟩
    refine .dict 0 0 (.cons (.dict 0 0 ?_ (.swap _ _ [])) .nil) (.refl _)
    exact .cons (.int 1) (.cons (.list 0 0 (.cons .null .nil)) .nil)
  have differ : ¬ (nestedSummary counted).Same (nestedSummary affirmed) := by
    rintro ⟨-, -, fields⟩
    have attributes : SameData (.ofFields [("k", .ofFields counted)])
        (.ofFields [("k", .ofFields affirmed)]) := (List.forall₂_cons.mp fields).1.attributes
    obtain ⟨v, there, nested⟩ := attributes.get? (k := "k") (by decide) (by decide) rfl
    obtain rfl : .ofFields affirmed = v := Option.some.inj there
    obtain ⟨x, found, kind⟩ := nested.get? (k := "x") (by decide) (by decide) rfl
    obtain rfl : Value.bool true = x := Option.some.inj found
    cases kind
  obtain rfl : text = text₁ := (alike _ _ hashes hashes₁).mpr same
  exact ⟨h, h₁, h₂, text, other, hashes, hashes₁, hashes₂,
    fun equal => differ ((unlike _ _ hashes hashes₂).mp equal)⟩

end DataShape
