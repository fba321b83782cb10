import DataShape.Proofs.Catalog.Kind
import DataShape.Proofs.Registry.Cycle
import DataShape.Proofs.Registry.Installing

/-! # Seeding the catalog

A definition of a new name in a plain world adds one type and changes no other. So the catalog can
be followed definition by definition, whatever the functions of providers are: seeding an empty
registry never fails, every type of the catalog is of its kind then, and all schemas are as they
were.

* `World.KeepsSchemas` — worlds with the same schemas and fields.
* `World.Gains` — one more type, under its own name.
* `exec_defineType_new` — what the definition of a new name does.
* `World.Seeded` — a registry that holds given names, with types of given kinds.
* `World.Inherits` — types that take the kind of a known one over.
* `seedCatalog_seeded` — the catalog. -/

namespace DataShape

/-! ## One more type -/

/-- A type with one more capability. -/
def TypeNode.withCapability (node : TypeNode) (slot : String) (c : Capability) : TypeNode :=
  { node with capabilities := node.capabilities.insert (.str slot) c.toValue }

namespace World

/-- Two worlds have the same schemas and fields, and containers are shared in the same way. -/
structure KeepsSchemas (w w' : World) : Prop where
  schemas : w'.schemas = w.schemas
  fields : w'.fields = w.fields
  sharedParts : w'.sharedParts = w.sharedParts

theorem KeepsSchemas.refl (w : World) : w.KeepsSchemas w := ⟨rfl, rfl, rfl⟩

theorem KeepsSchemas.trans {u v w : World} (first : u.KeepsSchemas v) (second : v.KeepsSchemas w) :
    u.KeepsSchemas w :=
  ⟨second.schemas.trans first.schemas, second.fields.trans first.fields,
    second.sharedParts.trans first.sharedParts⟩

/-- A world with one more type, registered under its own name; the types that were there are as they
were, and so are all schemas. -/
structure Gains (w w' : World) (r : Nat) (node : TypeNode) : Prop where
  size : w'.types.size = w.types.size + 1
  old : ∀ i < w.types.size, w'.type i = w.type i
  new : w'.type w.types.size = node
  registered : (w'.registry r).types = (w.registry r).types ++ [(node.name, w.types.size)]
  registries : w'.registries.size = w.registries.size
  plain : w'.Plain
  keeps : w.KeepsSchemas w'

theorem registry_register {w : World} {r : Nat} (inside : r < w.registries.size)
    (node : TypeNode) : ((w.register r node).registry r).types
      = (w.registry r).types.insert node.name w.types.size := by
  unfold register
  rw [registry_modifyRegistry, if_pos ⟨rfl, inside⟩]
  rfl

/-- To register a type of a new name. -/
theorem Plain.gains_register {w : World} (plain : w.Plain) {r : Nat}
    (inside : r < w.registries.size) {node : TypeNode} (stored : node.stored = [])
    (fresh : w.typeNamed? r node.name = none) : w.Gains (w.register r node) r node where
  size := Array.size_push ..
  old i h := by rw [type_register, if_neg (Nat.ne_of_lt h)]
  new := by rw [type_register, if_pos rfl]
  registered := by rw [registry_register inside, Table.insert_of_get?_eq_none fresh]
  registries := Array.size_modify
  plain := by
    refine ⟨fun i => ?_, plain.fields, plain.schemas⟩
    rw [type_register]
    split
    · exact stored
    · exact plain.types i
  keeps := ⟨rfl, rfl, rfl⟩

namespace Gains

variable {w w' : World} {r : Nat} {node : TypeNode} (gains : w.Gains w' r node)

include gains

/-- A log record makes no difference. -/
theorem logged (origin : LogOrigin) (level : LogLevel) (text : String) :
    ∃ w'', exec (writeLog origin level text) w' = (.ok ⟨⟩, w'') ∧ w.Gains w'' r node ∧
      w''.nextIdentity = w'.nextIdentity := by
  refine ⟨_, rfl, ?_⟩
  dsimp only
  split
  · split
    · exact ⟨⟨gains.size, gains.old, gains.new, gains.registered, gains.registries,
        ⟨gains.plain.types, gains.plain.fields, gains.plain.schemas⟩,
        gains.keeps.trans ⟨rfl, rfl, rfl⟩⟩, rfl⟩
    · exact ⟨gains, rfl⟩
  · exact ⟨gains, rfl⟩

/-- A conversion that is installed on the new type is its own. -/
theorem converting (call : Provider) (depth : Nat) (slot : String) (m : Marshaller) :
    ∃ w'', exec (installMarshaller (call.dispatch (depth + 1)) w.types.size slot m.toValue) w'
        = (.ok ⟨⟩, w'') ∧
      w.Gains w'' r (node.withCapability slot (m.capability slot w'.nextIdentity)) ∧
      w''.nextIdentity = w'.nextIdentity + 1 := by
  have plain : World.Plain { w' with nextIdentity := w'.nextIdentity + 1 } :=
    ⟨gains.plain.types, gains.plain.fields, gains.plain.schemas⟩
  have identity : exec newIdentity w'
      = (.ok w'.nextIdentity, { w' with nextIdentity := w'.nextIdentity + 1 }) := rfl
  have run : exec (installMarshaller (call.dispatch (depth + 1)) w.types.size slot
      m.toValue) w' = (.ok ⟨⟩, World.modifyType { w' with nextIdentity := w'.nextIdentity + 1 }
        w.types.size (·.withCapability slot (m.capability slot w'.nextIdentity))) := by
    unfold installMarshaller
    rw [if_neg (show ¬ m.toValue.isNull = true from Bool.false_ne_true), exec_bind_ok identity]
    exact exec_giveCapability call depth plain w.types.size rfl
  refine ⟨_, run, ⟨?_, fun i h => ?_, ?_, gains.registered, gains.registries,
    ⟨fun i => ?_, gains.plain.fields, gains.plain.schemas⟩, gains.keeps.trans ⟨rfl, rfl, rfl⟩⟩, rfl⟩
  · exact Array.size_modify.trans gains.size
  · rw [type_modifyType, if_neg (by omega)]
    exact gains.old i h
  · rw [type_modifyType, if_pos ⟨rfl, by rw [gains.size]; omega⟩]
    exact congrArg (TypeNode.withCapability · slot (m.capability slot w'.nextIdentity)) gains.new
  · rw [type_modifyType]
    split
    · exact gains.plain.types _
    · exact gains.plain.types i

end Gains

end World

/-! ## A definition of a new name -/

/-- The table of a type on which two conversions were installed, one after the other. -/
def Marshaller.tableOf (conversions : Option (Marshaller × Marshaller)) (identity : Nat) :
    CapabilityTable :=
  conversions.elim [] fun c =>
    [(.str "to_string", (c.1.capability "to_string" identity).toValue),
      (.str "from_string", (c.2.capability "from_string" (identity + 1)).toValue)]

section Definition

variable {w : World} {r : Nat}

/-- The type of a new name is created with the attributes and the base that it is given. -/
theorem exec_createType_new (plain : w.Plain) (inside : r < w.registries.size)
    {definition : TypeDefinition} {name : String} (named : definition.name = .str name)
    (given : name.isEmpty = false) (fresh : w.typeNamed? r name = none) {entries : Entries}
    (attributes : definition.attributes = .freshDict entries) (base : Option Nat)
    (d : Dispatch) :
    ∃ w', exec (createType d r base definition) w = (.ok w.types.size, w') ∧
      w.Gains w' r ⟨name, base, Table.update [] entries, [], []⟩ ∧
      w'.nextIdentity = w.nextIdentity := by
  obtain ⟨node, same⟩ : ∃ node : TypeNode, node = ⟨name, base, Table.update [] entries, [], []⟩ :=
    ⟨_, rfl⟩
  have made : exec (makeType d definition.name definition.attributes (base.elim .null .type)) w
      = (.ok w.types.size, { w with types := w.types.push node }) := by
    rw [named, attributes, makeType_of_name given, same]
    cases entries <;> rfl
  have type : World.type { w with types := w.types.push node } w.types.size = node := by
    rw [World.type]
    simp
  have gains : w.Gains (w.register r node) r node :=
    plain.gains_register inside (by rw [same]) (by rw [same]; exact fresh)
  rw [← same]
  unfold createType
  rw [exec_bind_ok made, exec_bind_ok (exec_get _), type, exec_bind_ok (exec_modify ..)]
  -- What is logged differs with the base, but the log is all that it changes.
  have logged : ∀ text, ∃ w', exec (do writeLog .registry .debug text; return w.types.size)
      (w.register r node) = (.ok w.types.size, w') ∧ w.Gains w' r node ∧
        w'.nextIdentity = w.nextIdentity := by
    intro text
    obtain ⟨w', run, gains', kept⟩ := gains.logged .registry .debug text
    exact ⟨w', exec_bind_ok run _, gains', kept⟩
  cases base with
  | none => exact logged _
  | some b =>
    have name := gains.plain.typeName b
    rw [World.register] at name
    rw [exec_bind_ok (exec_get _), name, textOf_str]
    exact logged _

/-- Conversions are installed on a new type one after the other. -/
theorem World.Gains.convertingBoth {w' : World} {node : TypeNode} (gains : w.Gains w' r node)
    (call : Provider) (depth : Nat) (bare : node.capabilities = []) (conversions : Option (Marshaller × Marshaller)) :
    ∃ w'', exec (do
        installMarshaller (call.dispatch (depth + 1)) w.types.size "to_string"
          (conversions.elim .null fun c => c.1.toValue)
        installMarshaller (call.dispatch (depth + 1)) w.types.size "from_string"
          (conversions.elim .null fun c => c.2.toValue)
        return w.types.size) w' = (.ok w.types.size, w'') ∧
      ∃ n, w.Gains w'' r { node with capabilities := Marshaller.tableOf conversions n } := by
  cases conversions with
  | none => exact ⟨w', rfl, 0, by rwa [Marshaller.tableOf, Option.elim_none, ← bare]⟩
  | some c =>
    obtain ⟨w₁, first, gains₁, next⟩ := gains.converting call depth "to_string" c.1
    obtain ⟨w₂, second, gains₂, -⟩ := gains₁.converting call depth "from_string" c.2
    refine ⟨w₂, ?_, w'.nextIdentity, ?_⟩
    · rw [Option.elim_some, Option.elim_some, exec_bind_ok first, exec_bind_ok second]
      rfl
    · rw [next] at gains₂
      obtain ⟨name, base, attributes, capabilities, stored⟩ := node
      obtain rfl : capabilities = [] := bare
      exact gains₂

/-- **Definition of a new name.** It gives the next type, with the attributes, the base and the
conversions that the definition names. -/
theorem exec_defineType_new (call : Provider) (depth : Nat) (plain : w.Plain)
    (sound : w.SoundRegistry r) (inside : r < w.registries.size) {definition : TypeDefinition} {name : String}
    (named : definition.name = .str name) (given : name.isEmpty = false)
    (fresh : w.typeNamed? r name = none) {entries : Entries}
    (attributes : definition.attributes = .freshDict entries) {base : Option Nat}
    (based : definition.base = .null ∧ base = none ∨
      ∃ b, w.BaseNamed r definition.base b ∧ base = some b)
    (conversions : Option (Marshaller × Marshaller))
    (toText : definition.toText = conversions.elim .null fun c => c.1.toValue)
    (fromText : definition.fromText = conversions.elim .null fun c => c.2.toValue) :
    ∃ w' n, exec (defineType (call.dispatch (depth + 1)) r definition) w
        = (.ok w.types.size, w') ∧
      w.Gains w' r
        ⟨name, base, Table.update [] entries, Marshaller.tableOf conversions n, []⟩ := by
  obtain ⟨w₁, created, gains, -⟩ := exec_createType_new plain inside named given fresh attributes
    base (call.dispatch (depth + 1))
  obtain ⟨w₂, installed, n, gains₂⟩ := gains.convertingBoth call depth rfl conversions
  have looked : exec (findType? r definition.name) w = (.ok none, w) := by
    rw [named, exec_findType? rfl, ← fresh]
    rfl
  have conversion : ∀ f : Marshaller × Marshaller → Marshaller,
      (conversions.elim Value.null fun c => (f c).toValue).isConversion = true := by
    intro f
    cases conversions <;> rfl
  have rest : exec (do
      let id ← createType (call.dispatch (depth + 1)) r base definition
      installMarshaller (call.dispatch (depth + 1)) id "to_string" definition.toText
      installMarshaller (call.dispatch (depth + 1)) id "from_string" definition.fromText
      return id) w = (.ok w.types.size, w₂) := by
    rw [exec_bind_ok created, toText, fromText]
    exact installed
  refine ⟨w₂, n, ?_, gains₂⟩
  unfold defineType
  rw [exec_bind_ok (exec_checkMarshaller (toText ▸ conversion Prod.fst)),
    exec_bind_ok (exec_checkMarshaller (fromText ▸ conversion Prod.snd))]
  rcases based with ⟨none, rfl⟩ | ⟨b, based, rfl⟩
  · rw [if_pos (by rw [none]; rfl)]
    exact (exec_bind_ok looked _).trans rest
  · -- a name that is not registered does not occur in the lineage of a registered type
    have apart : name ∉ (w.lineage b).map fun t => (w.type t).name := by
      intro there
      have listed := (sound.lineage_names_sublist based.registered).subset there
      exact Table.get?_eq_none_iff.mp fresh (List.mem_reverse.mp listed)
    have resolved : exec (some <$> resolveBase (call.dispatch (depth + 1)) r definition.name
        definition.base) w = (.ok (some b), w) := by
      rw [named, exec_map, exec_resolveBase_of_not_derives plain based apart]
    rw [if_neg (by rw [based.isNull_eq_false]; exact Bool.false_ne_true), exec_bind_ok resolved]
    exact (exec_bind_ok looked _).trans rest

end Definition

/-! ## Seeded registries -/

namespace World

/-- A registry that holds types under given names, each of a given kind. -/
structure Seeded (w : World) (r : Nat) (known : List (String × CatalogKind)) : Prop where
  plain : w.Plain
  sound : w.SoundRegistry r
  inside : r < w.registries.size
  names : w.typeNames r = known.map Prod.fst
  kinds : ∀ e ∈ known, ∃ t, w.typeNamed? r e.1 = some t ∧ w.Marshals t e.2

/-- An empty registry of a plain world holds nothing yet. -/
theorem Seeded.of_empty {w : World} {r : Nat} (plain : w.Plain) (inside : r < w.registries.size)
    (empty : (w.registry r).types = []) : w.Seeded r [] where
  plain := plain
  sound := .of_empty empty
  inside := inside
  names := by rw [typeNames, empty]; rfl
  kinds := nofun

section Step

variable {w w' : World} {r : Nat} {known : List (String × CatalogKind)} {node : TypeNode}
  {k : CatalogKind}

theorem Gains.sound (gains : w.Gains w' r node) (sound : w.SoundRegistry r)
    (fresh : w.typeNamed? r node.name = none) (based : ∀ b, node.base = some b → b ∈ w.typesOf r) :
    w'.SoundRegistry r :=
  sound.of_appended gains.size gains.old gains.new fresh based gains.registered

theorem Gains.typesOf (gains : w.Gains w' r node) : w'.typesOf r = w.typesOf r ++ [w.types.size] := by
  rw [World.typesOf, gains.registered, Table.values, List.map_append]
  rfl

/-- The registry grew. -/
theorem Gains.grown (gains : w.Gains w' r node) (sound' : w'.SoundRegistry r) : w.Grown r w' where
  plain := gains.plain
  sound := sound'
  size := Nat.le.intro gains.size.symm
  name i there := congrArg TypeNode.name (gains.old i there)
  base i there := congrArg TypeNode.base (gains.old i there)
  places := gains.registered ▸ List.prefix_append ..

/-- The types that were there are of the kinds that they were of. -/
theorem Gains.marshals_old (gains : w.Gains w' r node) (sound : w.SoundRegistry r)
    (sound' : w'.SoundRegistry r) {t : Nat} (registered : t ∈ w.typesOf r)
    (given : w.Marshals t k) : w'.Marshals t k := by
  refine given.of_same ((gains.grown sound').lineage sound registered) fun i there => ?_
  exact gains.old i (sound.inside (sound.mem_of_mem_lineage registered there))

/-- One more type of a new name that is of a kind. -/
theorem Seeded.gains (seeded : w.Seeded r known) (gains : w.Gains w' r node)
    (fresh : w.typeNamed? r node.name = none) (based : ∀ b, node.base = some b → b ∈ w.typesOf r)
    (kind : w'.Marshals w.types.size k) : w'.Seeded r (known ++ [(node.name, k)]) := by
  have sound' := gains.sound seeded.sound fresh based
  have new : w'.typeNamed? r node.name = some w.types.size := by
    rw [typeNamed?, Table.get?_eq_some_iff sound'.distinct, gains.registered]
    exact List.mem_append_right _ List.mem_cons_self
  refine ⟨gains.plain, sound', gains.registries ▸ seeded.inside, ?_, fun e there => ?_⟩
  · rw [typeNames, gains.registered, Table.keys, List.map_append, List.map_append, ← seeded.names]
    rfl
  · rw [List.mem_append, List.mem_singleton] at there
    rcases there with there | rfl
    · obtain ⟨t, found, given⟩ := seeded.kinds e there
      have registered : t ∈ w.typesOf r := Table.mem_values_of_get? found
      refine ⟨t, ?_, gains.marshals_old seeded.sound sound' registered given⟩
      rw [typeNamed?, Table.get?_eq_some_iff sound'.distinct, gains.registered]
      exact List.mem_append_left _ ((Table.get?_eq_some_iff seeded.sound.distinct).mp found)
    · exact ⟨_, new, kind⟩

end Step

/-! ## Types that inherit from known ones -/

/-- A type descends from another one through types that set neither a native representation nor a
reader. -/
inductive Inherits (w : World) : Nat → Nat → Prop where
  | self (t : Nat) : Inherits w t t
  | derived {t b c : Nat} (base : (w.type t).base = some b)
      (native : Table.get? (w.type t).attributes (.str "py_type") = none)
      (reader : (w.type t).ownMember? (.str "from_string") = none)
      (further : Inherits w b c) : Inherits w t c

/-- A registered type is of the kind of the type that it inherits from, by induction on the descent:
the bases on the way are registered too. -/
theorem SoundRegistry.hasKind_of_inherits {w : World} {r : Nat} (sound : w.SoundRegistry r)
    {t c : Nat} (inherits : w.Inherits t c) (registered : t ∈ w.typesOf r) {k : CatalogKind}
    (kind : w.HasKind c k) : w.HasKind t k := by
  induction inherits with
  | self => exact kind
  | @derived t b c base native reader _ ih =>
    have line := sound.lineage_eq registered
    rw [base, Option.elim_some] at line
    obtain ⟨before, after, split⟩ := List.append_of_mem registered
    have earlier : b ∈ w.typesOf r := by
      rw [split]
      exact List.mem_append_left _ (sound.based _ _ _ split b base)
    exact .of_base line native reader (ih earlier kind)

end World

/-! ## Definitions of the catalog -/

/-- What an action makes of a seeded registry: it succeeds, the registry holds more names, and all
schemas are as they were. -/
def Seeds (r : Nat) (a : Action Unit) (known more : List (String × CatalogKind)) : Prop :=
  ∀ w : World, w.Seeded r known →
    ∃ w', exec a w = (.ok ⟨⟩, w') ∧ w'.Seeded r (known ++ more) ∧ w.KeepsSchemas w'

section Seeds

variable {r : Nat} {known m m' : List (String × CatalogKind)}

theorem Seeds.bind {a b : Action Unit} (first : Seeds r a known m)
    (second : Seeds r b (known ++ m) m') :
    Seeds r (do a; b) known (m ++ m') := by
  intro w seeded
  obtain ⟨w₁, run, seeded₁, keeps⟩ := first w seeded
  obtain ⟨w₂, run', seeded₂, keeps'⟩ := second w₁ seeded₁
  exact ⟨w₂, by rw [exec_bind_ok run, run'], by rwa [← List.append_assoc], keeps.trans keeps'⟩

/-- A loop whose steps each define a new name. By induction on the items; what was known before the
loop is known before each step. -/
theorem Seeds.forM {α : Type} {f : α → Action Unit} {entry : α → String × CatalogKind}
    (items : List α)
    (step : ∀ x ∈ items, ∀ before, known ⊆ before → (entry x).1 ∉ before.map Prod.fst →
      Seeds r (f x) before [entry x]) (distinct : ((known ++ items.map entry).map Prod.fst).Nodup) :
    Seeds r (items.forM f) known (items.map entry) := by
  induction items generalizing known with
  | nil =>
    intro w seeded
    exact ⟨w, rfl, by simpa using seeded, .refl w⟩
  | cons x rest ih =>
    have fresh : (entry x).1 ∉ known.map Prod.fst := by
      rw [List.map_append, List.nodup_append] at distinct
      intro there
      exact distinct.2.2 _ there _ (by simp) rfl
    have tail : Seeds r (rest.forM f) (known ++ [entry x]) (rest.map entry) := by
      refine ih (fun y there before inside => ?_) (by simpa using distinct)
      exact step y (List.mem_cons_of_mem x there) before fun e member =>
        inside (List.mem_append_left _ member)
    exact (step x List.mem_cons_self known (fun _ h => h) fresh).bind tail

theorem World.Seeded.typeNamed?_eq_none {w : World} (seeded : w.Seeded r known) {name : String}
    (fresh : name ∉ known.map Prod.fst) : w.typeNamed? r name = none := by
  rw [World.typeNamed?, Table.get?_eq_none_iff]
  show name ∉ w.typeNames r
  rwa [seeded.names]

/-- The base of a definition is none, or a known name that leads to a type of its kind. -/
theorem World.Seeded.exists_base {w : World} (seeded : w.Seeded r known) {base : Value}
    (h : base = .null ∨ ∃ e ∈ known, base = .str e.1) : ∃ b : Option Nat,
      (base = .null ∧ b = none ∨ ∃ i, w.BaseNamed r base i ∧ b = some i) ∧
      (base = .null → b = none) ∧
      ∀ e ∈ known, base = .str e.1 → ∃ i, b = some i ∧ i ∈ w.typesOf r ∧ w.Marshals i e.2 := by
  rcases h with rfl | ⟨e, there, rfl⟩
  · exact ⟨none, .inl ⟨rfl, rfl⟩, fun _ => rfl, nofun⟩
  · obtain ⟨i, found, -⟩ := seeded.kinds e there
    refine ⟨some i, .inr ⟨i, .name found, rfl⟩, nofun, fun e' there' same => ?_⟩
    -- two known entries of one name stand for the same type
    obtain ⟨i', found', marshals⟩ := seeded.kinds e' there'
    have names : e.1 = e'.1 := Value.str.inj same
    rw [← names, found] at found'
    obtain rfl := Option.some.inj found'
    exact ⟨i, rfl, Table.mem_values_of_get? found, marshals⟩

/-- A definition of a new name, whose base is none or known, seeds one type. Of which kind it is
follows from what it sets and, if it has a base, from the kind of the base. -/
theorem seeds_define (call : Provider) (depth : Nat) {definition : TypeDefinition} {name : String}
    (named : definition.name = .str name) (given : name.isEmpty = false)
    (fresh : name ∉ known.map Prod.fst) {entries : Entries}
    (attributes : definition.attributes = .freshDict entries)
    (base : definition.base = .null ∨ ∃ e ∈ known, definition.base = .str e.1)
    (conversions : Option (Marshaller × Marshaller))
    (toText : definition.toText = conversions.elim .null fun c => c.1.toValue)
    (fromText : definition.fromText = conversions.elim .null fun c => c.2.toValue)
    {k : CatalogKind}
    (kind : ∀ (w : World) (t n : Nat) (b : Option Nat),
      w.type t = ⟨name, b, Table.update [] entries, Marshaller.tableOf conversions n, []⟩ →
      w.lineage t = t :: b.elim [] w.lineage → (definition.base = .null → b = none) →
      (∀ e ∈ known, definition.base = .str e.1 → ∃ i, b = some i ∧ w.Marshals i e.2) →
      w.Marshals t k) :
    Seeds r (discard (defineType (call.dispatch (depth + 1)) r definition)) known [(name, k)] := by
  intro w seeded
  have unknown := seeded.typeNamed?_eq_none fresh
  obtain ⟨b, based, without, from'⟩ := seeded.exists_base base
  obtain ⟨w', n, run, gains⟩ := exec_defineType_new call depth seeded.plain seeded.sound
    seeded.inside named given unknown attributes based conversions toText fromText
  have registered : ∀ i, b = some i → i ∈ w.typesOf r := by
    rintro i rfl
    rcases based with ⟨-, none⟩ | ⟨i', base, same⟩
    · cases none
    · exact Option.some.inj same ▸ base.registered
  have sound' := gains.sound seeded.sound unknown registered
  have here : w.types.size ∈ w'.typesOf r := by
    rw [gains.typesOf]
    exact List.mem_append_right _ List.mem_cons_self
  -- The lineage of the new type is the type and that of its base, from which its kind follows.
  have line := sound'.lineage_eq here
  rw [gains.new] at line
  have marshals : w'.Marshals w.types.size k := by
    refine kind w' _ n b gains.new line without fun e there same => ?_
    obtain ⟨i, given, known, marshals⟩ := from' e there same
    exact ⟨i, given, gains.marshals_old seeded.sound sound' known marshals⟩
  exact ⟨w', by rw [exec_discard_eq, run], seeded.gains gains unknown registered marshals,
    gains.keeps⟩

end Seeds

/-! ## Entries of the catalog -/

section Entries

variable {r : Nat} {known : List (String × CatalogKind)} (call : Provider) (depth : Nat)
  {name : String} {k : CatalogKind}

/-- The attributes of an entry of the catalog, behind the implied ones. -/
def entryAttributes (implied : Entries) (attributes : List (String × Value)) : Entries :=
  Table.update implied (attributes.map fun f => (.str f.1, f.2))

theorem addAttributes_ofFields (d : Dispatch) (implied : Entries)
    (attributes : List (String × Value)) : addAttributes d implied (.ofFields attributes)
      = pure (.freshDict (entryAttributes implied attributes)) := by
  cases attributes <;> rfl

/-! The definers of the catalog come to definitions with the attributes that they imply. -/

section Definers

variable (d : Dispatch) (r : Nat) (attributes : List (String × Value)) (base : String)
  (c : Option (Marshaller × Marshaller))

theorem defineNative_catalogEntry (representation : Value) (name : String) :
    defineNative d r representation (catalogEntry name attributes none c)
      = defineType d r { catalogEntry name attributes none c with
          attributes := .freshDict (entryAttributes [(.str "py_type", representation)] attributes)
          base := .null } := by
  show addAttributes d _ (.ofFields attributes) >>= _ = _
  rw [addAttributes_ofFields, pure_bind]

theorem defineObject_catalogEntry (t : NativeType) (name : String) :
    defineObject d r (.native t) (catalogEntry name attributes (some base) c)
      = defineType d r { catalogEntry name attributes (some base) c with
          attributes := .freshDict (entryAttributes [(.str "py_type", .native t),
            (.str "py_class_name", .str t.name)] attributes) } := by
  show addAttributes d _ (.ofFields attributes) >>= _ = _
  rw [addAttributes_ofFields, pure_bind]

/-- The options of an enumerated type of the catalog. -/
def optionsOf (s : String) : List EnumOption :=
  (Enumeration.parse (Text.quoted s) s).toOption.getD []

/-- All option texts of the catalog can be parsed. -/
theorem parse_enumeratedTypes {e : String × String × String} (there : e ∈ enumeratedTypes) :
    Enumeration.parse (Text.quoted e.2.1) e.2.1 = .ok (optionsOf e.2.1) := by
  have isOk : ∀ e ∈ enumeratedTypes,
      (Enumeration.parse (Text.quoted e.2.1) e.2.1).isOk = true := by decide +kernel
  have parsed := isOk e there
  unfold optionsOf
  cases run : Enumeration.parse (Text.quoted e.2.1) e.2.1 with
  | ok options => rfl
  | error cause =>
    rw [run] at parsed
    cases parsed

theorem defineEnumeration_catalogEntry {e : String × String × String}
    (there : e ∈ enumeratedTypes) :
    defineEnumeration d r (.str e.2.1) (catalogEntry e.1 [] (some e.2.2) none)
      = defineType d r { catalogEntry e.1 [] (some e.2.2) none with
          attributes := .freshDict
            [(.str "enum_values", .tuple ((optionsOf e.2.1).map .option))] } := by
  have read : readOptions d (.str e.2.1) = pure (optionsOf e.2.1) := by
    unfold readOptions
    dsimp only
    rw [parse_enumeratedTypes there]
  have added := addAttributes_ofFields d
    [(.str "enum_values", .tuple ((optionsOf e.2.1).map .option))] []
  unfold defineEnumeration
  rw [if_neg (show ¬ (catalogEntry e.1 [] (some e.2.2) none).base.isNull = true from
    Bool.false_ne_true), read, pure_bind]
  show addAttributes d _ (.ofFields []) >>= _ = _
  rw [added, pure_bind]
  rfl

end Definers

/-- What is installed on a new type is its own, and without conversions it has its attributes only. -/
theorem TypeNode.ownMember?_tableOf (base : Option Nat) (entries : Entries) (n : Nat)
    (c : Marshaller × Marshaller) :
    (TypeNode.mk name base entries (Marshaller.tableOf (some c) n) []).ownMember?
        (.str "to_string") = some (c.1.capability "to_string" n).toValue ∧
    (TypeNode.mk name base entries (Marshaller.tableOf (some c) n) []).ownMember?
        (.str "from_string") = some (c.2.capability "from_string" (n + 1)).toValue :=
  ⟨rfl, rfl⟩

/-- A type with a representation and conversions of its own is of their kind. -/
theorem seeds_own {definition : TypeDefinition} (named : definition.name = .str name)
    (given : name.isEmpty = false) (fresh : name ∉ known.map Prod.fst) {entries : Entries}
    (attributes : definition.attributes = .freshDict entries)
    (base : definition.base = .null ∨ ∃ e ∈ known, definition.base = .str e.1)
    (native : Table.get? (Table.update [] entries) (.str "py_type") = some k.representation)
    {c : Marshaller × Marshaller} (conversions : k.conversions? = some c)
    (toText : definition.toText = c.1.toValue) (fromText : definition.fromText = c.2.toValue) :
    Seeds r (discard (defineType (call.dispatch (depth + 1)) r definition)) known [(name, k)] := by
  refine seeds_define call depth named given fresh attributes base (some c) toText fromText
    fun w t n b node line _ _ => ⟨⟨?_, ?_⟩, ?_⟩
  · rw [line, World.attributeAlong?, List.findSome?_cons, node, native]
  · rw [CatalogKind.reader?, conversions]
    refine .of_own (n := n + 1) ?_
    rw [node]
    exact (TypeNode.ownMember?_tableOf b _ n c).2
  · rw [CatalogKind.writer?, conversions]
    refine .of_own (n := n) ?_
    rw [node]
    exact (TypeNode.ownMember?_tableOf b _ n c).1

/-- A type that sets nothing of this is of the kind of its base. -/
theorem seeds_derived {definition : TypeDefinition} (named : definition.name = .str name)
    (given : name.isEmpty = false) (fresh : name ∉ known.map Prod.fst) {entries : Entries}
    (attributes : definition.attributes = .freshDict entries) {e : String × CatalogKind}
    (there : e ∈ known) (base : definition.base = .str e.1) (kind : e.2 = k)
    (silent : ∀ slot ∈ ["py_type", "from_string", "to_string"],
      Table.get? (Table.update [] entries) (.str slot) = none)
    (toText : definition.toText = .null) (fromText : definition.fromText = .null) :
    Seeds r (discard (defineType (call.dispatch (depth + 1)) r definition)) known [(name, k)] := by
  refine seeds_define call depth named given fresh attributes (.inr ⟨e, there, base⟩) none toText
    fromText fun w t n b node line _ based => ?_
  obtain ⟨i, rfl, marshals⟩ := based e there base
  rw [kind] at marshals
  have own : ∀ slot ∈ ["py_type", "from_string", "to_string"],
      (w.type t).ownMember? (.str slot) = none := by
    intro slot member
    rw [node]
    exact silent slot member
  refine ⟨.of_base line ?_ (own _ (by simp)) marshals.toHasKind, .of_base line (own _ (by simp))
    marshals.writer⟩
  rw [node]
  exact silent _ (by simp)

/-- A type without a base and without conversions, whose attributes have none either. -/
theorem seeds_bare {definition : TypeDefinition} (named : definition.name = .str name)
    (given : name.isEmpty = false) (fresh : name ∉ known.map Prod.fst) {entries : Entries}
    (attributes : definition.attributes = .freshDict entries) (base : definition.base = .null)
    (native : Table.get? (Table.update [] entries) (.str "py_type") = some k.representation)
    (conversions : k.conversions? = none)
    (silent : ∀ slot ∈ ["from_string", "to_string"],
      Table.get? (Table.update [] entries) (.str slot) = none)
    (toText : definition.toText = .null) (fromText : definition.fromText = .null) :
    Seeds r (discard (defineType (call.dispatch (depth + 1)) r definition)) known [(name, k)] := by
  refine seeds_define call depth named given fresh attributes (.inl base) none toText fromText
    fun w t n b node line without _ => ?_
  obtain rfl := without base
  have nothing : ∀ slot ∈ ["from_string", "to_string"], w.HasConversion t slot none := by
    intro slot member
    have own : (w.type t).ownMember? (.str slot) = none := by
      rw [node]
      exact silent slot member
    rw [World.HasConversion, line, World.memberAlong?, List.findSome?_cons, own]
    rfl
  refine ⟨⟨?_, ?_⟩, ?_⟩
  · rw [line, World.attributeAlong?, List.findSome?_cons, node, native]
  · rw [CatalogKind.reader?, conversions]
    exact nothing _ (by simp)
  · rw [CatalogKind.writer?, conversions]
    exact nothing _ (by simp)

end Entries

/-! ## The catalog -/

/-- The names of the primitive types, with their kinds. -/
def primitiveKinds : List (String × CatalogKind) :=
  [("String", .text), ("Number", .number), ("Boolean", .boolean), ("Object", .object)]

/-- The names of the types of dates and times, with their kinds. -/
def momentKinds : List (String × CatalogKind) :=
  [("DateTime", .dateTime), ("Date", .date), ("Time", .time)]

/-- The kinds of text, with their kind. -/
def textKinds : List (String × CatalogKind) := textTypeNames.map fun name => (name, .text)

/-- The kinds of number, with their kind. -/
def numberKinds : List (String × CatalogKind) := numberTypes.map fun e => (e.1, .number)

/-- The enumerated types, each of the kind of its base. -/
def enumeratedKinds : List (String × CatalogKind) :=
  enumeratedTypes.map fun e => (e.1, (primitiveKinds.lookup e.2.2).getD .object)

/-- The names of the catalog in the order of their definition, with their kinds. -/
def catalogKinds : List (String × CatalogKind) :=
  primitiveKinds ++ (momentKinds ++ (textKinds ++ (numberKinds ++ enumeratedKinds)))

section Catalog

variable (call : Provider) (depth : Nat) (r : Nat)

theorem seeds_primitives : Seeds r (seedPrimitives (call.dispatch (depth + 1)) r) [] primitiveKinds := by
  unfold seedPrimitives
  simp only [defineNative_catalogEntry]
  refine Seeds.bind (m := [("String", .text)]) ?_ <| Seeds.bind (m := [("Number", .number)]) ?_ <|
    Seeds.bind (m := [("Boolean", .boolean)]) ?_ ?_
  · exact seeds_own call depth rfl rfl (by decide) rfl (.inl rfl) rfl rfl rfl rfl
  · exact seeds_own call depth rfl rfl (by decide) rfl (.inl rfl) rfl rfl rfl rfl
  · exact seeds_own call depth rfl rfl (by decide) rfl (.inl rfl) rfl rfl rfl rfl
  · exact seeds_bare call depth rfl rfl (by decide) rfl rfl rfl rfl (by decide) rfl rfl

theorem seeds_moments :
    Seeds r (seedMoments (call.dispatch (depth + 1)) r) primitiveKinds momentKinds := by
  unfold seedMoments
  simp only [defineObject_catalogEntry]
  refine Seeds.bind (m := [("DateTime", .dateTime)]) ?_ <| Seeds.bind (m := [("Date", .date)]) ?_ ?_
  · exact seeds_own call depth rfl rfl (by decide) rfl
      (.inr ⟨("Object", .object), by decide, rfl⟩) rfl rfl rfl rfl
  · exact seeds_own call depth rfl rfl (by decide) rfl
      (.inr ⟨("DateTime", .dateTime), by decide, rfl⟩) rfl rfl rfl rfl
  · exact seeds_own call depth rfl rfl (by decide) rfl
      (.inr ⟨("DateTime", .dateTime), by decide, rfl⟩) rfl rfl rfl rfl

theorem seeds_texts : Seeds r (textTypeNames.forM fun name => do
      discard <| defineDerived (call.dispatch (depth + 1)) r "String"
        (catalogEntry name [] none none)) (primitiveKinds ++ momentKinds) textKinds := by
  have given : ∀ name ∈ textTypeNames, name.isEmpty = false := by decide
  refine .forM textTypeNames (fun name there before inside fresh => ?_) (by decide)
  exact seeds_derived call depth rfl (given name there) fresh rfl (e := ("String", .text))
    (inside (by decide)) rfl rfl (by decide) rfl rfl

theorem seeds_numbers : Seeds r (numberTypes.forM fun (name, precision) => do
      discard <| defineDerived (call.dispatch (depth + 1)) r "Number"
        (catalogEntry name [("precision", .int precision)] none none))
      (primitiveKinds ++ momentKinds ++ textKinds) numberKinds := by
  have given : ∀ e ∈ numberTypes, e.1.isEmpty = false := by decide
  have silent : ∀ e ∈ numberTypes, ∀ slot ∈ ["py_type", "from_string", "to_string"],
      Table.get? (Table.update [] [(Value.str "precision", Value.int e.2)]) (.str slot) = none := by
    decide
  refine .forM numberTypes (fun e there before inside fresh => ?_) (by decide)
  exact seeds_derived call depth rfl (given e there) fresh rfl (e := ("Number", .number))
    (inside (by decide)) rfl rfl (silent e there) rfl rfl

theorem seeds_enumerated : Seeds r (enumeratedTypes.forM fun (name, options, base) => do
      discard <| defineEnumeration (call.dispatch (depth + 1)) r (.str options)
        (catalogEntry name [] (some base) none))
      (primitiveKinds ++ momentKinds ++ textKinds ++ numberKinds) enumeratedKinds := by
  have given : ∀ e ∈ enumeratedTypes, e.1.isEmpty = false := by decide
  have based : ∀ e ∈ enumeratedTypes, ∃ b ∈ primitiveKinds, b.1 = e.2.2 ∧
      b.2 = (primitiveKinds.lookup e.2.2).getD .object := by decide
  refine .forM enumeratedTypes (fun e there before inside fresh => ?_) (by decide)
  obtain ⟨b, known, name, kind⟩ := based e there
  dsimp only
  rw [defineEnumeration_catalogEntry _ _ there]
  refine seeds_derived call depth rfl (given e there) fresh rfl (inside ?_)
    (congrArg Value.str name.symm) kind ?_ rfl rfl
  · simp [known]
  · intro slot member
    simp only [List.mem_cons, List.not_mem_nil, or_false] at member
    rcases member with rfl | rfl | rfl <;> rfl

/-- **The catalog.** Seeding an empty registry of a plain world never fails. Then the registry holds
the types of the catalog, or the primitive ones among them, each of its kind, and all schemas are as
they were. -/
theorem seedCatalog_seeded {w : World} (plain : w.Plain) (inside : r < w.registries.size)
    (empty : (w.registry r).types = []) (includeDerived : Bool) :
    ∃ w', exec (seedCatalog (call.dispatch (depth + 1)) r includeDerived) w = (.ok ⟨⟩, w') ∧
      w'.Seeded r (if includeDerived then catalogKinds else primitiveKinds) ∧
      w.KeepsSchemas w' := by
  have primitives := seeds_primitives call depth r
  have seeds : Seeds r (seedCatalog (call.dispatch (depth + 1)) r includeDerived) []
      (if includeDerived then catalogKinds else primitiveKinds) := by
    unfold seedCatalog
    cases includeDerived with
    | true =>
      exact primitives.bind <| (seeds_moments call depth r).bind <|
        (seeds_texts call depth r).bind <| (seeds_numbers call depth r).bind <|
        seeds_enumerated call depth r
    | false =>
      have alone : Seeds r (do seedPrimitives (call.dispatch (depth + 1)) r; pure ⟨⟩) []
          (primitiveKinds ++ []) :=
        primitives.bind fun w seeded => ⟨w, rfl, by simpa using seeded, .refl w⟩
      simpa using alone
  exact seeds w (.of_empty plain inside empty)

end Catalog

end DataShape
