import DataShape.Proofs.Registry.Resolution

/-! # Definers of types

Types are defined in general, by a native representation, on top of a primitive type, for a class,
or by a list of options. All these definers come to one operation: each reads its arguments and
hands a definition on. The operation then either fails and changes nothing, or makes one exact
change.

* `Definer`, `Definer.read` — the definers, and the definition that each hands on.
* `Describes`, `Definer.Gives` — the attributes that come out of the arguments.
* `World.Defines` — the change that a definition makes: nothing else is different afterwards.
* `definition_exact` — every definer makes exactly that change, or none. -/

namespace DataShape

/-- The definers of types. -/
inductive Definer where
  | type
  | native (representation : Value)
  /-- A type derived from one of the primitive types, such as `String`. -/
  | derived (primitive : String)
  | object (class' : Value)
  | enumeration (spec : Value)

variable (d : Dispatch)

namespace Definer

/-- Define a type in the way of a definer. -/
def define (r : Nat) (definition : TypeDefinition) : Definer → Action Nat
  | .type => defineType d r definition
  | .native representation => defineNative d r representation definition
  | .derived primitive => defineDerived d r primitive definition
  | .object class' => defineObject d r class' definition
  | .enumeration spec => defineEnumeration d r spec definition

/-- Read the arguments of a definer, which gives the definition that it hands on. -/
def read (definition : TypeDefinition) : Definer → Action TypeDefinition
  | .type => pure definition
  | .native representation => do
      let attributes ← addAttributes d [(.str "py_type", representation)] definition.attributes
      return { definition with attributes := attributes, base := .null }
  | .derived primitive => pure { definition with base := .str primitive }
  | .object class' => do
      let name ← nameOfClass d class'
      let attributes ← addAttributes d [(.str "py_type", class'), (.str "py_class_name", name)]
        definition.attributes
      return { definition with attributes := attributes }
  | .enumeration spec => do
      if definition.base.isNull then
        throw (.definition (.enumerationWithoutBase (← textOf d definition.name)))
      let options ← readOptions d spec
      let attributes ← addAttributes d [(.str "enum_values", .tuple (options.map .option))]
        definition.attributes
      return { definition with attributes := attributes }

/-- Every definer reads its arguments, and then comes to the one operation. -/
theorem define_eq (r : Nat) (definition : TypeDefinition) (definer : Definer) :
    definer.define d r definition = definer.read d definition >>= defineType d r := by
  cases definer with
  | type => exact (pure_bind ..).symm
  | derived primitive => exact (pure_bind ..).symm
  | native representation =>
    simp only [define, read, defineNative, bind_assoc, pure_bind]
  | object class' =>
    simp only [define, read, defineObject, bind_assoc, pure_bind]
  | enumeration spec =>
    unfold define read defineEnumeration
    dsimp only
    split
    · rw [bind_assoc]
      rfl
    · simp only [bind_assoc, pure_bind]

/-- The base that a definer hands on. -/
def baseOf (definition : TypeDefinition) : Definer → Value
  | .native _ => .null
  | .derived primitive => .str primitive
  | _ => definition.base

instance along_read {R : World → World → Prop} [d.Within R] (definition : TypeDefinition)
    (definer : Definer) : Along R (definer.read d definition) := by
  cases definer <;> unfold read <;> infer_instance

end Definer

/-! ## What arguments describe -/

/-- The items of an object that lists its keys. -/
def listedItems (v : Value) : Action Entries := do
  (← listedKeys d v).mapM fun key => return (key, ← itemUnder d v key)

/-- The attributes that an argument describes: the entries of a mapping, none if it counts as
nothing, or else what it lists. -/
inductive Describes (w : World) (v : Value) : Entries → Prop where
  | mapping {entries : Entries} (h : w.mapping? v = some entries) : Describes w v entries
  | nothing {w' : World} (h : exec (truthOf d v) w = (.ok false, w')) : Describes w v []
  | listed {w₁ w₂ : World} {items : Entries} (tested : exec (truthOf d v) w = (.ok true, w₁))
      (run : exec (listedItems d v) w₁ = (.ok items, w₂)) : Describes w v items

namespace Definer

/-- The attributes that a definer gives: what is described, behind what the kind of type implies. -/
inductive Gives (w : World) (definition : TypeDefinition) : Definer → Entries → Prop where
  | type : Gives w definition .type (w.attributesOf definition)
  | derived (primitive : String) :
      Gives w definition (.derived primitive) (w.attributesOf definition)
  | native {representation : Value} {more : Entries}
      (described : Describes d w definition.attributes more) :
      Gives w definition (.native representation)
        (Table.update [(.str "py_type", representation)] more)
  | object {class' name : Value} {w' : World} {more : Entries}
      (named : exec (nameOfClass d class') w = (.ok name, w'))
      (described : Describes d w' definition.attributes more) :
      Gives w definition (.object class')
        (Table.update [(.str "py_type", class'), (.str "py_class_name", name)] more)
  | enumeration {s : String} {options : List EnumOption} {more : Entries}
      (parsed : Enumeration.parse (Text.quoted s) s = .ok options)
      (described : Describes d w definition.attributes more) :
      Gives w definition (.enumeration (.str s))
        (Table.update [(.str "enum_values", .tuple (options.map .option))] more)

end Definer

section Reading

variable {d} {w : World}

/-- Items that are listed are written one after the other. By induction on their keys. -/
theorem writeListed_eq_ok {v : Value} (keys : List Value) : ∀ {entries result : Entries}
    {w w' : World}, exec (writeListed d putEntry v keys entries) w = (.ok result, w') →
    ∃ items, exec (keys.mapM fun key => do return (key, ← itemUnder d v key)) w = (.ok items, w') ∧
      result = Table.update entries items := by
  induction keys with
  | nil =>
    intro entries result w w' run
    obtain ⟨rfl, rfl⟩ := exec_pure_eq_ok.mp run
    exact ⟨[], rfl, rfl⟩
  | cons key rest ih =>
    intro entries result w w' run
    obtain ⟨item, w₁, found, run⟩ := exec_bind_eq_ok.mp run
    obtain ⟨written, w₂, put, run⟩ := exec_bind_eq_ok.mp run
    obtain ⟨rfl, rfl⟩ : Table.insert entries key item = written ∧ w₁ = w₂ := by
      unfold putEntry at put
      split at put
      · exact exec_pure_eq_ok.mp put
      · cases put
    obtain ⟨items, listed, rfl⟩ := ih run
    refine ⟨(key, item) :: items, ?_, rfl⟩
    rw [List.mapM_cons, exec_bind_ok (exec_bind_ok found _), exec_bind_ok listed]
    rfl

/-- Attributes are added behind those that a kind of type implies. -/
theorem addAttributes_eq_ok {implied : Entries} {v added : Value} {w' : World}
    (run : exec (addAttributes d implied v) w = (.ok added, w')) :
    ∃ more, added = .freshDict (Table.update implied more) ∧ Describes d w v more := by
  unfold addAttributes at run
  obtain ⟨b, w₁, tested, run⟩ := exec_bind_eq_ok.mp run
  cases b with
  | false =>
    obtain ⟨rfl, -⟩ := exec_pure_eq_ok.mp run
    exact ⟨[], rfl, .nothing tested⟩
  | true =>
    obtain ⟨entries, w₂, spread, run⟩ := exec_bind_eq_ok.mp run
    obtain ⟨rfl, -⟩ := exec_pure_eq_ok.mp run
    unfold spreadEntries at spread
    rw [exec_bind_ok (exec_mappingOf? v w₁)] at spread
    cases mapped : w₁.mapping? v with
    | some more =>
      rw [mapped] at spread
      obtain ⟨rfl, -⟩ := exec_pure_eq_ok.mp spread
      -- a mapping is what it was before it was tested
      have before : w.mapping? v = some more := by
        cases entries : w.mapping? v with
        | some es =>
          obtain ⟨b, tested', -⟩ := exec_truthOf_of_mapping entries d
          obtain ⟨-, rfl⟩ := Prod.mk.inj (tested.symm.trans tested')
          rw [← mapped, entries]
        | none => exact absurd (mapped.symm.trans (World.mapping?_of_none entries w₁)) nofun
      exact ⟨more, rfl, .mapping before⟩
    | none =>
      rw [mapped] at spread
      dsimp only at spread
      rcases listing : exec (do writeListed d putEntry v (← listedKeys d v) implied) w₁
        with ⟨e | result, w₃⟩
      · cases absent : e.isAbsence with
        | true =>
          rw [exec_orElseOn_error listing absent] at spread
          cases spread
        | false =>
          rw [exec_orElseOn_throw listing absent] at spread
          cases spread
      · rw [exec_orElseOn_ok listing] at spread
        obtain ⟨same, rfl⟩ := Prod.mk.inj spread
        obtain rfl := Except.ok.inj same
        obtain ⟨keys, w₄, listed, written⟩ := exec_bind_eq_ok.mp listing
        obtain ⟨items, found, rfl⟩ := writeListed_eq_ok keys written
        exact ⟨items, rfl, .listed tested ((exec_bind_ok listed _).trans found)⟩

end Reading

/-! ## Reading arguments -/

/-- No function lists the keys of a value: it is a mapping, or it counts as nothing, or it has no
member `keys`, which is found out without a trace. -/
def World.ListsNothing (w : World) (v : Value) : Prop :=
  (w.mapping? v).isSome = true ∨ (exec (truthOf d v) w).1 = .ok false ∨
    ∀ u, w.Resembles u → ∃ e u', exec (d.member v "keys") u = (.error e, u') ∧ u.Resembles u'

/-- Only the definers that imply attributes of their own ask for those of their argument. -/
def Definer.AsksNobody (w : World) (definition : TypeDefinition) : Definer → Prop
  | .type => True
  | .derived _ => True
  | _ => w.ListsNothing d definition.attributes

section Idle

variable {call : Provider} {depth : Nat} {w : World}

/-- The name of a class is there, or not; nothing is called for it. -/
theorem exec_readName (d : Dispatch) (c : Value) (w : World) :
    (exec (readMember d c "__name__") w).2 = w := by
  have looked : ∀ v, (exec (plainMember d v "__name__") w).2 = w := by
    intro v
    unfold plainMember
    rw [exec_bind_ok (exec_get w)]
    repeat' split
    all_goals rfl
  have named : ∀ v : Value, computedMember? d v "__name__" = (v.memberNamed? "__name__").map pure →
      v.isHost = false → (exec (readMember d v "__name__") w).2 = w := by
    intro v member other
    unfold readMember
    rw [member, other]
    cases v.memberNamed? "__name__" with
    | some x => rfl
    | none => exact looked v
  cases c with
  | type | field | schema => exact looked _
  | _ => exact named _ rfl rfl

theorem exec_nameOfClass (c : Value) :
    (exec (nameOfClass (call.dispatch (depth + 1)) c) w).2 = w := by
  unfold nameOfClass
  split
  · rfl
  · exact exec_readName (call.dispatch depth) c w

/-- A sequence leaves a world that resembles the first one if each of its steps does. -/
theorem World.Resembles.sequence {α β : Type} {a : Action α} {f : α → Action β}
    (first : w.Resembles (exec a w).2)
    (second : ∀ x w', exec a w = (.ok x, w') → w'.Resembles (exec (f x) w').2) :
    w.Resembles (exec (a >>= f) w).2 := by
  rcases run : exec a w with ⟨e | x, w₁⟩ <;> rw [run] at first
  · rw [exec_bind_error run]
    exact first
  · rw [exec_bind_ok run]
    exact first.trans (second x w₁ run)

/-- Where nobody lists keys, attributes are read without a trace. -/
theorem resembles_addAttributes (plain : w.Plain) (implied : Entries) {v : Value}
    (quiet : w.ListsNothing (call.dispatch (depth + 1)) v) :
    w.Resembles (exec (addAttributes (call.dispatch (depth + 1)) implied v) w).2 := by
  obtain ⟨b, w₁, tested, relisted⟩ := relists_truthOf (call.dispatch (depth + 1)) plain v
  have resembles := World.Resembles.of_relisted relisted
  unfold addAttributes
  rw [exec_bind_ok tested]
  cases b with
  | false => exact resembles
  | true =>
    have spread : w₁.Resembles
        (exec (spreadEntries (call.dispatch (depth + 1)) implied v) w₁).2 := by
      unfold spreadEntries
      rw [exec_bind_ok (exec_mappingOf? v w₁)]
      cases unmapped : w₁.mapping? v with
      | some more => exact .refl w₁
      | none =>
        rcases quiet with mapped | nothing | absent
        · rw [World.mapping?_of_none unmapped w] at mapped
          cases mapped
        · rw [tested] at nothing
          cases nothing
        · obtain ⟨e, w₂, failed, resembles⟩ := absent w₁ resembles
          -- the failure to find the keys is the failure of the whole
          have listing : exec (do
              writeListed (call.dispatch (depth + 1)) putEntry v
                (← listedKeys (call.dispatch (depth + 1)) v) implied) w₁ = (.error e, w₂) := by
            refine exec_bind_error ?_ _
            exact exec_bind_error (exec_bind_error failed _) _
          cases ended : e.isAbsence with
          | true => rw [exec_orElseOn_error listing ended]; exact resembles
          | false => rw [exec_orElseOn_throw listing ended]; exact resembles
    exact resembles.trans (spread.sequence fun _ w' _ => .refl w')

theorem Definer.resembles_read (plain : w.Plain) (definition : TypeDefinition) (definer : Definer)
    (quiet : definer.AsksNobody (call.dispatch (depth + 1)) w definition) :
    w.Resembles (exec (definer.read (call.dispatch (depth + 1)) definition) w).2 := by
  have added : ∀ (implied : Entries) (f : Value → TypeDefinition),
      w.ListsNothing (call.dispatch (depth + 1)) definition.attributes →
      w.Resembles (exec (do
        let attributes ← addAttributes (call.dispatch (depth + 1)) implied definition.attributes
        return f attributes) w).2 := fun implied f quiet =>
    (resembles_addAttributes plain implied quiet).sequence fun _ w' _ => .refl w'
  cases definer with
  | type => exact .refl w
  | derived primitive => exact .refl w
  | native representation => exact added _ _ quiet
  | object class' =>
    have still : (exec (nameOfClass (call.dispatch (depth + 1)) class') w).2 = w :=
      exec_nameOfClass class'
    refine World.Resembles.sequence (by rw [still]; exact .refl w) fun name w' run => ?_
    rw [run] at still
    obtain rfl : w' = w := still
    exact added _ _ quiet
  | enumeration spec =>
    unfold Definer.read
    dsimp only
    split
    · refine World.Resembles.sequence ((along_idle_textOf _).out w plain) fun _ w' _ => .refl w'
    · have options : w.Resembles (exec (readOptions (call.dispatch (depth + 1)) spec) w).2 ∧
          ∀ options w', exec (readOptions (call.dispatch (depth + 1)) spec) w = (.ok options, w') →
            w' = w := by
        unfold readOptions
        split
        · split
          · exact ⟨.refl w, fun _ _ run => (exec_pure_eq_ok.mp run).2.symm⟩
          · exact ⟨.refl w, fun _ _ run => by cases run⟩
        · refine ⟨World.Resembles.sequence ((along_idle_shown _).out w plain)
            fun _ w' _ => .refl w', fun options w' run => ?_⟩
          obtain ⟨text, w₁, -, thrown⟩ := exec_bind_eq_ok.mp run
          cases thrown
      refine options.1.sequence fun options' w' run => ?_
      obtain rfl := options.2 options' w' run
      exact added _ _ quiet

end Idle

/-! ## The exact change -/

/-- **What a definition changes.** A type is registered under a name: the one that was, or the next
new type, whose name goes behind the others. Its base is the one given only if it is new; its own
attributes are overwritten by those given, entry by entry, and its own capabilities by the
conversions. No other type changes, no other registry, and no table that objects share. -/
structure World.Defines (w : World) (r : Nat) (name : String) (base : Option Nat) (given : Entries)
    (conversions : List Capability) (t : Nat) (w' : World) : Prop where
  registered : w'.typeNamed? r name = some t
  type : w.typeNamed? r name = some t ∨ w.typeNamed? r name = none ∧ t = w.types.size
  names : w'.typeNames r
    = if (w.typeNamed? r name).isSome then w.typeNames r else w.typeNames r ++ [name]
  base : (w'.type t).base = if (w.typeNamed? r name).isSome then (w.type t).base else base
  attributes : (w'.type t).attributes = Table.update (w.type t).attributes given
  capabilities : (w'.type t).capabilities = (w.type t).capabilities.installAll conversions
  others : ∀ i, i ≠ t → w'.type i = w.type i
  otherRegistries : ∀ i, i ≠ r → w'.registry i = w.registry i
  schemaTable : (w'.registry r).schemaCapabilities = (w.registry r).schemaCapabilities
  fieldTable : (w'.registry r).fieldCapabilities = (w.registry r).fieldCapabilities

section Exact

variable {w : World} {r : Nat}

/-- To install on a type changes no other type and no registry. -/
theorem World.type_installing (w : World) (t : Nat) (cs : List Capability) (i : Nat) :
    (w.installing (.type t) cs).type i = if t = i ∧ i < w.types.size then
      { w.type i with capabilities := (w.type i).capabilities.installAll cs } else w.type i :=
  w.type_modifyType t _ i

theorem World.type_merging (w : World) (t : Nat) (entries : Entries) (i : Nat) :
    (w.merging t entries).type i = if t = i ∧ i < w.types.size then
      { w.type i with attributes := Table.update (w.type i).attributes entries } else w.type i :=
  w.type_modifyType t _ i

/-- A registered type is extended. -/
theorem World.defines_merging (tidy : w.Tidy) {name : String} {t : Nat}
    (found : w.typeNamed? r name = some t) (base : Option Nat) (given : Entries)
    (conversions : List Capability) :
    w.Defines r name base given conversions t
      ((w.merging t given).installing (.type t) conversions) := by
  obtain ⟨name', entry⟩ := World.mem_typesOf.mp (Table.mem_values_of_get? found)
  have inside : t < w.types.size := tidy.known r _ entry
  have inside' : t < (w.merging t given).types.size := inside.trans_eq Array.size_modify.symm
  have type : ((w.merging t given).installing (.type t) conversions).type t
      = { w.type t with
          attributes := Table.update (w.type t).attributes given
          capabilities := (w.type t).capabilities.installAll conversions } := by
    rw [type_installing, if_pos ⟨rfl, inside'⟩, type_merging, if_pos ⟨rfl, inside⟩]
  exact {
    registered := found
    type := .inl found
    names := by rw [found]; rfl
    base := by rw [type, found]; rfl
    attributes := by rw [type]
    capabilities := by rw [type]
    others := fun i other => by
      rw [type_installing, if_neg fun here => other here.1.symm, type_merging,
        if_neg fun here => other here.1.symm]
    otherRegistries := fun _ _ => rfl
    schemaTable := rfl
    fieldTable := rfl }

/-- A type is made and registered. -/
theorem World.defines_register (exists' : r < w.registries.size) {name : String}
    (fresh : w.typeNamed? r name = none) (base : Option Nat) (given : Entries)
    (conversions : List Capability) :
    w.Defines r name base given conversions w.types.size
      ((w.register r ⟨name, base, Table.update [] given, [], []⟩).installing (.type w.types.size)
        conversions) := by
  generalize made : w.register r ⟨name, base, Table.update [] given, [], []⟩ = w₁
  have size : w.types.size < w₁.types.size := by
    rw [← made]
    show w.types.size < (w.types.push _).size
    simp
  have none' : w.type w.types.size = default := by simp [World.type, Array.getD]
  have type : (w₁.installing (.type w.types.size) conversions).type w.types.size
      = ⟨name, base, Table.update [] given, CapabilityTable.installAll [] conversions, []⟩ := by
    rw [type_installing, if_pos ⟨rfl, size⟩, ← made, type_register, if_pos rfl]
  have registry : ∀ i, (w₁.installing (.type w.types.size) conversions).registry i
      = if r = i ∧ i < w.registries.size then
          { w.registry i with types := (w.registry i).types.insert name w.types.size }
        else w.registry i := by
    intro i
    rw [← made]
    exact registry_modifyRegistry _ r _ i
  have here : (w₁.installing (.type w.types.size) conversions).registry r
      = { w.registry r with types := (w.registry r).types ++ [(name, w.types.size)] } := by
    rw [registry, if_pos ⟨rfl, exists'⟩, Table.insert_of_get?_eq_none fresh]
  have table : ((w.registry r).types ++ [(name, w.types.size)]).get? name = some w.types.size := by
    rw [← Table.insert_of_get?_eq_none fresh]
    exact Table.get?_insert_self ..
  exact {
    registered := by rw [typeNamed?, here]; exact table
    type := .inr ⟨fresh, rfl⟩
    names := by simp [typeNames, here, fresh, Table.keys]
    base := by rw [type, fresh]; rfl
    attributes := by rw [type, none']; rfl
    capabilities := by rw [type, none']; rfl
    others := fun i other => by
      rw [type_installing, if_neg fun here => other here.1.symm, ← made, type_register,
        if_neg other]
    otherRegistries := fun i other => by rw [registry, if_neg fun here => other here.1.symm]
    schemaTable := by rw [here]
    fieldTable := by rw [here] }

/-- The change is the same in a world that resembles the one that was made. -/
theorem World.Defines.resembles {name : String} {base : Option Nat} {given : Entries}
    {conversions : List Capability} {t : Nat} {u u' : World}
    (defines : w.Defines r name base given conversions t u) (h : u.Resembles u') :
    w.Defines r name base given conversions t u' := by
  have registry := h.registry
  have type := h.type
  exact {
    registered := by rw [World.typeNamed?, registry]; exact defines.registered
    type := defines.type
    names := by rw [World.typeNames, registry]; exact defines.names
    base := by rw [type]; exact defines.base
    attributes := by rw [type]; exact defines.attributes
    capabilities := by rw [type]; exact defines.capabilities
    others := fun i other => (type i).trans (defines.others i other)
    otherRegistries := fun i other => (registry i).trans (defines.otherRegistries i other)
    schemaTable := by rw [registry]; exact defines.schemaTable
    fieldTable := by rw [registry]; exact defines.fieldTable }

/-- What a definition makes of a tidy world is exactly that change. -/
theorem TypeDefinition.Performs.defines {definition : TypeDefinition} {name : String}
    {base : Option Nat} {t : Nat} {w' : World} (performs : definition.Performs r w name base t w')
    (tidy : w.Tidy) (exists' : r < w.registries.size) :
    w.Defines r name base (w.attributesOf definition) (definition.conversions w'.nextIdentity) t
      w' := by
  obtain ⟨-, -, rfl, made⟩ := performs
  refine World.Defines.resembles ?_ made
  unfold World.defining
  cases found : w.typeNamed? r name with
  | some t => exact World.defines_merging tidy found base _ _
  | none => exact World.defines_register exists' found base _ _

end Exact

/-- What a definer hands on: the name and the conversions as they were given, its own base, and the
attributes that it gives. -/
theorem Definer.of_read {d : Dispatch} {w w₁ : World} {definition passed : TypeDefinition}
    {definer : Definer} (run : exec (definer.read d definition) w = (.ok passed, w₁)) :
    passed.name = definition.name ∧ passed.base = definer.baseOf definition ∧
      passed.conversions = definition.conversions ∧
      definer.Gives d w definition (w₁.attributesOf passed) := by
  cases definer with
  | type =>
    obtain ⟨rfl, rfl⟩ := exec_pure_eq_ok.mp run
    exact ⟨rfl, rfl, rfl, .type⟩
  | derived primitive =>
    obtain ⟨rfl, rfl⟩ := exec_pure_eq_ok.mp run
    exact ⟨rfl, rfl, rfl, .derived primitive⟩
  | native representation =>
    obtain ⟨attributes, w₂, added, rest⟩ := exec_bind_eq_ok.mp run
    obtain ⟨rfl, rfl⟩ := exec_pure_eq_ok.mp rest
    obtain ⟨more, rfl, described⟩ := addAttributes_eq_ok added
    exact ⟨rfl, rfl, rfl, .native described⟩
  | object class' =>
    obtain ⟨name, w₂, named, rest⟩ := exec_bind_eq_ok.mp run
    obtain ⟨attributes, w₃, added, rest⟩ := exec_bind_eq_ok.mp rest
    obtain ⟨rfl, rfl⟩ := exec_pure_eq_ok.mp rest
    obtain ⟨more, rfl, described⟩ := addAttributes_eq_ok added
    exact ⟨rfl, rfl, rfl, .object named described⟩
  | enumeration spec =>
    unfold Definer.read at run
    dsimp only at run
    split at run
    · obtain ⟨text, w₂, -, thrown⟩ := exec_bind_eq_ok.mp run
      cases thrown
    · obtain ⟨options, w₂, parsed, rest⟩ := exec_bind_eq_ok.mp run
      obtain ⟨attributes, w₃, added, rest⟩ := exec_bind_eq_ok.mp rest
      obtain ⟨rfl, rfl⟩ := exec_pure_eq_ok.mp rest
      obtain ⟨more, rfl, described⟩ := addAttributes_eq_ok added
      unfold readOptions at parsed
      split at parsed
      · next s =>
        split at parsed
        · next found =>
          obtain ⟨rfl, rfl⟩ := exec_pure_eq_ok.mp parsed
          exact ⟨rfl, rfl, rfl, .enumeration found described⟩
        · cases parsed
      · obtain ⟨text, w₄, -, thrown⟩ := exec_bind_eq_ok.mp parsed
        cases thrown

/-- **A definition is an exact merge, or nothing.** Let any operations be performed from a tidy
world, while the functions of providers do no more than such operations. Let a definer be used on a
registry, with any arguments. First it reads its arguments. This leaves a world that resembles the
one before, unless a function is called that lists the keys of an object in the place of the
attributes; and then nothing is done but what functions of providers do.

If the definer fails, wherever that is, nothing else has changed. If it gives a type, the definition
has changed exactly what it says: the type is registered under the name, which is new and last or
was there; a new type has the base that was given; the attributes that were given are merged behind
those that the kind of type implies; the conversions that were given are installed. -/
theorem definition_exact {call : Provider} (user : call.Within (MembersRun call)) {w₀ : World}
    (tidy : w₀.Tidy) (depth : Nat) (operations : List (Nat × RegistryOperation)) (r : Nat)
    (definer : Definer) (definition : TypeDefinition) :
    let d := call.dispatch (depth + 1)
    let w := afterOperations d operations w₀
    let w₁ := (exec (definer.read d definition) w).2
    r < w₁.registries.size →
    (definer.AsksNobody d w definition → w.Resembles w₁) ∧
    (∀ (R : World → World → Prop) [Frame.Lists R], call.Within R → R w w₁) ∧
    (∀ e w', exec (definer.define d r definition) w = (.error e, w') → w₁.Resembles w') ∧
    ∀ t w', exec (definer.define d r definition) w = (.ok t, w') →
      ∃ name base given, definition.name = .str name ∧
        w₁.BaseGiven r (definer.baseOf definition) base ∧ definer.Gives d w definition given ∧
        w₁.Defines r name base given (definition.conversions w'.nextIdentity) t w' := by
  intro d w w₁ exists'
  have run := membersRun_afterOperations user depth operations w₀
  obtain ⟨journal, reached⟩ := run
  have tidyw : w.Tidy := (reached.updated tidy).tidy
  have within : d.Within (MembersRun call) := Provider.dispatch_within user (depth + 1)
  obtain ⟨journal', read⟩ : MembersRun call w w₁ := (definer.along_read d definition).out w
  have tidy₁ : w₁.Tidy := (read.updated tidyw).tidy
  refine ⟨fun quiet => Definer.resembles_read tidyw.plain definition definer quiet, ?_, ?_, ?_⟩
  · intro R _ user'
    have within' : d.Within R := Provider.dispatch_within user' (depth + 1)
    exact (definer.along_read d definition).out w
  · intro e w' failed
    rw [Definer.define_eq] at failed
    rcases exec_bind_eq_error.mp failed with readFailed | ⟨passed, w₂, readRun, refused⟩
    · obtain rfl : w₁ = w' := congrArg Prod.snd readFailed
      exact .refl w₁
    · obtain rfl : w₁ = w₂ := congrArg Prod.snd readRun
      rcases performs_defineType call depth (r := r) tidy₁ passed
        with ⟨t, w₃, run, -⟩ | ⟨e', w₃, run, resembles⟩
      · cases refused.symm.trans run
      · obtain ⟨-, rfl⟩ := Prod.mk.inj (refused.symm.trans run)
        exact resembles
  · intro t w' made
    rw [Definer.define_eq] at made
    obtain ⟨passed, w₂, readRun, performed⟩ := exec_bind_eq_ok.mp made
    obtain rfl : w₁ = w₂ := congrArg Prod.snd readRun
    obtain ⟨named, based, conversions, gives⟩ := Definer.of_read readRun
    rcases performs_defineType call depth (r := r) tidy₁ passed
      with ⟨t', w₃, run, name, base, performs⟩ | ⟨e, w₃, run, -⟩
    · obtain ⟨same, rfl⟩ := Prod.mk.inj (performed.symm.trans run)
      obtain rfl := Except.ok.inj same
      refine ⟨name, base, _, named ▸ performs.named, based ▸ performs.based, gives, ?_⟩
      rw [← conversions]
      exact performs.defines tidy₁ exists'
    · cases performed.symm.trans run

/-- A type is defined again, with a representation, a new shade, a size and a conversion. -/
def colorAgain : TypeDefinition :=
  ⟨.str "Color", .ofFields [("shade", .str "blue"), ("size", .int 2)], .null,
    .function 5 none .echo [], .null⟩

/-- The attributes that were there keep their places, one with the new value; the representation
goes before the size. -/
theorem definition_exact_color :
    let d := echoing.dispatch 3
    let w := afterOperations d [(0, .define colorDefinition)] .withRegistry
    let w₁ := (exec (Definer.read d colorAgain (.native (.native .str))) w).2
    let again := exec (Definer.define d 0 colorAgain (.native (.native .str))) w
    echoing.Within (MembersRun echoing) ∧ World.withRegistry.Tidy ∧ 0 < w₁.registries.size ∧
    w.Resembles w₁ ∧ again.1 = .ok 0 ∧
    (∃ base given,
      w₁.Defines 0 "Color" base given (colorAgain.conversions again.2.nextIdentity) 0 again.2) ∧
    (Table.keys (again.2.type 0).attributes).map Value.text?
      = [some "shade", some "depth", some "py_type", some "size"] ∧
    (Table.keys (again.2.type 0).capabilities).map Value.text? = [some "to_string"] := by
  intro d w w₁ again
  have user : echoing.Within (MembersRun echoing) := fun _ _ _ _ _ => along_pure _
  have registries : 0 < w₁.registries.size := by decide +kernel
  obtain ⟨quiet, -, -, exact'⟩ := definition_exact user World.withRegistry_tidy 2
    [(0, .define colorDefinition)] 0 (.native (.native .str)) colorAgain registries
  have made : exec (Definer.define d 0 colorAgain (.native (.native .str))) w = (.ok 0, again.2) :=
    Prod.ext (by with_unfolding_all rfl) rfl
  obtain ⟨name, base, given, named, -, -, defines⟩ := exact' 0 again.2 made
  obtain rfl := Value.str.inj named
  exact ⟨user, World.withRegistry_tidy, registries, quiet (.inl rfl),
    congrArg Prod.fst made, ⟨base, given, defines⟩, by decide +kernel, by decide +kernel⟩

/-- A plain object whose keys are listed by a function, which defines a copy of a type. -/
def copyingKeys : Value :=
  .record 1 [(.str "keys", .bound (.function 2 (some "copy") .spawn []) (.type 0))]

/-- **Functions that list keys may leave a trace.** A definition fails, since its attributes are no
mapping and what their `keys` gives cannot be walked; but that function has defined a type. -/
theorem definition_leaves_copy :
    let d := Provider.dispatch callValue 4
    let w := afterOperations d [(0, .define (bareDefinition "A" .null))] .withRegistry
    let failed := exec (Definer.define d 0 ⟨.str "X", copyingKeys, .null, .null, .null⟩
      (.native (.native .str))) w
    failed.1.toOption = none ∧ w.typeNames 0 = ["A"] ∧ failed.2.typeNames 0 = ["A", "ACopy"] := by
  decide +kernel

end DataShape
