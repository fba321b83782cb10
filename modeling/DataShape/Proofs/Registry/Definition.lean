import DataShape.Proofs.Registry.Cycle
import DataShape.Proofs.Registry.Journal

/-! # What a definition changes

A definition is checked first: its conversions, its base and its name. Only a definition that passes
changes anything. It then merges its attributes into the type of its name, which may be a new one,
and installs its conversions.

* `Checks` — an action that passes and leaves the world as it is, or fails.
* `Amends` — an action that passes with a change, or fails.
* `World.defining` — the world that a definition makes, before its conversions are installed.
* `performs_defineType` — a definition makes that world, or it fails and changes nothing.
* `TypeDefinition.updates`, `amends_defineType` — the same as a journal of changes. -/

namespace DataShape

/-! ## Checks -/

/-- An action passes and leaves the world as it is, or it fails and is idle. -/
def Checks {α : Type} (a : Action α) (w : World) : Prop :=
  (∃ x, exec a w = (.ok x, w)) ∨ ∃ e w', exec a w = (.error e, w') ∧ w.Resembles w'

/-- An action passes and leaves a world of a kind, or it fails and is idle. -/
def Amends {α : Type} (P : α → World → Prop) (a : Action α) (w : World) : Prop :=
  (∃ x w', exec a w = (.ok x, w') ∧ P x w') ∨ ∃ e w', exec a w = (.error e, w') ∧ w.Resembles w'

section Checks

variable {α β : Type} {w : World}

theorem checks_of_passed {a : Action α} {x : α} (h : exec a w = (.ok x, w)) : Checks a w :=
  .inl ⟨x, h⟩

theorem checks_throw (e : Fault) : Checks (throw e : Action α) w := .inr ⟨e, w, rfl, .refl w⟩

/-- What words a fault fails. -/
theorem checks_bind_throw {a : Action β} (fault : β → Fault) (h : w.Resembles (exec a w).2) :
    Checks (a >>= fun x => throw (fault x) : Action α) w := by
  obtain ⟨e, run⟩ := exec_bind_throw (β := α) a fault w
  exact .inr ⟨e, _, run, h⟩

theorem Checks.bind {a : Action α} {f : α → Action β} (first : Checks a w)
    (second : ∀ x, exec a w = (.ok x, w) → Checks (f x) w) : Checks (a >>= f) w := by
  rcases first with ⟨x, run⟩ | ⟨e, w', run, resembles⟩
  · unfold Checks
    rw [exec_bind_ok run]
    exact second x run
  · exact .inr ⟨e, w', exec_bind_error run f, resembles⟩

/-- An action that is behind checks. -/
theorem Checks.amends {P : β → World → Prop} {a : Action α} {f : α → Action β} (first : Checks a w)
    (second : ∀ x, exec a w = (.ok x, w) → Amends P (f x) w) : Amends P (a >>= f) w := by
  rcases first with ⟨x, run⟩ | ⟨e, w', run, resembles⟩
  · unfold Amends
    rw [exec_bind_ok run]
    exact second x run
  · exact .inr ⟨e, w', exec_bind_error run f, resembles⟩

theorem Amends.mono {P Q : α → World → Prop} {a : Action α} (h : Amends P a w)
    (weaker : ∀ x w', P x w' → Q x w') : Amends Q a w := by
  rcases h with ⟨x, w', run, holds⟩ | failed
  · exact .inl ⟨x, w', run, weaker x w' holds⟩
  · exact .inr failed

end Checks

section Checked

variable {call : Provider} {depth : Nat} {w : World} {r : Nat}

/-! ## What is checked -/

theorem checks_findType? (name : Value) : Checks (findType? r name) w := by
  cases keyed : name.hashable with
  | true => exact checks_of_passed (exec_findType? keyed)
  | false =>
    unfold findType?
    rw [keyed]
    exact checks_throw _

section Plain

variable (plain : w.Plain)

include plain

theorem checks_checkMarshaller (slot : String) (name function : Value) :
    Checks (checkMarshaller (call.dispatch depth) slot name function) w := by
  unfold checkMarshaller
  split
  · exact checks_bind_throw _ ((along_idle_textOf name).out w plain)
  · exact checks_of_passed rfl

theorem checks_baseNamed (name base : Value) :
    Checks (baseNamed (call.dispatch depth) r name base) w := by
  unfold baseNamed
  split
  · next s =>
    unfold requireType
    refine (checks_findType? _).bind fun found _ => ?_
    cases found with
    | some id => exact checks_of_passed rfl
    | none => exact .inr ⟨_, w, rfl, .refl w⟩
  · next id =>
    refine (checks_of_passed (exec_get w)).bind fun v run => ?_
    obtain rfl : w = v := Except.ok.inj (congrArg Prod.fst run)
    refine (checks_findType? _).bind fun found _ => ?_
    split
    · exact checks_of_passed rfl
    · rw [plain.typeName, textOf_str, pure_bind]
      exact checks_bind_throw _ ((along_idle_textOf name).out w plain)
  -- A base that is neither a name nor a type is refused, and the refusal words both.
  · have worded : Along World.Idle (do
        let nameText ← textOf (call.dispatch depth) name
        return (nameText, ← shown (call.dispatch depth) base)) := inferInstance
    have thrown := checks_bind_throw (α := Nat) (fun texts : String × String =>
      .definition (.baseReference texts.1 texts.2)) (worded.out w plain)
    simpa only [bind_assoc, pure_bind] using thrown

theorem checks_derivesFrom (id : Nat) (name : Value) :
    Checks (derivesFrom (call.dispatch depth) id name) w := by
  have searched : ∀ (ask : Value → Action (Option Unit)) (own : World → List Nat → Option Unit),
      ∃ b, exec (do return (← searchLineage (call.dispatch depth) id ask own).isSome) w
        = (.ok b, w) := fun ask own =>
    ⟨_, exec_bind_ok (plain.exec_searchLineage (call.dispatch depth) id ask own) _⟩
  have asked : ∃ b, exec (isA (call.dispatch depth) id name) w = (.ok b, w) := by
    unfold isA
    dsimp only
    split
    · rw [exec_bind_ok (exec_get w), pure_bind]
      exact searched _ _
    · rw [pure_bind]
      exact searched _ _
  obtain ⟨b, run⟩ := asked
  unfold derivesFrom
  exact checks_of_passed ((plain.exec_orStandIn ..).trans run)

theorem checks_resolveBase (name base : Value) :
    Checks (resolveBase (call.dispatch depth) r name base) w := by
  unfold resolveBase
  refine (checks_baseNamed plain name base).bind fun id _ => ?_
  refine (checks_derivesFrom plain id name).bind fun derives _ => ?_
  cases derives with
  | false => exact checks_of_passed rfl
  | true =>
    refine (checks_of_passed (exec_get w)).bind fun v run => ?_
    obtain rfl : w = v := Except.ok.inj (congrArg Prod.fst run)
    rw [plain.typeName, textOf_str, pure_bind]
    exact checks_bind_throw _ ((along_idle_textOf name).out w plain)

end Plain

/-- What is resolved is a type that the base stands for. -/
theorem baseNamed_of_resolveBase (plain : w.Plain) {name base : Value} {b : Nat} {w' : World}
    (run : exec (resolveBase (call.dispatch depth) r name base) w = (.ok b, w')) :
    w.BaseNamed r base b := by
  unfold resolveBase at run
  obtain ⟨id, w₁, named, rest⟩ := exec_bind_eq_ok.mp run
  -- A base that derives from the name is refused, so what is resolved is the base that was found.
  have same : id = b := by
    obtain ⟨derives, w₂, -, rest⟩ := exec_bind_eq_ok.mp rest
    cases derives with
    | false => exact (exec_pure_eq_ok.mp rest).1
    | true =>
      obtain ⟨v, w₃, -, rest⟩ := exec_bind_eq_ok.mp rest
      obtain ⟨text, w₄, -, rest⟩ := exec_bind_eq_ok.mp rest
      obtain ⟨text', w₅, -, rest⟩ := exec_bind_eq_ok.mp rest
      cases rest
  subst same
  unfold baseNamed at named
  split at named
  · next s =>
    unfold requireType at named
    rw [exec_bind_ok (exec_findType? rfl)] at named
    cases found : (Value.str s).text?.bind (w.typeNamed? r) with
    | some id' =>
      rw [found] at named
      obtain ⟨rfl, -⟩ := exec_pure_eq_ok.mp named
      exact .name found
    | none =>
      rw [found] at named
      cases named
  · next id' =>
    rw [exec_bind_ok (exec_get w), plain.typeName, exec_bind_ok (exec_findType? rfl)] at named
    split at named
    · next here =>
      obtain ⟨rfl, -⟩ := exec_pure_eq_ok.mp named
      exact .type (eq_of_beq here)
    · rw [textOf_str, pure_bind] at named
      obtain ⟨text, w₂, -, thrown⟩ := exec_bind_eq_ok.mp named
      cases thrown
  · obtain ⟨text, w₂, -, rest⟩ := exec_bind_eq_ok.mp named
    obtain ⟨text', w₃, -, thrown⟩ := exec_bind_eq_ok.mp rest
    cases thrown

end Checked

/-! ## What is changed -/

/-- The attributes that a definition merges. -/
def World.attributesOf (w : World) (definition : TypeDefinition) : Entries :=
  (w.mapping? definition.attributes).getD []

/-- The capability by which a conversion is installed, if it is given. -/
def conversion (slot : String) (function : Value) (identity : Nat) : List Capability :=
  if function.isNull then [] else [⟨.str slot, .static identity none function, .null, .null⟩]

/-- The conversions of a definition, which were given the identities before the next one. -/
def TypeDefinition.conversions (definition : TypeDefinition) (next : Nat) : List Capability :=
  conversion "to_string" definition.toText
      (if definition.fromText.isNull then next - 1 else next - 2) ++
    conversion "from_string" definition.fromText (next - 1)

/-- The journal of a definition of a type: its attributes, then its conversions. -/
def TypeDefinition.updates (definition : TypeDefinition) (t : Nat) (w w' : World) : List Update :=
  merges t (w.attributesOf definition) ++
    (definition.conversions w'.nextIdentity).map (.install t)

namespace World

/-- The base that a definition gives: none, or a registered type. -/
inductive BaseGiven (w : World) (r : Nat) : Value → Option Nat → Prop where
  | none : BaseGiven w r .null none
  | named {base : Value} {b : Nat} (h : w.BaseNamed r base b) : BaseGiven w r base (some b)

/-- A world in which attributes were merged into a type. -/
def merging (w : World) (t : Nat) (entries : Entries) : World :=
  w.modifyType t fun n => { n with attributes := Table.update n.attributes entries }

/-- The type that a definition is about, and the world that its attributes make: a registered type
is extended, a type of a new name is made and registered. -/
def defining (w : World) (r : Nat) (name : String) (base : Option Nat) (entries : Entries) :
    Nat × World :=
  match w.typeNamed? r name with
  | some t => (t, w.merging t entries)
  | none => (w.types.size, w.register r ⟨name, base, Table.update [] entries, [], []⟩)

/-- In a world without shared containers the attributes of a type are merged in their place. -/
theorem changePart_typeAttributes {w : World} (unshared : w.sharedParts = []) (t : Nat)
    (entries : Entries) :
    (w.changePart (.typeAttributes t) fun own => Table.update own entries)
      = w.merging t entries := by
  rw [changePart_of_unshared unshared, withPartEntries, merging, modifyType, modifyType]
  have same : (w.types.modify t fun n => { n with
        attributes := Table.update (w.partEntries (.typeAttributes t)) entries })
      = w.types.modify t fun n => { n with attributes := Table.update n.attributes entries } := by
    refine Array.ext (by simp) fun i inside _ => ?_
    have inside' : i < w.types.size := by simpa using inside
    rw [Array.getElem_modify, Array.getElem_modify]
    split
    · next here =>
      subst here
      simp [partEntries, type, Array.getD, inside']
    · rfl
  rw [same]

theorem Plain.merging {w : World} (plain : w.Plain) (t : Nat) (entries : Entries) :
    (w.merging t entries).Plain := by
  refine ⟨fun i => ?_, plain.fields, plain.schemas⟩
  rw [World.merging, type_modifyType]
  split <;> exact plain.types i

theorem merging_nil (w : World) (t : Nat) : w.merging t [] = w := by
  have still : (w.types.modify t fun n => n) = w.types := by
    refine Array.ext (by simp) fun i _ _ => ?_
    simp [Array.getElem_modify]
  show w.modifyType t (fun n => n) = w
  rw [modifyType, still]

namespace Resembles

variable {w u : World} (h : w.Resembles u)

include h

/-- Worlds that resemble each other still do with other types and registries. -/
theorem rebuilt (types : Array TypeNode) (registries : Array RegistryNode) :
    World.Resembles { w with types := types, registries := registries }
      { u with types := types, registries := registries } := by
  have rest : { u with log := w.log, nextIdentity := w.nextIdentity, schemas := w.schemas } = w :=
    Relisted.rest h
  exact ⟨congrArg (fun v : World => { v with types := types, registries := registries }) rest,
    h.schemasSize, h.schema⟩

theorem merging (t : Nat) (entries : Entries) :
    (w.merging t entries).Resembles (u.merging t entries) := by
  have built := h.rebuilt (w.merging t entries).types w.registries
  have right : { u with types := (w.merging t entries).types, registries := w.registries }
      = u.merging t entries := by
    simp only [World.merging, modifyType, h.types, ← h.registries]
  exact right ▸ built

theorem register (r : Nat) (node : TypeNode) :
    (w.register r node).Resembles (u.register r node) := by
  have built := h.rebuilt (w.register r node).types (w.register r node).registries
  have right : { u with
      types := (w.register r node).types, registries := (w.register r node).registries }
      = u.register r node := by
    simp only [World.register, modifyRegistry, h.types, h.registries]
  exact right ▸ built

end Resembles

end World

/-- What a definition that passes makes of a world: it is about a type, into which its attributes
are merged, and on which its conversions are installed. -/
structure TypeDefinition.Performs (definition : TypeDefinition) (r : Nat) (w : World)
    (name : String) (base : Option Nat) (t : Nat) (w' : World) : Prop where
  named : definition.name = .str name
  based : w.BaseGiven r definition.base base
  type : (w.defining r name base (w.attributesOf definition)).1 = t
  made : ((w.defining r name base (w.attributesOf definition)).2.installing (.type t)
    (definition.conversions w'.nextIdentity)).Resembles w'

section Changed

variable (call : Provider) (depth : Nat) {w : World} {r t : Nat}

/-- Whether a mapping counts as true is seen at once. -/
theorem exec_truthOf_of_mapping {v : Value} {entries : Entries} (h : w.mapping? v = some entries)
    (d : Dispatch) : ∃ b, exec (truthOf d v) w = (.ok b, w) ∧ (b = false → entries = []) := by
  cases v with
  | dict share es =>
    obtain rfl : es = entries := Option.some.inj h
    exact ⟨!es.isEmpty, rfl, by simp⟩
  | live part readOnly =>
    obtain rfl : w.partEntries part = entries := Option.some.inj h
    exact ⟨!(Table.keys (w.partEntries part)).isEmpty, rfl, by simp [Table.keys]⟩
  | _ => cases h

/-- What is no mapping in one world is none in any. -/
theorem World.mapping?_of_none {v : Value} (h : w.mapping? v = none) (u : World) :
    u.mapping? v = none := by
  cases v <;> first | rfl | cases h

/-- A conversion is installed. -/
theorem exec_installMarshaller (plain : w.Plain) (slot : String) (function : Value) :
    ∃ w', exec (installMarshaller (call.dispatch (depth + 1)) t slot function) w = (.ok ⟨⟩, w') ∧
      w'.nextIdentity = w.nextIdentity + (if function.isNull then 0 else 1) ∧
      (w.installing (.type t) (conversion slot function w.nextIdentity)).Resembles w' := by
  unfold installMarshaller conversion
  split
  · exact ⟨w, rfl, rfl, by rw [World.installing_nil]; exact .refl w⟩
  · have identity : w.Resembles { w with nextIdentity := w.nextIdentity + 1 } :=
      (World.Resembles.refl w).identity _
    have given := exec_giveCapability call depth (identity.plain plain) t
      (c := ⟨.str slot, .static w.nextIdentity none function, .null, .null⟩) rfl
    refine ⟨_, (exec_bind_ok rfl _).trans given, ?_, identity.installing _ _⟩
    rw [World.installing, World.nextIdentity_changeTable]

/-- Attributes count as something and are a mapping, or they are none, or they count as nothing. -/
theorem attributes_cases (plain : w.Plain) (definition : TypeDefinition) (d : Dispatch) :
    (exec (truthOf d definition.attributes) w = (.ok true, w) ∧
      w.mapping? definition.attributes = some (w.attributesOf definition)) ∨
    ∃ b w₁, exec (truthOf d definition.attributes) w = (.ok b, w₁) ∧ w.Resembles w₁ ∧
      (if b then w₁.mapping? definition.attributes = none else w.attributesOf definition = []) := by
  unfold World.attributesOf
  cases mapped : w.mapping? definition.attributes with
  | some entries =>
    obtain ⟨b, tested, nothing⟩ := exec_truthOf_of_mapping mapped d
    cases b with
    | true => exact .inl ⟨tested, rfl⟩
    | false => exact .inr ⟨false, w, tested, .refl w, nothing rfl⟩
  | none =>
    obtain ⟨b, w₁, tested, relisted⟩ := relists_truthOf d plain definition.attributes
    refine .inr ⟨b, w₁, tested, .of_relisted relisted, ?_⟩
    cases b with
    | false => rfl
    | true => exact World.mapping?_of_none mapped w₁

/-- Attributes that are no mapping are refused. -/
theorem exec_refuseAttributes {α : Type} (plain : w.Plain) (attributes : Value)
    (fault : String → Fault) : ∃ e w', exec (do
      throw (fault (← shown (call.dispatch depth) attributes)) : Action α) w = (.error e, w') ∧
      w.Resembles w' := by
  obtain ⟨e, run⟩ := exec_bind_throw (β := α) (shown (call.dispatch depth) attributes) fault w
  exact ⟨e, _, run, (along_idle_shown attributes).out w plain⟩

/-- In a plain world attributes are merged in the way of the engine. -/
theorem exec_extendAttributes (plain : w.Plain) (attributes : Value) (d : Dispatch) :
    exec (extendAttributes d t attributes) w = match w.mapping? attributes with
      | some entries =>
        (.ok ⟨⟩, w.changePart (.typeAttributes t) fun own => Table.update own entries)
      | none => exec (do
        throw (.definition (.attributesNotMapping (w.type t).name (← shown d attributes)))) w := by
  unfold extendAttributes
  rw [plain.exec_orStandIn]
  unfold mergeTypeAttributes
  rw [exec_bind_ok (exec_mappingOf? attributes w)]
  cases w.mapping? attributes with
  | some entries => exact exec_bind_ok (plain.exec_standIn? _ _) _
  | none =>
    dsimp only
    rw [exec_bind_ok (exec_get w), plain.typeName, textOf_str, pure_bind]

/-- A mapping is merged, and that is recorded. -/
theorem exec_mergeMapping (tidy : w.Tidy) {attributes : Value} {entries : Entries}
    (mapped : w.mapping? attributes = some entries) (d : Dispatch) (text : String) :
    ∃ w', exec (do
      if ← truthOf d attributes then extendAttributes d t attributes
      writeLog .registry .debug text) w = (.ok ⟨⟩, w') ∧ (w.merging t entries).Resembles w' := by
  obtain ⟨b, tested, nothing⟩ := exec_truthOf_of_mapping mapped d
  rw [exec_bind_ok tested]
  cases b with
  | false =>
    obtain ⟨l, logged⟩ := exec_writeLog .registry .debug text w
    refine ⟨_, logged, ?_⟩
    rw [nothing rfl, World.merging_nil]
    exact (World.Resembles.refl w).logged l
  | true =>
    have merged := exec_extendAttributes (t := t) tidy.plain attributes d
    rw [mapped] at merged
    dsimp only at merged
    rw [World.changePart_typeAttributes tidy.unshared] at merged
    obtain ⟨l, logged⟩ := exec_writeLog .registry .debug text (w.merging t entries)
    exact ⟨_, (exec_bind_ok merged _).trans logged, (World.Resembles.refl _).logged l⟩

/-- Attributes are merged, if they count as something, and that is recorded. -/
theorem amends_merging (tidy : w.Tidy) (definition : TypeDefinition) (text : String) :
    Amends (fun _ w' => (w.merging t (w.attributesOf definition)).Resembles w') (do
      if ← truthOf (call.dispatch depth) definition.attributes then
        extendAttributes (call.dispatch depth) t definition.attributes
      writeLog .registry .debug text) w := by
  unfold Amends
  rcases attributes_cases tidy.plain definition (call.dispatch depth)
    with ⟨-, mapped⟩ | ⟨b, w₁, tested, resembles, given⟩
  · obtain ⟨w', merged⟩ := exec_mergeMapping (t := t) tidy mapped (call.dispatch depth) text
    exact .inl ⟨⟨⟩, w', merged⟩
  · rw [exec_bind_ok tested]
    cases b with
    | false =>
      obtain ⟨l, logged⟩ := exec_writeLog .registry .debug text w₁
      refine .inl ⟨⟨⟩, _, logged, ?_⟩
      rw [show w.attributesOf definition = [] from given, World.merging_nil]
      exact resembles.logged l
    | true =>
      have plain₁ := resembles.plain tidy.plain
      have refused := exec_extendAttributes (t := t) plain₁ definition.attributes
        (call.dispatch depth)
      rw [show w₁.mapping? definition.attributes = none from given] at refused
      obtain ⟨e, w', run, resembles'⟩ := exec_refuseAttributes call depth
        (α := PUnit) plain₁ definition.attributes fun text =>
          .definition (.attributesNotMapping (w₁.type t).name text)
      exact .inr ⟨e, w', exec_bind_error (refused.trans run) _, resembles.trans resembles'⟩

/-- That a registered type keeps its base is recorded; then attributes are merged. -/
theorem exec_extendType (plain : w.Plain) (base : Option Nat) {definition : TypeDefinition}
    {s : String} (named : definition.name = .str s) :
    ∃ l, exec (extendType (call.dispatch depth) t base definition) w = exec (do
      if ← truthOf (call.dispatch depth) definition.attributes then
        extendAttributes (call.dispatch depth) t definition.attributes
      writeLog .registry .debug s!"Merged attributes into type: {s}") { w with log := l } := by
  unfold extendType
  rw [named, textOf_str, pure_bind]
  cases base with
  | none => exact ⟨w.log, rfl⟩
  | some b =>
    rw [exec_bind_ok (exec_get w)]
    split
    · obtain ⟨l, logged⟩ := exec_writeLog .registry .warning
        s!"Ignoring base type '{(w.type b).name}' for existing type '{s}'" w
      refine ⟨l, ?_⟩
      rw [exec_bind_ok (exec_get w), plain.typeName, textOf_str, pure_bind, exec_bind_ok logged]
    · exact ⟨w.log, rfl⟩

/-- A registered type is extended. -/
theorem amends_extendType (tidy : w.Tidy) (base : Option Nat) {definition : TypeDefinition}
    {s : String} (named : definition.name = .str s) :
    Amends (fun _ w' => (w.merging t (w.attributesOf definition)).Resembles w')
      (extendType (call.dispatch depth) t base definition) w := by
  obtain ⟨l, extended⟩ := exec_extendType call depth tidy.plain base named
  have resembles := (World.Resembles.refl w).logged l
  unfold Amends
  rw [extended]
  rcases amends_merging (t := t) call depth (resembles.tidy tidy) definition
    s!"Merged attributes into type: {s}" with ⟨x, w', run, merged⟩ | ⟨e, w', run, resembles'⟩
  · exact .inl ⟨x, w', run, (resembles.merging t _).trans merged⟩
  · exact .inr ⟨e, w', run, resembles.trans resembles'⟩

/-- A type is made from a text that is not empty, with the attributes that the definition gives. -/
theorem amends_makeType (plain : w.Plain) (base : Option Nat) (definition : TypeDefinition) :
    Amends (fun t w' => ∃ (name : String) (w₁ : World), definition.name = .str name ∧
        w.Resembles w₁ ∧ t = w.types.size ∧ w' = { w₁ with types := (w₁.types.push
            ⟨name, base, Table.update [] (w.attributesOf definition), [], []⟩) })
      (makeType (call.dispatch depth) definition.name definition.attributes
        (base.elim .null .type)) w := by
  cases text : definition.name.text? with
  | none =>
    rw [makeType_of_not_text text]
    exact .inr (exec_refuseAttributes call depth plain _ _)
  | some s =>
    rw [Value.eq_str_of_text? text]
    cases named : s.isEmpty with
    | true =>
      rw [String.isEmpty_iff.mp named, makeType_of_empty]
      exact .inr ⟨_, w, rfl, .refl w⟩
    | false =>
      rw [makeType_of_name named]
      unfold Amends
      rcases attributes_cases plain definition (call.dispatch depth)
        with ⟨tested, mapped⟩ | ⟨b, w₁, tested, resembles, given⟩ <;> rw [exec_bind_ok tested]
      · have looked : exec (mappingOf? definition.attributes) w
            = (.ok (some (w.attributesOf definition)), w) := by
          rw [← mapped]
          rfl
        rw [if_pos rfl, exec_bind_ok looked]
        exact .inl ⟨_, _, rfl, s, w, rfl, .refl w, rfl, rfl⟩
      · cases b with
        | false =>
          refine .inl ⟨_, _, rfl, s, w₁, rfl, resembles, congrArg Array.size resembles.types, ?_⟩
          rw [show w.attributesOf definition = [] from given]
          rfl
        | true =>
          have looked : exec (mappingOf? definition.attributes) w₁ = (.ok none, w₁) := by
            rw [← show w₁.mapping? definition.attributes = none from given]
            rfl
          rw [if_pos rfl, exec_bind_ok looked]
          obtain ⟨e, w', run, resembles'⟩ := exec_refuseAttributes call depth
            (α := Nat) (resembles.plain plain) definition.attributes fun text =>
              .definition (.attributesNotMapping s text)
          exact .inr ⟨e, w', run, resembles.trans resembles'⟩

/-- A definition of a new type is recorded, with the name of its base. -/
theorem exec_logDefinition (plain : w.Plain) (base : Option Nat) (name : String) (t : Nat) :
    ∃ l, exec (do
      let origin ← match base with
        | some b => do
            let baseName ← textOf (call.dispatch depth) ((← get).typeName b)
            pure s!" (base_type={baseName})"
        | none => pure ""
      writeLog .registry .debug s!"Defined type: {name}{origin}"
      return t) w = (.ok t, { w with log := l }) := by
  have recorded : ∀ text, ∃ l, exec (do writeLog .registry .debug text; return t) w
      = (.ok t, { w with log := l }) := by
    intro text
    obtain ⟨l, logged⟩ := exec_writeLog .registry .debug text w
    exact ⟨l, exec_bind_ok logged _⟩
  cases base with
  | none => exact recorded _
  | some b =>
    dsimp only
    rw [exec_bind_ok (exec_get _), plain.typeName, textOf_str]
    exact recorded _

/-- A type of a new name is made and registered. -/
theorem amends_createType (plain : w.Plain) (base : Option Nat) (definition : TypeDefinition) :
    Amends (fun t w' => ∃ name : String, definition.name = .str name ∧ t = w.types.size ∧
        (w.register r ⟨name, base, Table.update [] (w.attributesOf definition), [], []⟩).Resembles
          w')
      (createType (call.dispatch depth) r base definition) w := by
  unfold createType Amends
  rcases amends_makeType call depth plain base definition
    with ⟨t, w₂, made, name, w₁, named, resembles, rfl, rfl⟩ | ⟨e, w', run, resembles⟩
  · generalize attributes : Table.update [] (w.attributesOf definition) = own at made ⊢
    have size : w₁.types.size = w.types.size := congrArg Array.size resembles.types
    have type : World.type { w₁ with types := w₁.types.push ⟨name, base, own, [], []⟩ } w.types.size
        = ⟨name, base, own, [], []⟩ := by
      rw [World.type, ← size]
      simp
    have registered := resembles.register r ⟨name, base, own, [], []⟩
    obtain ⟨l, done⟩ := exec_logDefinition call depth (registered.plain (plain.register r rfl)) base
      name w.types.size
    refine .inl ⟨w.types.size, { w₁.register r ⟨name, base, own, [], []⟩ with log := l }, ?_,
      name, named, rfl, registered.logged l⟩
    rw [exec_bind_ok made, exec_bind_ok (exec_get _), type, exec_bind_ok (exec_modify ..)]
    rw [World.register, size] at done ⊢
    exact done
  · exact .inr ⟨e, w', exec_bind_error run _, resembles⟩

/-- Only a text is found among the registered names. -/
theorem text_of_findType? {name : Value} {id : Nat} {w' : World}
    (h : exec (findType? r name) w = (.ok (some id), w')) :
    ∃ s, name = .str s ∧ w.typeNamed? r s = some id := by
  unfold findType? at h
  split at h
  · cases h
  · cases text : name.text? with
    | some s =>
      rw [text] at h
      exact ⟨s, Value.eq_str_of_text? text, Except.ok.inj (congrArg Prod.fst h)⟩
    | none =>
      rw [text] at h
      cases h

/-- The conversions of a definition are installed on a type. -/
theorem exec_installConversions (plain : w.Plain) (definition : TypeDefinition) :
    ∃ w', exec (do
      installMarshaller (call.dispatch (depth + 1)) t "to_string" definition.toText
      installMarshaller (call.dispatch (depth + 1)) t "from_string" definition.fromText
      return t) w = (.ok t, w') ∧
      (w.installing (.type t) (definition.conversions w'.nextIdentity)).Resembles w' := by
  obtain ⟨w₁, first, next, installed⟩ := exec_installMarshaller (t := t) call depth plain
    "to_string" definition.toText
  obtain ⟨w₂, second, next', installed'⟩ := exec_installMarshaller (t := t) call depth
    (installed.plain (plain.installing _ _)) "from_string" definition.fromText
  refine ⟨w₂, (exec_bind_ok first _).trans (exec_bind_ok second _), ?_⟩
  have conversions : definition.conversions w₂.nextIdentity
      = conversion "to_string" definition.toText w.nextIdentity ++
        conversion "from_string" definition.fromText w₁.nextIdentity := by
    rw [TypeDefinition.conversions, next', next]
    unfold conversion
    cases definition.toText.isNull <;> cases definition.fromText.isNull <;> simp
  rw [conversions, World.installing_append]
  exact (installed.installing _ _).trans installed'

/-- The part of a definition behind its checks: the registered type of the name is extended, or one
is made. -/
theorem amends_definition (tidy : w.Tidy) (base : Option Nat) (definition : TypeDefinition) :
    Amends (fun t w' => ∃ name, definition.name = .str name ∧
      (w.defining r name base (w.attributesOf definition)).1 = t ∧
      ((w.defining r name base (w.attributesOf definition)).2.installing (.type t)
        (definition.conversions w'.nextIdentity)).Resembles w') (do
      let id ← match ← findType? r definition.name with
        | some id => do extendType (call.dispatch (depth + 1)) id base definition; pure id
        | none => createType (call.dispatch (depth + 1)) r base definition
      installMarshaller (call.dispatch (depth + 1)) id "to_string" definition.toText
      installMarshaller (call.dispatch (depth + 1)) id "from_string" definition.fromText
      return id) w := by
  refine (checks_findType? definition.name).amends fun found looked => ?_
  -- the conversions go on what was made before
  have converted : ∀ (t : Nat) {u u' : World}, u.Plain → u.Resembles u' → ∃ w', exec (do
      installMarshaller (call.dispatch (depth + 1)) t "to_string" definition.toText
      installMarshaller (call.dispatch (depth + 1)) t "from_string" definition.fromText
      return t) u' = (.ok t, w') ∧
      (u.installing (.type t) (definition.conversions w'.nextIdentity)).Resembles w' := by
    intro t u u' plain made
    obtain ⟨w', run, installed⟩ := exec_installConversions (t := t) call depth (made.plain plain)
      definition
    exact ⟨w', run, (made.installing _ _).trans installed⟩
  cases found with
  | some id =>
    obtain ⟨s, named, registered⟩ := text_of_findType? looked
    rcases amends_extendType (t := id) call (depth + 1) tidy base named
      with ⟨x, w₁, run, merged⟩ | ⟨e, w', run, resembles⟩
    · obtain ⟨w', rest, installed⟩ := converted id (tidy.plain.merging id _) merged
      refine .inl ⟨id, w', (exec_bind_ok run _).trans rest, s, named, ?_⟩
      rw [World.defining, registered]
      exact ⟨rfl, installed⟩
    · exact .inr ⟨e, w', exec_bind_error run _, resembles⟩
  | none =>
    rcases amends_createType call (depth + 1) (r := r) tidy.plain base definition
      with ⟨t, w₁, run, name, named, rfl, made⟩ | ⟨e, w', run, resembles⟩
    · obtain ⟨w', rest, installed⟩ := converted _ (tidy.plain.register r rfl) made
      have unregistered : w.typeNamed? r name = none := by
        rw [named, exec_findType? rfl] at looked
        exact Except.ok.inj (congrArg Prod.fst looked)
      refine .inl ⟨_, w', (exec_bind_ok run _).trans rest, name, named, ?_⟩
      rw [World.defining, unregistered]
      exact ⟨rfl, installed⟩
    · exact .inr ⟨e, w', exec_bind_error run _, resembles⟩

/-- **A definition makes its world, or it changes nothing.** Its attributes are merged into a type,
which is a new one unless the name is registered, and its conversions are installed on it. -/
theorem performs_defineType (tidy : w.Tidy) (definition : TypeDefinition) :
    Amends (fun t w' => ∃ name base, definition.Performs r w name base t w')
      (defineType (call.dispatch (depth + 1)) r definition) w := by
  have plain := tidy.plain
  have performed : ∀ base, w.BaseGiven r definition.base base → ∀ t w',
      (∃ name, definition.name = .str name ∧
        (w.defining r name base (w.attributesOf definition)).1 = t ∧
        ((w.defining r name base (w.attributesOf definition)).2.installing (.type t)
          (definition.conversions w'.nextIdentity)).Resembles w') →
      ∃ name base, definition.Performs r w name base t w' :=
    fun base given t w' ⟨name, named, type, made⟩ => ⟨name, base, named, given, type, made⟩
  unfold defineType
  refine (checks_checkMarshaller plain _ _ _).amends fun _ _ => ?_
  refine (checks_checkMarshaller plain _ _ _).amends fun _ _ => ?_
  split
  · next none' =>
    have given : w.BaseGiven r definition.base none := by
      cases base : definition.base <;> rw [base] at none' <;> first | exact .none | cases none'
    exact (amends_definition call depth tidy none definition).mono (performed none given)
  · have resolved : Checks (some <$> resolveBase (call.dispatch (depth + 1)) r definition.name
        definition.base) w := by
      rw [map_eq_pure_bind]
      exact (checks_resolveBase plain _ _).bind fun b _ => checks_of_passed rfl
    refine resolved.amends fun base run => ?_
    rw [map_eq_pure_bind] at run
    obtain ⟨b, w₁, found, rest⟩ := exec_bind_eq_ok.mp run
    obtain ⟨rfl, -⟩ := exec_pure_eq_ok.mp rest
    have given := World.BaseGiven.named (baseNamed_of_resolveBase plain found)
    exact (amends_definition call depth tidy (some b) definition).mono (performed _ given)

/-! ## What is recorded -/

/-- What a definition makes of the types, as a journal. -/
theorem World.updated_defining (tidy : w.Tidy) (r : Nat) (name : String) (base : Option Nat)
    (entries : Entries) :
    let made := w.defining r name base entries
    made.1 < made.2.types.size ∧ w.Updated (merges made.1 entries) made.2 := by
  unfold World.defining
  cases found : w.typeNamed? r name with
  | some t =>
    obtain ⟨name, entry⟩ := World.mem_typesOf.mp (Table.mem_values_of_get? found)
    have inside := tidy.known r _ entry
    have updated := World.updated_merge tidy inside entries
    rw [World.changePart_typeAttributes tidy.unshared] at updated
    exact ⟨Nat.lt_of_lt_of_le inside updated.size, updated⟩
  | none =>
    refine ⟨?_, World.updated_register tidy r rfl rfl rfl⟩
    show w.types.size < (w.types.push _).size
    simp

/-- By induction on the capabilities that are installed on a type. -/
theorem World.updated_installings (tidy : w.Tidy) (inside : t < w.types.size)
    (cs : List Capability) :
    w.Updated (cs.map (.install t)) (w.installing (.type t) cs) := by
  induction cs generalizing w with
  | nil => exact .of_types (by rwa [World.installing_nil]) (by rw [World.installing_nil])
  | cons c rest ih =>
    have first := World.updated_installing tidy inside c
    rw [w.installing_cons]
    exact first.append (ih first.tidy (Nat.lt_of_lt_of_le inside first.size))

/-- What a definition makes is what its journal says. -/
theorem TypeDefinition.Performs.updated {definition : TypeDefinition} {name : String}
    {base : Option Nat} {w' : World} (performs : definition.Performs r w name base t w')
    (tidy : w.Tidy) : w.Updated (definition.updates t w w') w' := by
  obtain ⟨-, -, rfl, made⟩ := performs
  obtain ⟨inside, merged⟩ := World.updated_defining tidy r name base (w.attributesOf definition)
  have updated := merged.append (World.updated_installings merged.tidy inside
    (definition.conversions w'.nextIdentity))
  rw [TypeDefinition.updates, ← List.append_nil (_ ++ _)]
  exact updated.append (made.updated updated.tidy)

/-- **A definition changes what its journal says**, or it fails and changes nothing. -/
theorem amends_defineType (tidy : w.Tidy) (definition : TypeDefinition) :
    Amends (fun t w' => w.Updated (definition.updates t w w') w')
      (defineType (call.dispatch (depth + 1)) r definition) w :=
  (performs_defineType call depth tidy definition).mono
    fun _ _ ⟨_, _, performs⟩ => performs.updated tidy

end Changed

end DataShape
