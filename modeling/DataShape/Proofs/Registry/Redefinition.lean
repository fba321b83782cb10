import DataShape.Proofs.Registry.Capability
import DataShape.Proofs.Registry.Definer

/-! # Definitions that are made again

A definition that passed is in force: its name is registered, and the type of that name has the
attributes and the conversions that it gives. While this is so the definition can be made again. It
then finds everything as it leaves it, and only the conversions get other identities, of which nobody
who calls them takes notice.

* `World.anonymous`, `World.Refreshed` — worlds that differ in identities of installed functions.
* `World.invocation` — what invoking a capability comes to, which such worlds agree on.
* `TypeDefinition.InForce` — a definition that is in force.
* `World.Enriched` — types of given names got more attributes and capabilities, and no other ones.
* `TypeDefinition.Performs.inForce`, `TypeDefinition.InForce.kept` — where definitions are in force.
* `TypeDefinition.InForce.made_again` — a definition that is in force passes and changes nothing. -/

namespace DataShape

/-! ## Entries under texts -/

namespace Table

variable {ν : Type}

/-- Entries under texts. -/
def underTexts (fields : List (String × ν)) : Table Value ν := fields.map fun f => (.str f.1, f.2)

/-- A table has given values under texts. -/
def Holds (t : Table Value ν) (fields : List (String × ν)) : Prop :=
  ∀ f ∈ fields, t.get? (.str f.1) = some f.2

/-- What a table has already is written without a change. -/
theorem Holds.update_eq {t : Table Value ν} {fields : List (String × ν)} (holds : t.Holds fields) :
    t.update (underTexts fields) = t := by
  refine update_eq_self fun e there => ?_
  obtain ⟨f, inside, rfl⟩ := List.mem_map.mp there
  exact holds f inside

/-- What is written under distinct texts is there afterwards. By induction on what is written. -/
theorem holds_update {fields : List (String × ν)} (distinct : (fields.map Prod.fst).Nodup) :
    ∀ t : Table Value ν, Holds (t.update (underTexts fields)) fields := by
  induction fields with
  | nil => exact fun _ => nofun
  | cons f rest ih =>
    intro t
    rw [List.map_cons, List.nodup_cons] at distinct
    have later : Holds (t.update (underTexts (f :: rest))) rest :=
      ih distinct.2 (t.insert (.str f.1) f.2)
    refine List.forall_mem_cons.mpr ⟨?_, later⟩
    -- nothing is written later under the text that was written first
    have silent : ((underTexts rest).filterMap fun e =>
        if e.1.text? = some f.1 then some e.2 else none) = [] := by
      refine List.filterMap_eq_nil_iff.mpr fun e there => ?_
      obtain ⟨f', inside, rfl⟩ := List.mem_map.mp there
      refine if_neg fun same => distinct.1 ?_
      exact Option.some.inj same ▸ List.mem_map_of_mem inside
    have first : get? (t.insert (.str f.1) f.2) (.str f.1) = some f.2 :=
      (get?_insert_text ..).trans (if_pos rfl)
    show get? (update (t.insert (.str f.1) f.2) (underTexts rest)) (.str f.1) = some f.2
    rw [get?_update_text, silent, first]
    rfl

end Table

/-! ## Identities of installed functions -/

/-- A capability whose static function has no identity of its own; any other value as it is. -/
def Value.anonymous : Value → Value
  | .capability name (.static _ label f) getter setter =>
      .capability name (.static 0 label f) getter setter
  | v => v

theorem Value.anonymous_anonymous (v : Value) : v.anonymous.anonymous = v.anonymous := by
  cases v with
  | capability name f getter setter => cases f <;> rfl
  | _ => rfl

namespace CapabilityTable

/-- A table without the identities of static functions. -/
def anonymous (t : CapabilityTable) : CapabilityTable := t.map fun e => (e.1, e.2.anonymous)

theorem keys_anonymous (t : CapabilityTable) : Table.keys t.anonymous = Table.keys t := by
  rw [anonymous, Table.keys, List.map_map]
  rfl

theorem get?_anonymous (t : CapabilityTable) (key : Value) :
    Table.get? t.anonymous key = (Table.get? t key).map Value.anonymous := by
  induction t with
  | nil => rfl
  | cons e rest ih =>
    show (if e.1 == key then some e.2.anonymous else Table.get? (anonymous rest) key) = _
    rw [Table.get?_cons, ih]
    split <;> rfl

theorem anonymous_insert (t : CapabilityTable) (key v : Value) :
    anonymous (Table.insert t key v) = Table.insert t.anonymous key v.anonymous := by
  induction t with
  | nil => rfl
  | cons e rest ih =>
    show _ = Table.insert ((e.1, e.2.anonymous) :: anonymous rest) key v.anonymous
    rw [Table.insert_cons, Table.insert_cons]
    split
    · rfl
    · rw [← ih]
      rfl

/-- By induction on what is written. -/
theorem anonymous_update (entries : CapabilityTable) : ∀ t : CapabilityTable,
    anonymous (Table.update t entries) = Table.update t.anonymous entries.anonymous := by
  induction entries with
  | nil => exact fun _ => rfl
  | cons e rest ih =>
    intro t
    rw [Table.update_cons, ih, anonymous_insert]
    rfl

theorem installAll_eq_update (t : CapabilityTable) (cs : List Capability) :
    t.installAll cs = Table.update t (cs.map fun c => (c.name, c.toValue)) := by
  rw [installAll, Table.update, List.foldl_map]
  rfl

end CapabilityTable

/-- The capability that a conversion is installed as, if it is given, without an identity. -/
def converter (slot : String) (function : Value) : List (String × Value) :=
  if function.isNull then []
  else [(slot, .capability (.str slot) (.static 0 none function) .null .null)]

/-- The capabilities that the conversions of a definition are installed as. -/
def TypeDefinition.converters (definition : TypeDefinition) : List (String × Value) :=
  converter "to_string" definition.toText ++ converter "from_string" definition.fromText

theorem TypeDefinition.converters_distinct (definition : TypeDefinition) :
    (definition.converters.map Prod.fst).Nodup := by
  unfold converters converter
  split <;> split <;> simp

/-- Whatever identities the conversions of a definition are given, a table gets the same ones. -/
theorem TypeDefinition.anonymous_installAll (definition : TypeDefinition) (next : Nat)
    (t : CapabilityTable) : (t.installAll (definition.conversions next)).anonymous
      = Table.update t.anonymous (Table.underTexts definition.converters) := by
  have given : CapabilityTable.anonymous
      ((definition.conversions next).map fun c => (c.name, c.toValue))
      = Table.underTexts definition.converters := by
    unfold conversions converters conversion converter
    split <;> split <;> rfl
  rw [t.installAll_eq_update, CapabilityTable.anonymous_update, given]

/-- A change of one node that makes no difference to a view of it makes none to the view of all. -/
theorem map_modify_of_fixed {α β : Type} (nodes : Array α) (g : α → β) (i : Nat) (f : α → α)
    (otherwise : α) (fixed : g (f (nodes.getD i otherwise)) = g (nodes.getD i otherwise)) :
    (nodes.modify i f).map g = nodes.map g := by
  refine Array.ext (by simp) fun j _ inside => ?_
  rw [Array.getElem_map, Array.getElem_map, Array.getElem_modify]
  split
  · next here =>
    subst here
    have inside' : i < nodes.size := by simpa using inside
    simpa [Array.getD, inside'] using fixed
  · rfl

/-- A type without the identities of the static functions that were installed on it. -/
def TypeNode.anonymous (node : TypeNode) : TypeNode :=
  { node with capabilities := node.capabilities.anonymous }

namespace World

/-- A world without the identities of the static functions that were installed on types. -/
def anonymous (w : World) : World := { w with types := w.types.map TypeNode.anonymous }

theorem type_anonymous (w : World) (t : Nat) : w.anonymous.type t = (w.type t).anonymous :=
  getD_map w.types TypeNode.anonymous t rfl

theorem lineage_anonymous (w : World) (t : Nat) : w.anonymous.lineage t = w.lineage t := by
  have base : (fun i => (w.anonymous.type i).base) = fun i => (w.type i).base := by
    funext i
    rw [type_anonymous]
    rfl
  unfold lineage
  rw [base, anonymous, Array.size_map]

/-- Worlds that differ in the identities of static functions that were installed on types, and
otherwise only in the log, the identities given out and kept lists. -/
def Refreshed (w w' : World) : Prop := w.anonymous.Resembles w'.anonymous

theorem Refreshed.refl (w : World) : w.Refreshed w := Resembles.refl _

theorem Refreshed.trans {u v w : World} (first : u.Refreshed v) (second : v.Refreshed w) :
    u.Refreshed w :=
  Resembles.trans first second

theorem Resembles.refreshed {w w' : World} (h : w.Resembles w') : w.Refreshed w' := by
  have built := h.rebuilt (w.types.map TypeNode.anonymous) w.registries
  have right : { w' with types := w.types.map TypeNode.anonymous, registries := w.registries }
      = w'.anonymous := by
    simp only [anonymous, h.types, ← h.registries]
  rw [Refreshed, ← right]
  exact built

namespace Refreshed

variable {w w' : World} (h : w.Refreshed w')

include h

theorem registries : w'.registries = w.registries := by
  have same := Resembles.registries h
  exact same

theorem size : w'.types.size = w.types.size := by
  have same := congrArg Array.size (Resembles.types h)
  rwa [anonymous, Array.size_map, anonymous, Array.size_map] at same

theorem type (t : Nat) : (w'.type t).anonymous = (w.type t).anonymous := by
  rw [← type_anonymous, ← type_anonymous]
  exact Resembles.type h t

theorem name (t : Nat) : (w'.type t).name = (w.type t).name := by
  have same := congrArg TypeNode.name (h.type t)
  exact same

theorem base (t : Nat) : (w'.type t).base = (w.type t).base := by
  have same := congrArg TypeNode.base (h.type t)
  exact same

theorem attributes (t : Nat) : (w'.type t).attributes = (w.type t).attributes := by
  have same := congrArg TypeNode.attributes (h.type t)
  exact same

theorem lineage (t : Nat) : w'.lineage t = w.lineage t := by
  rw [← lineage_anonymous, ← w.lineage_anonymous]
  exact Resembles.lineage h t

theorem keys (t : Nat) :
    Table.keys (w'.type t).capabilities = Table.keys (w.type t).capabilities := by
  rw [← CapabilityTable.keys_anonymous, ← (w.type t).capabilities.keys_anonymous]
  exact congrArg (Table.keys ∘ TypeNode.capabilities) (h.type t)

/-- A member is the same but for the identity of a function. -/
theorem member (t : Nat) (n : String) :
    (w'.memberAlong? (w'.lineage t) (.str n)).map Value.anonymous
      = (w.memberAlong? (w.lineage t) (.str n)).map Value.anonymous := by
  have own : ∀ node : TypeNode, (node.anonymous.ownMember? (.str n)).map Value.anonymous
      = (node.ownMember? (.str n)).map Value.anonymous := by
    intro node
    unfold TypeNode.ownMember?
    rw [TypeNode.anonymous, CapabilityTable.get?_anonymous]
    cases Table.get? node.capabilities (.str n) with
    | some v => exact congrArg some v.anonymous_anonymous
    | none => rfl
  have along : ∀ chain : List Nat, (w'.memberAlong? chain (.str n)).map Value.anonymous
      = (w.memberAlong? chain (.str n)).map Value.anonymous := by
    intro chain
    have asked : ∀ i, ((w'.type i).ownMember? (.str n)).map Value.anonymous
        = ((w.type i).ownMember? (.str n)).map Value.anonymous := by
      intro i
      rw [← own, ← own (w.type i), h.type i]
    unfold memberAlong?
    rw [List.map_findSome?, List.map_findSome?]
    exact congrArg (chain.findSome? ·) (funext asked)
  rw [h.lineage, along]

end Refreshed

/-! ## Invocations -/

/-- What invoking a capability of a type comes to: the function that the type finds is called. -/
def invocation (w : World) (d : Dispatch) (t : Nat) (n : String) (arguments : List Value)
    (named : List (String × Value)) : Action Value :=
  ((w.capability? n t).elim .absent .capability : Resolved).invokeOn d (.type t) (w.absence t n)
    arguments named

/-- In a plain world nothing else is done. -/
theorem Plain.exec_invokeOwn {w : World} (plain : w.Plain) (d : Dispatch) (t : Nat) (n : String)
    (arguments : List Value) (named : List (String × Value)) :
    exec (invokeOwn d (.type t) (.str n) arguments named) w
      = exec (w.invocation d t n arguments named) w := by
  have missing : exec (capabilityMissing d (.type t) (.str n) : Action Value) w
      = (.error (w.absence t n), w) := by
    have name : exec (hostName d (.type t)) w = (.ok (.str (w.type t).name), w) := by
      unfold hostName ownHostName
      rw [plain.exec_orStandIn, exec_bind_ok (exec_get w), plain.typeName]
      rfl
    unfold capabilityMissing
    rw [exec_bind_ok name]
    rfl
  unfold invokeOwn invocation
  rw [exec_bind_ok (plain.exec_capabilityOn d t n)]
  show exec (boundFunction d (.type t) ((w.capability? n t).elim .null Capability.toValue) >>= _) w
    = _
  cases w.capability? n t with
  | none => exact missing
  | some c => exact c.exec_invokeOn d arguments named missing

/-- An invocation does not depend on the identity of a function. -/
theorem Refreshed.invocation {w w' : World} (h : w.Refreshed w') (d : Dispatch) (t : Nat)
    (n : String) (arguments : List Value) (named : List (String × Value)) :
    w'.invocation d t n arguments named = w.invocation d t n arguments named := by
  have nameless : ∀ (absence : Fault) (m : Option Value),
      (((m.map Value.anonymous).bind Value.capability?).elim .absent .capability
        : Resolved).invokeOn d (.type t) absence arguments named
      = ((m.bind Value.capability?).elim .absent .capability : Resolved).invokeOn d (.type t)
          absence arguments named := by
    intro absence m
    rcases m with none | v
    · rfl
    · cases v with
      | capability name f getter setter => cases f <;> rfl
      | _ => rfl
  have absence : w'.absence t n = w.absence t n := by
    rw [World.absence, World.absence, h.name]
  unfold World.invocation capability?
  rw [← nameless, ← nameless _ (w.memberAlong? _ _), h.member, absence]

end World

/-! ## What a definition enriches -/

theorem World.Resembles.untouched {w u : World} (h : w.Resembles u) : w.Untouched u := by
  have same := Relisted.untouched h
  exact ⟨same.size, same.name, same.base, same.registered, h.plain⟩

/-- A registry grew, and types that it has under given names got more attributes and capabilities.
Other types that were there are as they were, and no type lost anything. -/
structure World.Enriched (r : Nat) (names : List String) (w w' : World) : Prop where
  tidy : w'.Tidy
  registries : w'.registries.size = w.registries.size
  grown : w.Grown r w'
  old : ∀ n, ∀ t < w.types.size, w'.typeNamed? r n = some t → w.typeNamed? r n = some t
  outside : ∀ t < w.types.size, (∀ n ∈ names, w.typeNamed? r n ≠ some t) → w'.type t = w.type t
  attributes : ∀ t, Table.keys (w.type t).attributes <+: Table.keys (w'.type t).attributes
  slots : ∀ t, Table.keys (w.type t).capabilities <+: Table.keys (w'.type t).capabilities

section Enriched

variable {w w' : World} {r t : Nat} {definition : TypeDefinition} {name : String}
  {base : Option Nat}

theorem World.Enriched.refl (tidy : w.Tidy) (sound : w.SoundRegistry r) : w.Enriched r [] w where
  tidy := tidy
  registries := rfl
  grown := Frame.refl (R := World.Evolves r) w tidy.plain sound
  old _ _ _ found := found
  outside _ _ _ := rfl
  attributes _ := List.prefix_rfl
  slots _ := List.prefix_rfl

theorem World.Enriched.append {u v w : World} {names names' : List String}
    (first : u.Enriched r names v) (second : v.Enriched r names' w) :
    u.Enriched r (names ++ names') w where
  tidy := second.tidy
  registries := second.registries.trans first.registries
  grown := first.grown.trans second.grown
  old n t inside found :=
    first.old n t inside (second.old n t (Nat.lt_of_lt_of_le inside first.grown.size) found)
  outside t inside others := by
    have before := first.outside t inside fun n there =>
      others n (List.mem_append_left _ there)
    rw [← before]
    refine second.outside t (Nat.lt_of_lt_of_le inside first.grown.size) fun n there found => ?_
    exact others n (List.mem_append_right _ there) (first.old n t inside found)
  attributes t := (first.attributes t).trans (second.attributes t)
  slots t := (first.slots t).trans (second.slots t)

/-- What a definition makes lets every sound registry grow. -/
theorem TypeDefinition.Performs.evolves (performs : definition.Performs r w name base t w')
    (i : Nat) : w.Evolves i w' := by
  obtain ⟨-, based, rfl, made⟩ := performs
  have defined : w.Evolves i (w.defining r name base (w.attributesOf definition)).2 := by
    unfold World.defining
    cases found : w.typeNamed? r name with
    | some t =>
      exact Steady.untouched (w.untouched_modifyType t (fun _ => rfl) (fun _ => rfl) fun _ h => h)
    | none =>
      refine World.evolves_register rfl (fun same => same ▸ found) ?_
      rintro rfl b rfl
      generalize definition.base = given at based
      cases based with
      | named h => exact h.registered
  exact Frame.trans defined <| Frame.trans (Steady.untouched (World.untouched_changeTable ..)) <|
    Steady.untouched made.untouched

/-- A definition gives no type that was there another name: only the name of a new type is new. -/
theorem World.Defines.typeNamed?_old {given : Entries} {conversions : List Capability}
    (defines : w.Defines r name base given conversions t w') (sound : w.SoundRegistry r)
    (grown : w.Grown r w') {n : String} {i : Nat} (inside : i < w.types.size)
    (found : w'.typeNamed? r n = some i) : w.typeNamed? r n = some i := by
  cases known : w.typeNamed? r n with
  | some j =>
    have entry := (Table.get?_eq_some_iff sound.distinct).mp known
    rw [← found, grown.typeNamed? entry]
  | none =>
    have listed : n ∈ w'.typeNames r :=
      List.mem_map_of_mem ((Table.get?_eq_some_iff grown.sound.distinct).mp found)
    have absent := Table.get?_eq_none_iff.mp known
    rw [defines.names] at listed
    split at listed
    · exact absurd listed absent
    · next fresh =>
      rcases List.mem_append.mp listed with there | there
      · exact absurd there absent
      · obtain rfl := List.mem_singleton.mp there
        rcases defines.type with there | ⟨-, rfl⟩
        · rw [there] at fresh
          exact absurd rfl fresh
        · rw [defines.registered] at found
          exact absurd (Option.some.inj found).symm (Nat.ne_of_lt inside)

/-- A definition enriches the type of its name. -/
theorem TypeDefinition.Performs.enriched (performs : definition.Performs r w name base t w')
    (tidy : w.Tidy) (sound : w.SoundRegistry r) (exists' : r < w.registries.size) :
    w.Enriched r [name] w' := by
  have defines := performs.defines tidy exists'
  have grown := performs.evolves r tidy.plain sound
  refine ⟨(performs.updated tidy).tidy, ?_, grown,
    fun n i inside found => defines.typeNamed?_old sound grown inside found,
    fun i inside others => ?_, fun i => ?_, fun i => ?_⟩
  · have same := congrArg Array.size performs.made.registries
    have kept : (w.defining r name base (w.attributesOf definition)).2.registries.size
        = w.registries.size := by
      unfold World.defining
      cases w.typeNamed? r name with
      | some t => rfl
      | none => exact Array.size_modify
    exact same.trans kept
  · refine defines.others i fun same => ?_
    subst same
    rcases defines.type with there | ⟨-, new⟩
    · exact others name List.mem_cons_self there
    · exact absurd new (Nat.ne_of_lt inside)
  · by_cases same : i = t
    · subst same
      rw [defines.attributes]
      exact Table.keys_prefix_update ..
    · exact (defines.others i same).symm ▸ List.prefix_rfl
  · by_cases same : i = t
    · subst same
      rw [defines.capabilities, CapabilityTable.installAll_eq_update]
      exact Table.keys_prefix_update ..
    · exact (defines.others i same).symm ▸ List.prefix_rfl

end Enriched

/-! ## Definitions in force -/

namespace TypeDefinition

/-- A definition by texts: it has a name, attributes under distinct texts, conversions that are none
or can be called, and no base or the name of one. -/
structure Literal (definition : TypeDefinition) (name : String) (fields : List (String × Value)) :
    Prop where
  named : definition.name = .str name
  attributes : definition.attributes = .ofFields fields
  distinct : (fields.map Prod.fst).Nodup
  toText : definition.toText.isConversion = true
  fromText : definition.fromText.isConversion = true
  base : definition.base = .null ∨ ∃ n, definition.base = .str n

/-- A definition by texts is in force: the type of its name has what it gives, and its base is
registered and does not derive from the name. -/
structure InForce (definition : TypeDefinition) (r : Nat) (name : String)
    (fields : List (String × Value)) (w : World) (t : Nat) : Prop where
  literal : definition.Literal name fields
  registered : w.typeNamed? r name = some t
  attributes : Table.Holds (w.type t).attributes fields
  conversions : Table.Holds (w.type t).capabilities.anonymous definition.converters
  based : ∀ n, definition.base = .str n → ∃ b, w.typeNamed? r n = some b ∧
    name ∉ (w.lineage b).map fun i => (w.type i).name

section InForce

variable {definition : TypeDefinition} {name : String} {fields : List (String × Value)}
  {w w' : World} {r t : Nat}

theorem Literal.attributesOf (literal : definition.Literal name fields) (w : World) :
    w.attributesOf definition = Table.underTexts fields := by
  rw [World.attributesOf, literal.attributes]
  rfl

/-- A definition that passes refuses no cycle: its base does not derive from its name. -/
theorem Literal.apart (literal : definition.Literal name fields) (plain : w.Plain) {call : Provider}
    {depth : Nat} (run : exec (defineType (call.dispatch depth) r definition) w = (.ok t, w')) {b : Nat}
    (based : w.BaseNamed r definition.base b) :
    name ∉ (w.lineage b).map fun i => (w.type i).name := by
  intro derives
  obtain ⟨_, _, _, refused⟩ := (defineType_cycle_iff call depth plain literal.named literal.toText
    literal.fromText based).mpr derives
  rw [run] at refused
  cases refused

/-- **What passed is in force.** -/
theorem Performs.inForce {base : Option Nat} (performs : definition.Performs r w name base t w')
    (literal : definition.Literal name fields) (tidy : w.Tidy) (sound : w.SoundRegistry r)
    (exists' : r < w.registries.size) {call : Provider} {depth : Nat}
    (run : exec (defineType (call.dispatch depth) r definition) w = (.ok t, w')) :
    definition.InForce r name fields w' t := by
  have defines := performs.defines tidy exists'
  have grown := performs.evolves r tidy.plain sound
  refine ⟨literal, defines.registered, ?_, ?_, fun n given => ?_⟩
  · rw [defines.attributes, literal.attributesOf]
    exact Table.holds_update literal.distinct _
  · rw [defines.capabilities, definition.anonymous_installAll]
    exact Table.holds_update definition.converters_distinct _
  · -- the base was registered before, under the same name
    have based := performs.based
    rw [given] at based
    cases based with
    | @named _ b based =>
      cases based with
      | name found =>
        have entry := (Table.get?_eq_some_iff sound.distinct).mp found
        refine ⟨b, grown.typeNamed? entry, ?_⟩
        rw [grown.lineage_names sound (Table.mem_values_of_get? found)]
        exact literal.apart tidy.plain run (given ▸ .name found)

/-- A definition stays in force while the registry grows and its type keeps what it has. -/
theorem InForce.kept (inForce : definition.InForce r name fields w t) (sound : w.SoundRegistry r)
    (grown : w.Grown r w') (same : (w'.type t).anonymous = (w.type t).anonymous) :
    definition.InForce r name fields w' t where
  literal := inForce.literal
  registered := grown.typeNamed? ((Table.get?_eq_some_iff sound.distinct).mp inForce.registered)
  attributes := by
    have own := inForce.attributes
    have kept := congrArg TypeNode.attributes same
    rwa [← show (w'.type t).attributes = (w.type t).attributes from kept] at own
  conversions := by
    have own := inForce.conversions
    have kept := congrArg TypeNode.capabilities same
    rwa [← show (w'.type t).capabilities.anonymous = (w.type t).capabilities.anonymous from kept]
      at own
  based n given := by
    obtain ⟨b, found, apart⟩ := inForce.based n given
    refine ⟨b, grown.typeNamed? ((Table.get?_eq_some_iff sound.distinct).mp found), ?_⟩
    rwa [grown.lineage_names sound (Table.mem_values_of_get? found)]

/-! ## Definitions that are made again -/

/-- A definition of a registered name passes if its base does not derive from the name. -/
theorem Literal.exec_defineType_registered (literal : definition.Literal name fields)
    (tidy : w.Tidy) (registered : w.typeNamed? r name = some t)
    (based : ∀ n, definition.base = .str n → ∃ b, w.typeNamed? r n = some b ∧
      name ∉ (w.lineage b).map fun i => (w.type i).name) (call : Provider) (depth : Nat) :
    ∃ w', exec (defineType (call.dispatch (depth + 1)) r definition) w = (.ok t, w') := by
  have looked : exec (findType? r definition.name) w = (.ok (some t), w) := by
    rw [literal.named, exec_findType? rfl, ← registered]
    rfl
  have mapped : w.mapping? definition.attributes = some (Table.underTexts fields) := by
    rw [literal.attributes]
    rfl
  -- a registered type is extended, whatever the base is, and gets the conversions
  have extended : ∀ base : Option Nat, ∃ w', exec (do
      extendType (call.dispatch (depth + 1)) t base definition
      installMarshaller (call.dispatch (depth + 1)) t "to_string" definition.toText
      installMarshaller (call.dispatch (depth + 1)) t "from_string" definition.fromText
      return t) w = (.ok t, w') := by
    intro base
    obtain ⟨l, extended⟩ := exec_extendType (t := t) call (depth + 1) tidy.plain base literal.named
    have logged : w.Resembles { w with log := l } := (World.Resembles.refl w).logged l
    obtain ⟨w₁, merged, made⟩ := exec_mergeMapping (t := t) (logged.tidy tidy) mapped
      (call.dispatch (depth + 1)) s!"Merged attributes into type: {name}"
    have plain := made.plain ((logged.plain tidy.plain).merging t _)
    obtain ⟨w₂, installed, -⟩ := exec_installConversions (t := t) call depth plain definition
    exact ⟨w₂, (exec_bind_ok (extended.trans merged) _).trans installed⟩
  unfold defineType
  rw [exec_bind_ok (exec_checkMarshaller literal.toText),
    exec_bind_ok (exec_checkMarshaller literal.fromText)]
  rcases literal.base with none' | ⟨n, given⟩
  · obtain ⟨w', run⟩ := extended none
    rw [none', if_pos (show Value.null.isNull = true from rfl)]
    exact ⟨w', (exec_bind_ok looked _).trans run⟩
  · obtain ⟨b, found, apart⟩ := based n given
    obtain ⟨w', run⟩ := extended (some b)
    have resolved : exec (some <$> resolveBase (call.dispatch (depth + 1)) r definition.name
        (.str n)) w = (.ok (some b), w) := by
      rw [literal.named, exec_map, exec_resolveBase_of_not_derives tidy.plain (.name found) apart]
    rw [given, if_neg (show ¬ (Value.str n).isNull = true from Bool.false_ne_true),
      exec_bind_ok resolved]
    exact ⟨w', (exec_bind_ok looked _).trans run⟩

/-- What a definition that is in force makes differs from what was there in the identities of its
conversions only. -/
theorem InForce.refreshed (inForce : definition.InForce r name fields w t) (next : Nat) :
    w.Refreshed ((w.merging t (w.attributesOf definition)).installing (.type t)
      (definition.conversions next)) := by
  have merged : w.merging t (w.attributesOf definition) = w := by
    have still : w.types.modify t (fun n =>
        { n with attributes := Table.update n.attributes (w.attributesOf definition) })
        = w.types := by
      have same := map_modify_of_fixed w.types id t (fun n : TypeNode =>
        { n with attributes := Table.update n.attributes (w.attributesOf definition) }) default
      rw [Array.map_id, Array.map_id] at same
      refine same ?_
      rw [inForce.literal.attributesOf]
      exact congrArg (fun own => { w.type t with attributes := own }) inForce.attributes.update_eq
    rw [World.merging, World.modifyType, still]
  have installed : (w.installing (.type t) (definition.conversions next)).anonymous
      = w.anonymous := by
    have still : (w.types.modify t fun n => { n with
        capabilities := n.capabilities.installAll (definition.conversions next) }).map
          TypeNode.anonymous = w.types.map TypeNode.anonymous := by
      refine map_modify_of_fixed w.types TypeNode.anonymous t _ default ?_
      have own := inForce.conversions.update_eq
      rw [← definition.anonymous_installAll next] at own
      exact congrArg (fun table => { w.type t with capabilities := table }) own
    rw [World.installing, World.changeTable, World.modifyType, World.anonymous, still]
    rfl
  rw [merged, World.Refreshed, installed]
  exact .refl _

/-- **A definition that is in force is made again**, without a change but to the identities of its
conversions. -/
theorem InForce.made_again (inForce : definition.InForce r name fields w t) (tidy : w.Tidy)
    (sound : w.SoundRegistry r) (exists' : r < w.registries.size) (call : Provider) (depth : Nat) :
    ∃ w', exec (defineType (call.dispatch (depth + 1)) r definition) w = (.ok t, w') ∧
      w.Refreshed w' ∧ w.Enriched r [name] w' := by
  obtain ⟨w', run⟩ := inForce.literal.exec_defineType_registered tidy inForce.registered
    inForce.based call depth
  rcases performs_defineType call depth (r := r) tidy definition
    with ⟨t', w₁, run', name', base, performs⟩ | ⟨e, w₁, run', -⟩
  · obtain ⟨same, rfl⟩ := Prod.mk.inj (run.symm.trans run')
    obtain rfl := Except.ok.inj same
    obtain rfl : name = name' := Value.str.inj (inForce.literal.named.symm.trans performs.named)
    have made := performs.made
    rw [World.defining, inForce.registered] at made
    exact ⟨w', run, (inForce.refreshed _).trans made.refreshed,
      performs.enriched tidy sound exists'⟩
  · cases run.symm.trans run'

end InForce

end TypeDefinition

end DataShape
