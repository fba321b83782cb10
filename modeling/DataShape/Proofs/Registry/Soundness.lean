import DataShape.Proofs.Registry.Lineage
import DataShape.Proofs.Registry.Run

/-! # Registries stay sound

A registry that starts empty is sound after every run. The only step that matters is the creation of
a type: its name was looked up just before and its base is registered, and nothing that happens in
between runs a function of a provider. All other steps leave registries untouched.

* `World.Grown`, `World.Evolves` — in a plain world a sound registry stays sound and only grows.
* `evolves_createType`, `evolves_defineType` — the steps. -/

namespace DataShape

namespace World

/-! ## Growing registries -/

/-- A sound registry of a plain world stays sound: the types there are keep their names and bases,
and the types of the registry keep their places. -/
structure Grown (r : Nat) (w w' : World) : Prop where
  plain : w'.Plain
  sound : w'.SoundRegistry r
  size : w.types.size ≤ w'.types.size
  name : ∀ i < w.types.size, (w'.type i).name = (w.type i).name
  base : ∀ i < w.types.size, (w'.type i).base = (w.type i).base
  places : (w.registry r).types <+: (w'.registry r).types

/-- In a plain world a sound registry grows. -/
def Evolves (r : Nat) (w w' : World) : Prop := w.Plain → w.SoundRegistry r → w.Grown r w'

/-- A registry is as sound as before if the types there are keep their names and bases. -/
theorem SoundRegistry.of_kept {w w' : World} {r : Nat} (sound : w.SoundRegistry r)
    (size : w.types.size ≤ w'.types.size)
    (name : ∀ i < w.types.size, (w'.type i).name = (w.type i).name)
    (base : ∀ i < w.types.size, (w'.type i).base = (w.type i).base)
    (registered : (w'.registry r).types = (w.registry r).types) : w'.SoundRegistry r where
  known e he := Nat.lt_of_lt_of_le (sound.known e (registered ▸ he)) size
  named e he := by
    rw [registered] at he
    rw [name _ (sound.known e he), sound.named e he]
  distinct := by
    rw [typeNames, registered]
    exact sound.distinct
  based before id after split b hb := by
    rw [typesOf, registered] at split
    have here : id ∈ w.typesOf r := by
      rw [typesOf, split]
      simp
    rw [base _ (sound.inside here)] at hb
    exact sound.based before id after split b hb

theorem Grown.trans {r : Nat} {u v w : World} (first : u.Grown r v) (second : v.Grown r w) :
    u.Grown r w where
  plain := second.plain
  sound := second.sound
  size := Nat.le_trans first.size second.size
  name i h := (second.name i (Nat.lt_of_lt_of_le h first.size)).trans (first.name i h)
  base i h := (second.base i (Nat.lt_of_lt_of_le h first.size)).trans (first.base i h)
  places := first.places.trans second.places

namespace Grown

variable {r : Nat} {w w' : World} (grown : w.Grown r w') (sound : w.SoundRegistry r) {t : Nat}
  (registered : t ∈ w.typesOf r)

include grown

theorem typesOf_subset : w.typesOf r ⊆ w'.typesOf r := by
  intro i there
  obtain ⟨n, entry⟩ := mem_typesOf.mp there
  exact mem_typesOf.mpr ⟨n, grown.places.subset entry⟩

include sound registered

/-- Registered types keep their lineages. -/
theorem lineage : w'.lineage t = w.lineage t := by
  obtain ⟨before, after, split⟩ := List.append_of_mem registered
  exact sound.lineage_of_kept grown.sound (fun _ there => grown.typesOf_subset there)
    (fun i there => grown.base i (sound.inside there)) _ (Nat.le_refl _) split

/-- The names along the lineage of a registered type stay what they are. -/
theorem lineage_names : ((w'.lineage t).map fun i => (w'.type i).name)
    = (w.lineage t).map fun i => (w.type i).name := by
  rw [grown.lineage sound registered]
  refine List.map_congr_left fun i there => grown.name i (sound.inside ?_)
  exact sound.mem_of_mem_lineage registered there

end Grown

instance Evolves.steady (r : Nat) : Steady (Evolves r) where
  trans first second plain sound := by
    have middle := first plain sound
    exact middle.trans (second middle.plain middle.sound)
  untouched h plain sound := by
    have kept := sound.of_kept h.size h.name h.base (h.registered r)
    exact ⟨h.plain plain, kept, h.size, h.name, h.base, h.registered r ▸ List.prefix_rfl⟩

/-! ## A new type -/

/-- The world in which a type was created and registered. -/
def register (w : World) (r : Nat) (node : TypeNode) : World :=
  { w with types := w.types.push node }.modifyRegistry r fun n =>
    { n with types := n.types.insert node.name w.types.size }

theorem type_register (w : World) (r : Nat) (node : TypeNode) (i : Nat) :
    (w.register r node).type i = if i = w.types.size then node else w.type i :=
  getD_push ..

theorem Plain.register {w : World} (plain : w.Plain) (r : Nat) {node : TypeNode}
    (stored : node.stored = []) : (w.register r node).Plain := by
  refine ⟨fun i => ?_, plain.fields, plain.schemas⟩
  rw [type_register]
  split
  · exact stored
  · exact plain.types i

end World

namespace World

/-- A registry that got a type of a new name, whose base it has, is sound. -/
theorem SoundRegistry.of_appended {w w' : World} {r : Nat} (sound : w.SoundRegistry r)
    {node : TypeNode} (size : w'.types.size = w.types.size + 1)
    (old : ∀ i < w.types.size, w'.type i = w.type i) (new : w'.type w.types.size = node)
    (fresh : w.typeNamed? r node.name = none)
    (based : ∀ b, node.base = some b → b ∈ w.typesOf r)
    (registered : (w'.registry r).types = (w.registry r).types ++ [(node.name, w.types.size)]) :
    w'.SoundRegistry r where
  known e he := by
    rw [registered, List.mem_append, List.mem_singleton] at he
    rcases he with he | rfl
    · have := sound.known e he
      omega
    · show w.types.size < _
      omega
  named e he := by
    rw [registered, List.mem_append, List.mem_singleton] at he
    rcases he with he | rfl
    · rw [old _ (sound.known e he), sound.named e he]
    · rw [new]
  distinct := by
    rw [typeNames, registered, Table.keys, List.map_append]
    refine List.nodup_append.mpr ⟨sound.distinct, List.nodup_singleton _, ?_⟩
    rintro a ha b hb rfl
    obtain rfl : a = node.name := List.mem_singleton.mp hb
    exact Table.get?_eq_none_iff.mp fresh ha
  based before id after split b hb := by
    rw [typesOf, registered, Table.values, List.map_append, List.map_singleton] at split
    rcases after.eq_nil_or_concat' with rfl | ⟨rest, last, rfl⟩
    · obtain ⟨same, single⟩ := List.append_inj' split rfl
      obtain rfl : w.types.size = id := List.singleton_inj.mp single
      rw [new] at hb
      have here := based b hb
      rwa [typesOf, Table.values, same] at here
    -- The type is an older one, since the new one stands last; its base was there before, too.
    · rw [← List.cons_append, ← List.append_assoc] at split
      obtain ⟨same, -⟩ := List.append_inj' split rfl
      have here : id ∈ w.typesOf r := by
        show id ∈ (w.registry r).types.map Prod.snd
        rw [same]
        simp
      rw [old _ (sound.inside here)] at hb
      exact sound.based before id rest same b hb

/-- To register a type of a new name, whose base is registered, lets the registry grow; any other
registry is left untouched. -/
theorem evolves_register {w : World} {r r' : Nat} {node : TypeNode} (stored : node.stored = [])
    (fresh : r' = r → w.typeNamed? r node.name = none)
    (based : r' = r → ∀ b, node.base = some b → b ∈ w.typesOf r) :
    w.Evolves r (w.register r' node) := by
  intro plain sound
  have size : (w.register r' node).types.size = w.types.size + 1 := Array.size_push ..
  have new : (w.register r' node).type w.types.size = node := by
    rw [type_register, if_pos rfl]
  have old : ∀ i < w.types.size, (w.register r' node).type i = w.type i := fun i h => by
    rw [type_register, if_neg (Nat.ne_of_lt h)]
  have plain' : (w.register r' node).Plain := plain.register r' stored
  have table : ((w.register r' node).registry r).types = (w.registry r).types ∨
      r' = r ∧ ((w.register r' node).registry r).types
        = (w.registry r).types.insert node.name w.types.size := by
    unfold register
    rw [registry_modifyRegistry]
    split
    · next h => exact .inr ⟨h.1, rfl⟩
    · exact .inl rfl
  rcases table with same | ⟨rfl, inserted⟩
  · refine ⟨plain', ?_, by omega, fun i h => by rw [old i h], fun i h => by rw [old i h],
      same ▸ List.prefix_rfl⟩
    exact sound.of_kept (by omega) (fun i h => by rw [old i h]) (fun i h => by rw [old i h]) same
  · rw [Table.insert_of_get?_eq_none (fresh rfl)] at inserted
    refine ⟨plain', ?_, by omega, fun i h => by rw [old i h], fun i h => by rw [old i h],
      by rw [inserted]; exact List.prefix_append ..⟩
    exact sound.of_appended size old new (fresh rfl) (based rfl) inserted

end World

variable {d : Dispatch} {r : Nat}

/-! ## Making and registering a type -/

/-- A type needs a text as its name. -/
theorem makeType_of_not_text {name : Value} (h : name.text? = none) (attributes base : Value) :
    makeType d name attributes base = (do throw (.definition (.typeName (← shown d name)))) := by
  unfold makeType
  split
  · cases h
  · rfl

/-- A type needs a name that is not empty. -/
theorem makeType_of_empty (attributes base : Value) :
    makeType d (.str "") attributes base
      = throw (.definition (.typeName (Text.quoted ""))) := by
  funext w
  simp only [makeType, shown_str, pure_bind]
  rfl

/-- A type with a name is made from attributes that count as nothing or are a mapping. -/
theorem makeType_of_name {s : String} (named : s.isEmpty = false) (attributes : Value)
    (base : Option Nat) :
    makeType d (.str s) attributes (base.elim .null .type) = (do
      if ← truthOf d attributes then
        match ← mappingOf? attributes with
        | some entries => newType ⟨s, base, Table.update [] entries, [], []⟩
        | none => throw (.definition (.attributesNotMapping s (← shown d attributes)))
      else newType ⟨s, base, [], [], []⟩) := by
  cases base <;>
    (simp only [makeType, named, Bool.false_eq_true, if_false, Option.elim, pure_bind]; try rfl)

/-- In a plain world a type is not made, for a fault that is worded along the way, or it is the next
type, with the name and the base that it was to have. Until then only field lists are computed. -/
theorem makeType_spec [d.Within (World.Evolves r)] {w : World} (plain : w.Plain)
    (name attributes : Value) (base : Option Nat) :
    (∃ e w', exec (makeType d name attributes (base.elim .null .type)) w = (.error e, w') ∧
      w.Evolves r w') ∨
    ∃ w₁ node, w.Relisted w₁ ∧ name = .str node.name ∧ node.base = base ∧ node.stored = [] ∧
      exec (makeType d name attributes (base.elim .null .type)) w
        = (.ok w₁.types.size, { w₁ with types := w₁.types.push node }) := by
  cases text : name.text? with
  | none =>
    rw [makeType_of_not_text text]
    obtain ⟨e, run⟩ := exec_bind_throw (β := Nat) (shown d name)
      (fun text => .definition (.typeName text)) w
    exact .inl ⟨e, _, run, (along_shown (d := d) name).out w⟩
  | some s =>
    obtain rfl : name = .str s := by cases name <;> simp_all [Value.text?]
    cases named : s.isEmpty with
    | true =>
      rw [String.isEmpty_iff.mp named, makeType_of_empty]
      exact .inl ⟨_, w, rfl, Frame.refl w⟩
    | false =>
      rw [makeType_of_name named]
      obtain ⟨b, w₁, tested, relisted⟩ := relists_truthOf d plain attributes
      rw [exec_bind_ok tested]
      cases b with
      | false => exact .inr ⟨w₁, ⟨s, base, [], [], []⟩, relisted, rfl, rfl, rfl, rfl⟩
      | true =>
        rw [if_pos rfl, exec_bind_ok (exec_mappingOf? attributes w₁)]
        split
        · exact .inr ⟨w₁, ⟨s, base, _, [], []⟩, relisted, rfl, rfl, rfl, rfl⟩
        · obtain ⟨e, run⟩ := exec_bind_throw (β := Nat) (shown d attributes)
            (fun text => .definition (.attributesNotMapping s text)) w₁
          refine .inl ⟨e, _, run, Frame.trans (Steady.untouched relisted.untouched) ?_⟩
          exact (along_shown (d := d) attributes).out w₁

/-- To create a type of a new name, whose base is registered, lets a sound registry grow. -/
theorem evolves_createType [d.Within (World.Evolves r)] {w : World} {r' : Nat}
    {definition : TypeDefinition} {base : Option Nat}
    (fresh : r' = r → ∀ s, definition.name = .str s → w.typeNamed? r s = none)
    (based : r' = r → ∀ b, base = some b → b ∈ w.typesOf r) :
    w.Evolves r (exec (createType d r' base definition) w).2 := by
  intro plain sound
  unfold createType
  rcases makeType_spec (r := r) (d := d) plain definition.name definition.attributes base with
    ⟨e, w', run, evolves⟩ | ⟨w₁, node, relisted, name, rfl, stored, run⟩
  · rw [exec_bind_error run]
    exact evolves plain sound
  · -- the name was not registered in the world before, and field lists are no types
    have first : w.Evolves r (w₁.register r' node) := by
      refine Frame.trans (Steady.untouched relisted.untouched) (World.evolves_register stored ?_ ?_)
      · intro same
        have := fresh same _ name
        rwa [World.typeNamed?, relisted.registry]
      · intro same
        rw [World.typesOf, relisted.registry]
        exact based same
    have made : (World.type { w₁ with types := w₁.types.push node } w₁.types.size) = node := by
      rw [World.type]
      simp
    rw [exec_bind_ok run, exec_bind_ok (exec_get _), made, exec_bind_ok (exec_modify ..)]
    refine Frame.trans first ?_ plain sound
    cases node.base with
    | none => exact Along.out _
    | some b => exact Along.out _

/-! ## Bases -/

/-- A name that can be a key is looked up, and nothing changes. -/
theorem exec_findType? {w : World} {r : Nat} {name : Value} (h : name.hashable = true) :
    exec (findType? r name) w = (.ok (name.text?.bind (w.typeNamed? r)), w) := by
  unfold findType?
  simp only [h, Bool.not_true, Bool.false_eq_true, if_false]
  rfl

/-- What is found under a name is registered. -/
theorem registered_of_findType? {w w' : World} {r id : Nat} {name : Value}
    (h : exec (findType? r name) w = (.ok (some id), w')) : w' = w ∧ id ∈ w.typesOf r := by
  cases keyed : name.hashable with
  | false =>
    unfold findType? at h
    simp [keyed] at h
  | true =>
    rw [exec_findType? keyed] at h
    obtain ⟨found, rfl⟩ := Prod.mk.inj h
    obtain ⟨s, -, found⟩ := Option.bind_eq_some_iff.mp (Except.ok.inj found)
    exact ⟨rfl, Table.mem_values_of_get? found⟩

/-- The base that a definition names is registered. -/
theorem registered_of_baseNamed {w w' : World} {r b : Nat} {name base : Value}
    (h : exec (baseNamed d r name base) w = (.ok b, w')) : b ∈ w'.typesOf r := by
  unfold baseNamed at h
  split at h
  · unfold requireType at h
    obtain ⟨found, w₁, looked, rest⟩ := exec_bind_eq_ok.mp h
    cases found with
    | some id =>
      obtain ⟨rfl, registered⟩ := registered_of_findType? looked
      obtain ⟨rfl, rfl⟩ := exec_pure_eq_ok.mp rest
      exact registered
    | none => simp [typeNotFound, exec_bind_eq_ok] at rest
  · next id =>
    simp only [exec_bind_eq_ok, exec_get] at h
    obtain ⟨_, _, ⟨⟩, found, w₁, looked, h⟩ := h
    split at h
    · next same =>
      obtain rfl := eq_of_beq same
      obtain ⟨rfl, registered⟩ := registered_of_findType? looked
      obtain ⟨rfl, rfl⟩ := exec_pure_eq_ok.mp h
      exact registered
    · simp [exec_bind_eq_ok] at h
  · simp [exec_bind_eq_ok] at h

/-- The base of a definition is still registered after it was asked what it derives from. -/
theorem registered_of_resolveBase [d.Within (World.Evolves r)] {w w' : World} {b : Nat}
    {name base : Value} (plain : w.Plain) (sound : w.SoundRegistry r)
    (h : exec (resolveBase d r name base) w = (.ok b, w')) : b ∈ w'.typesOf r := by
  unfold resolveBase at h
  obtain ⟨id, w₁, named, h⟩ := exec_bind_eq_ok.mp h
  obtain ⟨derives, w₂, asked, h⟩ := exec_bind_eq_ok.mp h
  cases derives with
  | true => simp [exec_bind_eq_ok] at h
  | false =>
    obtain ⟨rfl, rfl⟩ := exec_pure_eq_ok.mp h
    have first : w.Evolves r w₁ := Along.of_ok named
    have grown := first plain sound
    have second : w₁.Evolves r w₂ := Along.of_ok asked
    obtain ⟨more, places⟩ := (second grown.plain grown.sound).places
    have here := registered_of_baseNamed named
    rw [World.typesOf, ← places, Table.values, List.map_append, List.mem_append]
    exact .inl here

/-! ## Definitions -/

/-- A definition whose base is registered lets a sound registry grow: a registered name is extended,
and any other one gets a type. -/
theorem evolves_registration [d.Within (World.Evolves r)] {w : World} {r' : Nat}
    {definition : TypeDefinition} {base : Option Nat}
    (based : r' = r → ∀ b, base = some b → b ∈ w.typesOf r) :
    w.Evolves r (exec (do
      let id ← match ← findType? r' definition.name with
        | some id => do extendType d id base definition; pure id
        | none => createType d r' base definition
      installMarshaller d id "to_string" definition.toText
      installMarshaller d id "from_string" definition.fromText
      return id) w).2 := by
  cases keyed : definition.name.hashable with
  | false =>
    have looked : exec (findType? r' definition.name) w = (.error .wrongType, w) := by
      unfold findType?
      rw [keyed]
      rfl
    rw [exec_bind_error looked]
    exact Frame.refl w
  | true =>
    rw [exec_bind_ok (exec_findType? keyed)]
    cases found : definition.name.text?.bind (w.typeNamed? r') with
    | some id => exact Along.out _
    | none =>
      have fresh : ∀ s, definition.name = .str s → w.typeNamed? r' s = none := by
        intro s named
        rwa [named] at found
      have created : w.Evolves r (exec (createType d r' base definition) w).2 :=
        evolves_createType (fun same s named => same ▸ fresh s named) based
      show w.Evolves r (exec (createType d r' base definition >>= _) w).2
      rw [exec_bind]
      rcases run : exec (createType d r' base definition) w with ⟨e | id, w₁⟩ <;>
        rw [run] at created
      · exact created
      · exact Frame.trans created (Along.out _)

instance evolves_defineType [d.Within (World.Evolves r)] (r' : Nat) (definition : TypeDefinition) :
    Along (World.Evolves r) (defineType d r' definition) where
  out w := by
    unfold defineType
    refine Along.step fun _ w₁ _ => Along.step fun _ w₂ _ => ?_
    split
    · exact evolves_registration (w := w₂) nofun
    · intro plain sound
      have resolved : Along (World.Evolves r) (some <$> resolveBase d r' definition.name
          definition.base) := inferInstance
      refine Along.step (fun _ w₃ run => evolves_registration (w := w₃) ?_)
        plain sound
      rintro rfl b rfl
      rw [map_eq_pure_bind, exec_bind_eq_ok] at run
      obtain ⟨b', w₄, run, same⟩ := run
      obtain ⟨⟨⟩, rfl⟩ := exec_pure_eq_ok.mp same
      exact registered_of_resolveBase plain sound run

end DataShape
