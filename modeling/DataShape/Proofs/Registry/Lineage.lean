import DataShape.Proofs.Plain
import DataShape.Proofs.Table
import DataShape.Registry.Define
import Mathlib.Data.List.Chain
import Mathlib.Data.List.Nodup
import Mathlib.Data.List.Perm.Subperm

/-! # Lineages of registered types

In a sound registry every type is registered under its own name, once, and the base of a type was
registered before the type. The lineage of a registered type then runs backwards through the
registry: it ends, repeats no name, and holds nothing but registered types.

* `World.SoundRegistry` — the invariant of a registry.
* `World.SoundRegistry.lineage_spec` — a lineage is a sublist of the types registered so far,
  latest first. All else follows from it.
* `World.LineageSound` — what that says about the lineage of one type. -/

namespace DataShape

namespace World

/-! ## The invariant -/

/-- Every type is registered under its own name, no name twice, and behind its base. -/
structure SoundRegistry (w : World) (r : Nat) : Prop where
  known : ∀ e ∈ (w.registry r).types, e.2 < w.types.size
  named : ∀ e ∈ (w.registry r).types, (w.type e.2).name = e.1
  distinct : (w.typeNames r).Nodup
  based : ∀ before id after, w.typesOf r = before ++ id :: after →
    ∀ b, (w.type id).base = some b → b ∈ before

/-- A registry without types is sound. -/
theorem SoundRegistry.of_empty {w : World} {r : Nat} (h : (w.registry r).types = []) :
    w.SoundRegistry r where
  known e he := by rw [h] at he; cases he
  named e he := by rw [h] at he; cases he
  distinct := by simp [typeNames, h]
  based before id after split := by simp [typesOf, h, Table.values] at split

/-- Types that are registered belong together with their names. -/
theorem mem_typesOf {w : World} {r id : Nat} :
    id ∈ w.typesOf r ↔ ∃ name, (name, id) ∈ (w.registry r).types := by
  simp [typesOf, Table.values]

end World

namespace World.SoundRegistry

variable {w : World} {r : Nat} (sound : w.SoundRegistry r)

include sound

/-- The registered names are the names of the registered types. -/
theorem typeNames_eq : w.typeNames r = (w.typesOf r).map fun id => (w.type id).name := by
  rw [typeNames, typesOf, Table.keys, Table.values, List.map_map]
  exact List.map_congr_left fun e he => (sound.named e he).symm

/-- A type is found under its own name exactly when it is registered. -/
theorem typeNamed?_eq_some_iff {name : String} {id : Nat} :
    w.typeNamed? r name = some id ↔ id ∈ w.typesOf r ∧ (w.type id).name = name := by
  rw [typeNamed?, Table.get?_eq_some_iff sound.distinct, mem_typesOf]
  constructor
  · exact fun h => ⟨⟨name, h⟩, sound.named _ h⟩
  · rintro ⟨⟨name', h⟩, rfl⟩
    rwa [sound.named _ h]

/-- No type is registered twice, since types of different names are different. -/
theorem typesOf_nodup : (w.typesOf r).Nodup := by
  refine List.Nodup.of_map (fun id => (w.type id).name) ?_
  rw [← sound.typeNames_eq]
  exact sound.distinct

/-- Every registered type exists. -/
theorem inside {id : Nat} (registered : id ∈ w.typesOf r) : id < w.types.size := by
  obtain ⟨name, entry⟩ := mem_typesOf.mp registered
  exact sound.known _ entry

/-- There are not more registered types than types. -/
theorem length_le : (w.typesOf r).length ≤ w.types.size := by
  have range : w.typesOf r ⊆ List.range w.types.size :=
    fun id registered => List.mem_range.mpr (sound.inside registered)
  simpa using (List.Nodup.subperm sound.typesOf_nodup range).length_le

/-! ## Lineages -/

/-- The chain of a registered type is a sublist of what was registered up to the type, latest first,
each member being the base of the one before it and the last one having none. By induction on how
much was registered before the type, which is more than what was registered before its base. -/
theorem ancestry_spec (n : Nat) : ∀ {before after : List Nat} {id fuel : Nat},
    before.length ≤ n → before.length ≤ fuel → w.typesOf r = before ++ id :: after →
    ((ancestry (fun i => (w.type i).base) fuel id).Sublist (id :: before.reverse)) ∧
    (ancestry (fun i => (w.type i).base) fuel id).IsChain
      (fun derived base => (w.type derived).base = some base) ∧
    ∀ last ∈ (ancestry (fun i => (w.type i).base) fuel id).getLast?, (w.type last).base = none := by
  induction n with
  | zero =>
    intro before after id fuel short _ split
    obtain rfl := List.length_eq_zero_iff.mp (Nat.le_zero.mp short)
    have alone : (w.type id).base = none :=
      Option.eq_none_iff_forall_ne_some.mpr fun b hb => by cases sound.based _ _ _ split b hb
    rw [ancestry_of_none alone]
    exact ⟨List.Sublist.refl _, List.isChain_singleton _, by simpa using alone⟩
  | succ n ih =>
    intro before after id fuel short enough split
    cases hb : (w.type id).base with
    | none =>
      rw [ancestry_of_none hb]
      exact ⟨List.Sublist.cons_cons _ (List.nil_sublist _), List.isChain_singleton _,
        by simpa using hb⟩
    | some b =>
      -- The base was registered before the type, so there is less before the base.
      obtain ⟨earlier, between, rfl⟩ := List.append_of_mem (sound.based _ _ _ split b hb)
      simp only [List.length_append, List.length_cons] at short enough
      obtain ⟨fuel, rfl⟩ : ∃ m, fuel = m + 1 := ⟨fuel - 1, by omega⟩
      have split' : w.typesOf r = earlier ++ b :: (between ++ id :: after) := by
        rw [split, List.append_assoc, List.cons_append]
      have enough' : earlier.length ≤ fuel := by omega
      obtain ⟨sub, chain, last⟩ := ih (by omega) enough' split'
      obtain ⟨rest, head⟩ := ancestry_head (fun i => (w.type i).base) fuel b
      simp only [ancestry, hb, Option.elim_some]
      rw [head] at sub chain last ⊢
      refine ⟨List.Sublist.cons_cons _ ?_, List.isChain_cons_cons.mpr ⟨hb, chain⟩, ?_⟩
      · rw [List.reverse_append, List.reverse_cons, List.append_assoc]
        exact sub.trans (List.sublist_append_right _ _)
      · rwa [List.getLast?_cons_cons]

/-- The lineage of a registered type is a sublist of the types registered up to it, last first, and
follows the bases to a type without one. -/
theorem lineage_spec {before after : List Nat} {id : Nat}
    (split : w.typesOf r = before ++ id :: after) :
    (w.lineage id).Sublist (id :: before.reverse) ∧
    (w.lineage id).IsChain (fun derived base => (w.type derived).base = some base) ∧
    ∀ last ∈ (w.lineage id).getLast?, (w.type last).base = none := by
  have short : before.length ≤ w.types.size := by
    have := sound.length_le
    rw [split, List.length_append] at this
    omega
  exact sound.ancestry_spec _ (Nat.le_refl _) short split

/-- The lineage of a registered type holds registered types. -/
theorem mem_of_mem_lineage {id t : Nat} (registered : id ∈ w.typesOf r) (there : t ∈ w.lineage id) :
    t ∈ w.typesOf r := by
  obtain ⟨before, after, split⟩ := List.append_of_mem registered
  have earlier := (sound.lineage_spec split).1.subset there
  rw [split]
  simp only [List.mem_cons, List.mem_reverse] at earlier
  simp only [List.mem_append, List.mem_cons]
  tauto

/-- The chain of a registered type is complete as soon as it may be as long as the registry was when
the type was registered. By induction on how much was registered before the type. -/
theorem ancestry_complete (n : Nat) : ∀ {before after : List Nat} {id fuel fuel' : Nat},
    before.length ≤ n → before.length ≤ fuel → before.length ≤ fuel' →
    w.typesOf r = before ++ id :: after →
    ancestry (fun i => (w.type i).base) fuel id = ancestry (fun i => (w.type i).base) fuel' id := by
  induction n with
  | zero =>
    intro before after id fuel fuel' short _ _ split
    obtain rfl := List.length_eq_zero_iff.mp (Nat.le_zero.mp short)
    have alone : (w.type id).base = none :=
      Option.eq_none_iff_forall_ne_some.mpr fun b hb => by cases sound.based _ _ _ split b hb
    rw [ancestry_of_none alone, ancestry_of_none alone]
  | succ n ih =>
    intro before after id fuel fuel' short enough enough' split
    cases hb : (w.type id).base with
    | none => rw [ancestry_of_none hb, ancestry_of_none hb]
    | some b =>
      obtain ⟨earlier, between, rfl⟩ := List.append_of_mem (sound.based _ _ _ split b hb)
      simp only [List.length_append, List.length_cons] at short enough enough'
      obtain ⟨fuel, rfl⟩ : ∃ m, fuel = m + 1 := ⟨fuel - 1, by omega⟩
      obtain ⟨fuel', rfl⟩ : ∃ m, fuel' = m + 1 := ⟨fuel' - 1, by omega⟩
      have split' : w.typesOf r = earlier ++ b :: (between ++ id :: after) := by
        rw [split, List.append_assoc, List.cons_append]
      simp only [ancestry, hb, Option.elim_some]
      have same := ih (by omega) (show earlier.length ≤ fuel by omega)
        (show earlier.length ≤ fuel' by omega) split'
      rw [same]

/-- The lineage of a registered type is the type and the lineage of its base. -/
theorem lineage_eq {id : Nat} (registered : id ∈ w.typesOf r) :
    w.lineage id = id :: (w.type id).base.elim [] w.lineage := by
  obtain ⟨before, after, split⟩ := List.append_of_mem registered
  have size := sound.length_le
  rw [split, List.length_append, List.length_cons] at size
  cases hb : (w.type id).base with
  | none => exact ancestry_of_none hb _
  | some b =>
    obtain ⟨earlier, between, rfl⟩ := List.append_of_mem (sound.based _ _ _ split b hb)
    rw [List.length_append, List.length_cons] at size
    have split' : w.typesOf r = earlier ++ b :: (between ++ id :: after) := by
      rw [split, List.append_assoc, List.cons_append]
    have whole : w.lineage id
        = ancestry (fun i => (w.type i).base) (w.types.size - 1 + 1) id := by
      rw [lineage, Nat.sub_add_cancel (by omega)]
    rw [whole, ancestry, hb, Option.elim_some, Option.elim_some, lineage,
      sound.ancestry_complete _ (Nat.le_refl _) (show earlier.length ≤ w.types.size - 1 by omega)
        (show earlier.length ≤ w.types.size by omega) split']

/-- Where registered types keep their bases they keep their lineages. By induction on how much was
registered before the type. -/
theorem lineage_of_kept {w' : World} (sound' : w'.SoundRegistry r)
    (registered : ∀ id ∈ w.typesOf r, id ∈ w'.typesOf r)
    (base : ∀ id ∈ w.typesOf r, (w'.type id).base = (w.type id).base) (n : Nat) :
    ∀ {before after : List Nat} {id : Nat}, before.length ≤ n →
      w.typesOf r = before ++ id :: after → w'.lineage id = w.lineage id := by
  induction n with
  | zero =>
    intro before after id short split
    obtain rfl := List.length_eq_zero_iff.mp (Nat.le_zero.mp short)
    have here : id ∈ w.typesOf r := by simp [split]
    have alone : (w.type id).base = none :=
      Option.eq_none_iff_forall_ne_some.mpr fun b hb => by cases sound.based _ _ _ split b hb
    rw [sound'.lineage_eq (registered id here), sound.lineage_eq here, base id here, alone]
    rfl
  | succ n ih =>
    intro before after id short split
    have here : id ∈ w.typesOf r := by simp [split]
    rw [sound'.lineage_eq (registered id here), sound.lineage_eq here, base id here]
    cases hb : (w.type id).base with
    | none => rfl
    | some b =>
      obtain ⟨earlier, between, rfl⟩ := List.append_of_mem (sound.based _ _ _ split b hb)
      rw [List.length_append, List.length_cons] at short
      have split' : w.typesOf r = earlier ++ b :: (between ++ id :: after) := by
        rw [split, List.append_assoc, List.cons_append]
      rw [Option.elim_some, Option.elim_some, ih (by omega) split']

/-- The names along a lineage are registered names, latest first. -/
theorem lineage_names_sublist {id : Nat} (registered : id ∈ w.typesOf r) :
    ((w.lineage id).map fun t => (w.type t).name).Sublist (w.typeNames r).reverse := by
  obtain ⟨before, after, split⟩ := List.append_of_mem registered
  have sub := (sound.lineage_spec split).1
  rw [sound.typeNames_eq, split, ← List.map_reverse, List.reverse_append, List.reverse_cons,
    List.append_assoc]
  exact (sub.trans (List.sublist_append_right _ _)).map _

end World.SoundRegistry

/-- In a list without repetitions the position of what comes earlier is less. -/
theorem pairwise_idxOf {l : List String} (distinct : l.Nodup) :
    l.Pairwise fun a b => l.idxOf a < l.idxOf b := by
  rw [List.pairwise_iff_getElem]
  intro i j hi hj lt
  rwa [distinct.idxOf_getElem, distinct.idxOf_getElem]

namespace World

/-- What holds of a type that a registry has under a name: it has that name, and its lineage follows
the bases from the type to one without a base, repeats no name, and holds only types that are
registered under their names, each base at an earlier place than what derives from it. -/
structure LineageSound (w : World) (r : Nat) (name : String) (id : Nat) : Prop where
  named : (w.type id).name = name
  head : ∃ rest, w.lineage id = id :: rest
  chain : (w.lineage id).IsChain fun derived base => (w.type derived).base = some base
  last : ∀ last ∈ (w.lineage id).getLast?, (w.type last).base = none
  distinct : ((w.lineage id).map fun t => (w.type t).name).Nodup
  registered : ∀ t ∈ w.lineage id, w.typeNamed? r (w.type t).name = some t
  earlier : (w.lineage id).Pairwise fun derived base =>
    (w.typeNames r).idxOf (w.type base).name < (w.typeNames r).idxOf (w.type derived).name

/-- Every type of a sound registry has a sound lineage. -/
theorem SoundRegistry.lineageSound {w : World} {r : Nat} (sound : w.SoundRegistry r)
    {name : String} {id : Nat} (h : w.typeNamed? r name = some id) :
    w.LineageSound r name id := by
  obtain ⟨registered, named⟩ := sound.typeNamed?_eq_some_iff.mp h
  obtain ⟨before, after, split⟩ := List.append_of_mem registered
  obtain ⟨-, chain, last⟩ := sound.lineage_spec split
  have names := sound.lineage_names_sublist registered
  refine ⟨named, ancestry_head _ _ _, chain, last, ?_, ?_, ?_⟩
  · exact names.nodup (List.nodup_reverse.mpr sound.distinct)
  · intro t ht
    exact sound.typeNamed?_eq_some_iff.mpr ⟨sound.mem_of_mem_lineage registered ht, rfl⟩
  · have ordered := (List.pairwise_reverse.mpr (pairwise_idxOf sound.distinct)).sublist names
    exact List.pairwise_map.mp ordered

end World

end DataShape
