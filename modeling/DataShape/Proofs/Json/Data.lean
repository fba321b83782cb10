import DataShape.Proofs.Copying
import DataShape.Proofs.Table
import DataShape.Value.Display
import Mathlib.Data.List.Perm.Basic

/-! # Data with a JSON text

Data that can be written as a JSON text is made of scalars, lists, and mappings with texts as keys.
Two such data are the same if they differ at most in the order of the entries of mappings.

* `Value.isTree` — such data; `Value.isShort` — whether its integers are short enough to be written.
* `SameData` — the same data; an equivalence.
* `SameData.get?` — mappings of the same data hold the same data under every key. -/

namespace DataShape

/-! ## Data -/

mutual

/-- Whether a value is made of scalars, lists, and mappings with distinct texts as keys. -/
def Value.isTree : Value → Bool
  | .null | .bool _ | .int _ | .float _ | .str _ => true
  | .list _ items => allTrees items
  | .dict _ entries => entriesTrees entries
  | _ => false
termination_by structural v => v

/-- Whether all items are such data. -/
def allTrees : List Value → Bool
  | [] => true
  | v :: vs => v.isTree && allTrees vs
termination_by structural vs => vs

/-- Whether entries are those of such a mapping. -/
def entriesTrees : List (Value × Value) → Bool
  | [] => true
  | e :: es => entryTree e && !(es.any fun f => f.1.text? == e.1.text?) && entriesTrees es
termination_by structural es => es

/-- Whether an entry has a text as key, and such data. -/
def entryTree : Value × Value → Bool
  | (k, v) => k.text?.isSome && v.isTree
termination_by structural e => e

end

mutual

/-- Whether all integers in data are short enough to be written. -/
def Value.isShort : Value → Bool
  | .int n => n.natAbs < integerBound
  | .list _ items => allShort items
  | .dict _ entries => entriesShort entries
  | _ => true
termination_by structural v => v

/-- Whether all integers in items are. -/
def allShort : List Value → Bool
  | [] => true
  | v :: vs => v.isShort && allShort vs
termination_by structural vs => vs

/-- Whether all integers in entries are. -/
def entriesShort : List (Value × Value) → Bool
  | [] => true
  | e :: es => entryShort e && entriesShort es
termination_by structural es => es

/-- Whether all integers in the value of an entry are. -/
def entryShort : Value × Value → Bool
  | (_, v) => v.isShort
termination_by structural e => e

end

mutual

/-- The same data: scalars of one kind that are equal, doubles that are written alike, lists item by
item, and mappings with the same entries in some order. -/
inductive SameData : Value → Value → Prop
  | null : SameData .null .null
  | bool (b : Bool) : SameData (.bool b) (.bool b)
  | int (n : Int) : SameData (.int n) (.int n)
  | float {x y : Binary64} (h : x.toText = y.toText) : SameData (.float x) (.float y)
  | str (s : String) : SameData (.str s) (.str s)
  | list (share share' : Nat) {as bs : List Value} (h : SameItems as bs) :
      SameData (.list share as) (.list share' bs)
  | dict (share share' : Nat) {es fs gs : Entries} (h : SameEntries es gs) (order : gs.Perm fs) :
      SameData (.dict share es) (.dict share' fs)

/-- The same data item by item. -/
inductive SameItems : List Value → List Value → Prop
  | nil : SameItems [] []
  | cons {a b : Value} {as bs : List Value} (first : SameData a b) (rest : SameItems as bs) :
      SameItems (a :: as) (b :: bs)

/-- The same data entry by entry, under the same keys. -/
inductive SameEntries : Entries → Entries → Prop
  | nil : SameEntries [] []
  | cons {k a b : Value} {es fs : Entries} (first : SameData a b) (rest : SameEntries es fs) :
      SameEntries ((k, a) :: es) ((k, b) :: fs)

end

theorem sameItems_iff {as bs : List Value} : SameItems as bs ↔ List.Forall₂ SameData as bs := by
  constructor
  · intro h
    induction as generalizing bs with
    | nil => cases h; exact .nil
    | cons a as ih =>
      cases h with
      | cons first rest => exact .cons first (ih rest)
  · intro h
    induction h with
    | nil => exact .nil
    | cons first _ ih => exact .cons first ih

theorem sameEntries_iff {es fs : Entries} :
    SameEntries es fs ↔ List.Forall₂ (fun e f => e.1 = f.1 ∧ SameData e.2 f.2) es fs := by
  constructor
  · intro h
    induction es generalizing fs with
    | nil => cases h; exact .nil
    | cons e es ih =>
      cases h with
      | cons first rest => exact .cons ⟨rfl, first⟩ (ih rest)
  · intro h
    induction h with
    | nil => exact .nil
    | @cons e f es fs first _ ih =>
      obtain ⟨k, a⟩ := e
      obtain ⟨k', b⟩ := f
      obtain ⟨rfl, same⟩ := first
      exact .cons same ih

/-! ## The same data -/

mutual

/-- Data that something is the same as is the same as it. -/
theorem SameData.symm {a b : Value} : SameData a b → SameData b a
  | .null => .null
  | .bool b => .bool b
  | .int n => .int n
  | .float h => .float h.symm
  | .str s => .str s
  | .list share share' h => .list share' share (SameItems.symm h)
  | .dict share share' h order => by
    obtain ⟨hs, alike, order'⟩ :=
      List.perm_comp_forall₂ order.symm (sameEntries_iff.mp (SameEntries.symm h))
    exact .dict share' share (sameEntries_iff.mpr alike) order'

theorem SameItems.symm {as bs : List Value} : SameItems as bs → SameItems bs as
  | .nil => .nil
  | .cons first rest => .cons (SameData.symm first) (SameItems.symm rest)

theorem SameEntries.symm {es fs : Entries} : SameEntries es fs → SameEntries fs es
  | .nil => .nil
  | .cons first rest => .cons (SameData.symm first) (SameEntries.symm rest)

end

mutual

theorem SameData.trans {a b c : Value} : SameData a b → SameData b c → SameData a c
  | .null, h => h
  | .bool _, h => h
  | .int _, h => h
  | .float h, .float h' => .float (h.trans h')
  | .str _, h => h
  | .list share _ h, .list _ share' h' => .list share share' (SameItems.trans h h')
  | .dict share _ h order, .dict _ share' h' order' => by
    obtain ⟨hs, alike, further⟩ := List.perm_comp_forall₂ order (sameEntries_iff.mp h')
    exact .dict share share' (SameEntries.trans h (sameEntries_iff.mpr alike))
      (further.trans order')

theorem SameItems.trans {as bs cs : List Value} :
    SameItems as bs → SameItems bs cs → SameItems as cs
  | .nil, .nil => .nil
  | .cons first rest, .cons first' rest' =>
    .cons (SameData.trans first first') (SameItems.trans rest rest')

theorem SameEntries.trans {es fs gs : Entries} :
    SameEntries es fs → SameEntries fs gs → SameEntries es gs
  | .nil, .nil => .nil
  | .cons first rest, .cons first' rest' =>
    .cons (SameData.trans first first') (SameEntries.trans rest rest')

end

/-- Texts are the same data just if they are the same text. -/
theorem sameData_str {s t : String} : SameData (.str s) (.str t) ↔ s = t := by
  constructor
  · intro h
    cases h
    rfl
  · rintro rfl
    exact .str s

theorem SameEntries.exists_mem {es gs : Entries} {k v : Value} (h : SameEntries es gs)
    (there : (k, v) ∈ es) : ∃ x, (k, x) ∈ gs ∧ SameData v x := by
  induction es generalizing gs with
  | nil => cases there
  | cons e es ih =>
    cases h with
    | cons first rest =>
      rcases List.mem_cons.mp there with same | later
      · obtain ⟨rfl, rfl⟩ := Prod.mk.inj same
        exact ⟨_, List.mem_cons_self, first⟩
      · obtain ⟨x, inside, same⟩ := ih rest later
        exact ⟨x, List.mem_cons_of_mem _ inside, same⟩

section Fields

variable {es fs : List (String × Value)} (h : SameData (.ofFields es) (.ofFields fs))
  (distinct : (Table.keys es).Nodup) (distinct' : (Table.keys fs).Nodup)

include h distinct distinct'

/-- Mappings of the same data hold the same data under every key. -/
theorem SameData.get? {k : String} {v : Value} (found : Table.get? es k = some v) :
    ∃ x, Table.get? fs k = some x ∧ SameData v x := by
  cases h with
  | dict _ _ alike order =>
    have there : (Value.str k, v) ∈ es.map fun f => (Value.str f.1, f.2) :=
      List.mem_map.mpr ⟨_, (Table.get?_eq_some_iff distinct).mp found, rfl⟩
    obtain ⟨x, inside, same⟩ := alike.exists_mem there
    obtain ⟨⟨k', x'⟩, inFs, equal⟩ := List.mem_map.mp (order.subset inside)
    obtain ⟨key, rfl⟩ := Prod.mk.inj equal
    obtain rfl := Value.str.inj key
    exact ⟨x', (Table.get?_eq_some_iff distinct').mpr inFs, same⟩

/-- And they hold nothing under the same keys. -/
theorem SameData.isSome_get? (k : String) :
    (Table.get? es k).isSome = (Table.get? fs k).isSome := by
  have one : ∀ {es fs : List (String × Value)}, SameData (.ofFields es) (.ofFields fs) →
      (Table.keys es).Nodup → (Table.keys fs).Nodup → (Table.get? es k).isSome = true →
      (Table.get? fs k).isSome = true := by
    intro es fs h distinct distinct' given
    obtain ⟨v, found⟩ := Option.isSome_iff_exists.mp given
    obtain ⟨x, found', -⟩ := h.get? distinct distinct' found
    rw [found']
    rfl
  exact Bool.eq_iff_iff.mpr ⟨one h distinct distinct', one h.symm distinct' distinct⟩

end Fields

/-! ## Data is data -/

mutual

/-- Data with a JSON text is data that can be copied. -/
theorem isData_of_isTree : ∀ v : Value, v.isTree = true → v.isData = true
  | .null, _ | .bool _, _ | .int _, _ | .float _, _ | .str _, _ => rfl
  | .list _ items, h => allData_of_allTrees items h
  | .dict _ entries, h => entriesData_of_entriesTrees entries h

theorem allData_of_allTrees : ∀ vs : List Value, allTrees vs = true → allData vs = true
  | [], _ => rfl
  | v :: vs, h => by
    rw [allTrees, Bool.and_eq_true] at h
    rw [allData, isData_of_isTree v h.1, allData_of_allTrees vs h.2, Bool.and_self]

theorem entriesData_of_entriesTrees : ∀ es : List (Value × Value),
    entriesTrees es = true → entriesData es = true
  | [], _ => rfl
  | e :: es, h => by
    rw [entriesTrees, Bool.and_eq_true, Bool.and_eq_true] at h
    rw [entriesData, entryData_of_entryTree e h.1.1, entriesData_of_entriesTrees es h.2,
      Bool.and_self]

theorem entryData_of_entryTree : ∀ e : Value × Value, entryTree e = true → entryData e = true
  | (.str _, v), h => isData_of_isTree v h

end

/-- There are no live parts in data. -/
theorem World.settled_of_isTree {v : Value} (h : v.isTree = true) (w : World) (views : Bool) :
    w.settled views v = v :=
  settledWith_of_isData _ _ v (isData_of_isTree v h)

end DataShape
