import DataShape.Value.Equality
import Mathlib.Data.List.Forall2

/-! # Equality of lists and mappings

Lists are equal if their items are, one by one. A mapping equals another one if each of its entries is
found there; where the keys are the same in the same order, that is so if the values are equal. -/

namespace DataShape

theorem Value.same_of_eq {a b : Value} (h : a.eq b = true) : a.same b = true := by
  rw [Value.same, h, Bool.or_true]

/-- A list equals another one if its items do. -/
theorem eqItems_of_forall₂ {as bs : List Value}
    (same : List.Forall₂ (fun a b => a.same b = true) as bs) : eqItems as bs = true := by
  induction same with
  | nil => rfl
  | cons head _ ih =>
    rw [Value.same] at head
    rw [eqItems, head, ih, Bool.true_and]

/-- Two entries under the same key, with values that are the same. -/
def AlikeUnderKey (e f : Value × Value) : Prop := (e.1 == f.1) = true ∧ e.2.same f.2 = true

/-- An entry equals one that is among others. -/
theorem eqEntry_of_mem {e f : Value × Value} {all : Entries} (there : f ∈ all)
    (alike : AlikeUnderKey e f) : eqEntry e all = true := by
  obtain ⟨k, a⟩ := e
  obtain ⟨key, same⟩ := alike
  have key' : ((k.identical f.1 || k.eq f.1) && k.sameHash f.1) = true := key
  have same' : (a.identical f.2 || a.eq f.2) = true := same
  rw [eqEntry, List.any_eq_true]
  exact ⟨f, there, by rw [key', same', Bool.true_and]⟩

/-- A mapping equals another one that has the same keys in the same order, with the same values. -/
theorem eq_dict_of_alike {es fs : Entries} (alike : List.Forall₂ AlikeUnderKey es fs)
    (share share' : Nat) : (Value.dict share es).eq (.dict share' fs) = true := by
  -- entries are looked for among all of the other mapping, of which those left to compare are a part
  have found : ∀ front back : Entries, List.Forall₂ AlikeUnderKey front back → back ⊆ fs →
      eqEntries front fs = true := by
    intro front back alike
    induction alike with
    | nil => exact fun _ => rfl
    | cons head _ ih =>
      intro inside
      rw [List.cons_subset] at inside
      rw [eqEntries, eqEntry_of_mem inside.1 head, ih inside.2, Bool.true_and]
  show (es.length == fs.length && eqEntries es fs) = true
  rw [alike.length_eq, found es fs alike (List.Subset.refl fs)]
  simp

/-- Two entries under one text with the same value. -/
def SameEntry (e f : Value × Value) : Prop :=
  ∃ name : String, e.1 = .str name ∧ f.1 = .str name ∧ e.2.same f.2 = true

/-- A mapping equals another one that has the same texts as keys in the same order, with the same
values. -/
theorem eq_dict_of_forall₂ {es fs : Entries} (same : List.Forall₂ SameEntry es fs)
    (share share' : Nat) : (Value.dict share es).eq (.dict share' fs) = true := by
  refine eq_dict_of_alike (same.imp ?_) share share'
  rintro e f ⟨name, key, key', equal⟩
  refine ⟨?_, equal⟩
  rw [key, key', Value.beq_str, beq_self_eq_true]

end DataShape
