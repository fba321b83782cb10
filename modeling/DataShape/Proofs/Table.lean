import DataShape.Table

/-! # Look-ups in ordered tables

What is found in a table, and what a write makes of its entries and keys. Keys of tables of values are not
all equal where they are the same key, so some of these facts ask for no more than a comparison. -/

namespace DataShape.Table

variable {κ ν : Type} [BEq κ]

/-- A key of a table that is the same as itself leads to a value. -/
theorem exists_get?_of_mem_keys {t : Table κ ν} {k : κ}
    (same : (k == k) = true) (h : k ∈ t.keys) : ∃ v, t.get? k = some v := by
  induction t with
  | nil => cases h
  | cons e rest ih =>
    rw [Table.get?_cons]
    split
    · exact ⟨e.2, rfl⟩
    · next differs =>
      rw [Table.keys_cons, List.mem_cons] at h
      rcases h with rfl | h
      · exact absurd same differs
      · exact ih h

/-- A new key is written to the end of a table. -/
theorem insert_of_get?_eq_none {t : Table κ ν} {k : κ} {v : ν}
    (h : t.get? k = none) : t.insert k v = t ++ [(k, v)] := by
  induction t with
  | nil => rfl
  | cons e rest ih =>
    rw [Table.get?_cons] at h
    split at h
    · cases h
    · next differs => rw [Table.insert_cons, if_neg differs, ih h, List.cons_append]

/-- Entries behind a table are found where the table has no value. -/
theorem get?_append (t rest : Table κ ν) (k : κ) :
    (t ++ rest : Table κ ν).get? k = (t.get? k).or (rest.get? k) := by
  induction t with
  | nil => rfl
  | cons e t ih =>
    rw [List.cons_append, Table.get?_cons, Table.get?_cons, ih]
    split <;> rfl

/-- What is found in a table is one of its values. -/
theorem mem_values_of_get? {t : Table κ ν} {k : κ} {v : ν}
    (h : t.get? k = some v) : v ∈ t.values := by
  induction t with
  | nil => cases h
  | cons e rest ih =>
    rw [Table.get?_cons] at h
    rw [Table.values, List.map_cons, List.mem_cons]
    split at h
    · exact .inl (Option.some.inj h).symm
    · exact .inr (ih h)

/-- What is found in a table is found under one of its keys. -/
theorem exists_key_of_get? {t : Table κ ν} {k : κ} {v : ν}
    (h : t.get? k = some v) : ∃ key ∈ t.keys, (key == k) = true := by
  induction t with
  | nil => cases h
  | cons e rest ih =>
    rw [Table.get?_cons] at h
    rw [Table.keys_cons]
    split at h
    · next same => exact ⟨e.1, List.mem_cons_self, same⟩
    · obtain ⟨key, there, same⟩ := ih h
      exact ⟨key, List.mem_cons_of_mem _ there, same⟩

/-- After a write an entry is an old one, or it has the written value under the written key or under
an old one that counts as the same. -/
theorem of_mem_insert {t : Table κ ν} {k : κ} {v : ν} {e : κ × ν}
    (h : e ∈ t.insert k v) : e ∈ t ∨ e.2 = v ∧ (e.1 = k ∨ e.1 ∈ t.keys ∧ (e.1 == k) = true) := by
  induction t with
  | nil =>
    obtain rfl := List.mem_singleton.mp h
    exact .inr ⟨rfl, .inl rfl⟩
  | cons first rest ih =>
    rw [Table.insert_cons] at h
    rw [List.mem_cons, Table.keys_cons, List.mem_cons]
    split at h
    · next same =>
      rcases List.mem_cons.mp h with rfl | old
      · exact .inr ⟨rfl, .inr ⟨.inl rfl, same⟩⟩
      · exact .inl (.inr old)
    · rcases List.mem_cons.mp h with rfl | later
      · exact .inl (.inl rfl)
      · rcases ih later with old | ⟨value, key⟩
        · exact .inl (.inr old)
        · exact .inr ⟨value, key.imp id (And.imp_left .inr)⟩

/-- To write what is there already changes nothing. -/
theorem insert_of_get?_eq_some {t : Table κ ν} {k : κ} {v : ν} (h : t.get? k = some v) :
    t.insert k v = t := by
  induction t with
  | nil => cases h
  | cons e rest ih =>
    rw [get?_cons] at h
    rw [insert_cons]
    split at h
    · next here =>
      obtain rfl := Option.some.inj h
      rw [if_pos here]
    · next differs => rw [if_neg differs, ih h]

/-- A run of writes of what is there already changes nothing. -/
theorem update_eq_self {t entries : Table κ ν} (h : ∀ e ∈ entries, t.get? e.1 = some e.2) :
    t.update entries = t := by
  induction entries with
  | nil => rfl
  | cons e rest ih =>
    rw [update_cons, insert_of_get?_eq_some (h e List.mem_cons_self)]
    exact ih fun e' there => h e' (List.mem_cons_of_mem e there)

/-- A write keeps all keys in their places. -/
theorem keys_prefix_insert (t : Table κ ν) (k : κ) (v : ν) : t.keys <+: (t.insert k v).keys := by
  rw [keys_insert]
  split
  · exact List.prefix_rfl
  · exact List.prefix_append ..

/-- So does a run of writes, by induction on them. -/
theorem keys_prefix_update (t entries : Table κ ν) : t.keys <+: (t.update entries).keys := by
  induction entries generalizing t with
  | nil => exact List.prefix_rfl
  | cons e rest ih => exact (t.keys_prefix_insert e.1 e.2).trans (ih _)

/-! ## Tables without repetitions -/

/-- No key is the same as a later one. -/
def Distinct (t : Table κ ν) : Prop := t.keys.Pairwise fun a b => (a == b) = false

theorem distinct_nil : Distinct ([] : Table κ ν) := .nil

/-- There is nothing under a key that none of the keys is the same as. -/
theorem get?_eq_none_iff_forall {t : Table κ ν} {k : κ} :
    t.get? k = none ↔ ∀ a ∈ t.keys, (a == k) = false := by
  induction t with
  | nil => simp
  | cons e rest ih =>
    rw [get?_cons, keys_cons, List.forall_mem_cons, ← ih]
    cases e.1 == k <;> simp

/-- A write does not repeat a key. -/
theorem Distinct.insert {t : Table κ ν} (h : t.Distinct) (k : κ) (v : ν) :
    (t.insert k v).Distinct := by
  rw [Distinct, keys_insert]
  split
  · exact h
  · next absent =>
    have fresh : t.get? k = none := by simpa [contains] using absent
    refine List.pairwise_append.mpr ⟨h, List.pairwise_singleton .., fun a there b last => ?_⟩
    rw [List.mem_singleton.mp last]
    exact get?_eq_none_iff_forall.mp fresh a there

/-- A run of writes does not, by induction on them. -/
theorem Distinct.update {t : Table κ ν} (h : t.Distinct) (entries : Table κ ν) :
    (t.update entries).Distinct := by
  induction entries generalizing t with
  | nil => exact h
  | cons e rest ih => exact ih (h.insert e.1 e.2)

/-- Entries that repeat no key are written behind those of a table. By induction on them: each one
finds the ones before it in its place. -/
theorem update_eq_append {t entries : Table κ ν} (h : Distinct (t ++ entries)) :
    t.update entries = t ++ entries := by
  induction entries generalizing t with
  | nil => rw [update_nil, List.append_nil]
  | cons e rest ih =>
    have fresh : t.get? e.1 = none := by
      rw [Distinct, keys, List.map_append] at h
      exact get?_eq_none_iff_forall.mpr fun a there =>
        (List.pairwise_append.mp h).2.2 a there e.1 List.mem_cons_self
    rw [update_cons, insert_of_get?_eq_none fresh, ih (by simpa using h), List.append_assoc,
      List.singleton_append]

/-- A run of writes has keys of the table and of what is written. -/
theorem of_mem_keys_update {t entries : Table κ ν} {k : κ} (h : k ∈ (t.update entries).keys) :
    k ∈ t.keys ∨ k ∈ entries.keys := by
  induction entries generalizing t with
  | nil => exact .inl h
  | cons e rest ih =>
    rw [keys_cons, List.mem_cons]
    rcases ih h with early | late
    · rw [keys_insert] at early
      split at early
      · exact .inl early
      · exact (List.mem_append.mp early).imp id fun last => .inl (List.mem_singleton.mp last)
    · exact .inr (.inr late)

/-! ## Tables with lawful keys -/

/-- In a table whose keys are distinct, the value under a key is the one that an entry has. -/
theorem get?_eq_some_iff [LawfulBEq κ] {t : Table κ ν}
    (distinct : t.keys.Nodup) {k : κ} {v : ν} : t.get? k = some v ↔ (k, v) ∈ t := by
  induction t with
  | nil => simp
  | cons e rest ih =>
    obtain ⟨k', v'⟩ := e
    rw [Table.keys_cons, List.nodup_cons] at distinct
    have fresh : ∀ u, (k', u) ∉ rest := fun u h => distinct.1 (List.mem_map.mpr ⟨_, h, rfl⟩)
    rw [Table.get?_cons, List.mem_cons, Prod.mk.injEq]
    by_cases same : k' = k
    · subst same
      simp [fresh v, eq_comm]
    · simp [same, Ne.symm same, ih distinct.2]

/-- A key without a value is not among the keys. -/
theorem get?_eq_none_iff [LawfulBEq κ] {t : Table κ ν} {k : κ} :
    t.get? k = none ↔ k ∉ t.keys := by
  induction t with
  | nil => simp
  | cons e rest ih =>
    rw [Table.get?_cons, Table.keys_cons, List.mem_cons, not_or]
    by_cases same : e.1 = k
    · simp [same]
    · simp [same, Ne.symm same, ih]

end DataShape.Table
