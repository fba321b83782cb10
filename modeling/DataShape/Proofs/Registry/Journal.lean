import DataShape.Proofs.Registry.Installing
import DataShape.Proofs.Registry.Soundness

/-! # The journal of what types have

What a type has of its own changes in two ways: a capability is installed on it, or an attribute is
merged into it. A journal lists these changes in their order. Under a text a type then has what the
journal has last for it there, or else what it had before.

* `Update`, `latest` — the changes, and the last one of a kind.
* `World.Updated` — what holds of a world after the changes of a journal.
* `Updated.append` — journals are written one behind the other. -/

namespace DataShape

/-! ## Look-ups by texts -/

/-- Only a text is the same key as a text. -/
theorem Value.beq_text (v : Value) (n : String) : (v == .str n) = decide (v.text? = some n) := by
  cases v with
  | str s =>
    rw [Value.beq_str, Bool.eq_iff_iff]
    simp [Value.text?]
  | bool b => simp [BEq.beq, Value.sameKey, Value.same, Value.identical, Value.eq, Value.text?,
      Value.numericEq, Value.integral?]
  | _ => rfl

/-- Only a text is the same key as a text, from the other side. -/
theorem Value.text_beq (n : String) (v : Value) : (.str n == v) = decide (v.text? = some n) := by
  cases v with
  | str s =>
    rw [Value.beq_str, Bool.eq_iff_iff]
    simp only [Value.text?, beq_iff_eq, decide_eq_true_eq, Option.some.injEq]
    exact eq_comm
  | _ => rfl

theorem Value.eq_str_of_text? {v : Value} {n : String} (h : v.text? = some n) : v = .str n := by
  cases v <;> simp_all [Value.text?]

namespace Table

variable {ν : Type}

/-- After a write only the text that was written leads elsewhere. -/
theorem get?_insert_text (t : Table Value ν) (key : Value) (value : ν) (n : String) :
    get? (insert t key value) (.str n)
      = if key.text? = some n then some value else get? t (.str n) := by
  induction t with
  | nil => simp [Value.beq_text]
  | cons e rest ih =>
    by_cases written : key.text? = some n
    · obtain rfl := Value.eq_str_of_text? written
      cases here : e.1 == .str n <;> simp [here, ih, Value.text?]
    · -- an entry that is replaced is not the one of the text
      have apart : e.1 == key → (e.1 == .str n) = false := by
        intro replaced
        cases here : e.1 == .str n with
        | false => rfl
        | true =>
          rw [Value.beq_text, decide_eq_true_eq] at here
          rw [Value.eq_str_of_text? here, Value.text_beq, decide_eq_true_eq] at replaced
          exact absurd replaced written
      rw [if_neg written] at ih ⊢
      cases here : e.1 == key with
      | true => simp [here, apart here]
      | false => simp [here, ih]

/-- After a run of writes a text leads to what was written last under it. -/
theorem get?_update_text (entries : List (Value × ν)) (n : String) : ∀ t : Table Value ν,
    get? (update t entries) (.str n)
      = ((entries.filterMap fun e => if e.1.text? = some n then some e.2 else none).getLast?).or
        (get? t (.str n)) := by
  induction entries with
  | nil => exact fun t => rfl
  | cons e rest ih =>
    intro t
    rw [update_cons, ih, get?_insert_text, List.filterMap_cons]
    split
    · simp [List.getLast?_cons]
    · rfl

end Table

/-! ## Journals -/

/-- A change of what a type has of its own. -/
inductive Update where
  | install (type : Nat) (c : Capability)
  | merge (type : Nat) (key value : Value)

/-- The capability that a change installs on a type under a text. -/
def Update.capabilityFor (t : Nat) (n : String) : Update → Option Capability
  | .install type c => if type = t ∧ c.name.text? = some n then some c else none
  | .merge .. => none

/-- The value that a change merges into a type under a text. -/
def Update.attributeFor (t : Nat) (n : String) : Update → Option Value
  | .merge type key value => if type = t ∧ key.text? = some n then some value else none
  | .install .. => none

/-- What the last change of a kind gives. -/
def latest {α : Type} (given : Update → Option α) (journal : List Update) : Option α :=
  (journal.filterMap given).getLast?

@[simp] theorem latest_nil {α : Type} (given : Update → Option α) : latest given [] = none := rfl

@[simp] theorem latest_singleton {α : Type} (given : Update → Option α) (u : Update) :
    latest given [u] = given u := by
  unfold latest
  cases found : given u <;> simp [found]

theorem latest_append {α : Type} (given : Update → Option α) (journal journal' : List Update) :
    latest given (journal ++ journal') = (latest given journal').or (latest given journal) := by
  rw [latest, List.filterMap_append, List.getLast?_append]
  rfl

/-- The changes by which attributes are merged into a type. -/
def merges (t : Nat) (entries : Entries) : List Update := entries.map fun e => .merge t e.1 e.2

theorem latest_capabilityFor_merges (t i : Nat) (n : String) (entries : Entries) :
    latest (Update.capabilityFor i n) (merges t entries) = none := by
  rw [latest, merges, List.filterMap_map]
  simp [Function.comp_def, Update.capabilityFor]

theorem latest_attributeFor_merges (t i : Nat) (n : String) (entries : Entries) :
    latest (Update.attributeFor i n) (merges t entries) = if t = i then
      (entries.filterMap fun e => if e.1.text? = some n then some e.2 else none).getLast?
    else none := by
  rw [latest, merges, List.filterMap_map]
  by_cases same : t = i <;> simp [Function.comp_def, Update.attributeFor, same]

/-! ## Worlds and journals -/

namespace World

/-- A plain world in which no container is shared between objects and every registered type
exists. -/
structure Tidy (w : World) : Prop where
  plain : w.Plain
  unshared : w.sharedParts = []
  known : ∀ r, ∀ e ∈ (w.registry r).types, e.2 < w.types.size

/-- What holds of a world after the changes of a journal: under a text a type has what the journal
has last for it, or what it had before. -/
structure Updated (journal : List Update) (w w' : World) : Prop where
  tidy : w'.Tidy
  size : w.types.size ≤ w'.types.size
  capabilities : ∀ t n, Table.get? (w'.type t).capabilities (.str n)
    = ((latest (Update.capabilityFor t n) journal).map Capability.toValue).or
      (Table.get? (w.type t).capabilities (.str n))
  attributes : ∀ t n, Table.get? (w'.type t).attributes (.str n)
    = (latest (Update.attributeFor t n) journal).or (Table.get? (w.type t).attributes (.str n))

/-- Journals are written one behind the other. -/
theorem Updated.append {u v w : World} {journal journal' : List Update}
    (first : u.Updated journal v) (second : v.Updated journal' w) :
    u.Updated (journal ++ journal') w where
  tidy := second.tidy
  size := Nat.le_trans first.size second.size
  capabilities t n := by
    rw [second.capabilities, first.capabilities, latest_append, Option.map_or, Option.or_assoc]
  attributes t n := by
    rw [second.attributes, first.attributes, latest_append, Option.or_assoc]

/-- Where all types stay as they are, the journal is empty. -/
theorem Updated.of_types {w w' : World} (tidy : w'.Tidy) (types : w'.types = w.types) :
    w.Updated [] w' where
  tidy := tidy
  size := Nat.le_of_eq (congrArg Array.size types).symm
  capabilities t n := by
    rw [World.type, types]
    rfl
  attributes t n := by
    rw [World.type, types]
    rfl

theorem Resembles.tidy {w w' : World} (h : w.Resembles w') (tidy : w.Tidy) : w'.Tidy where
  plain := h.plain tidy.plain
  unshared := h.sharedParts.trans tidy.unshared
  known r e there := by
    rw [h.registry] at there
    have inside := tidy.known r e there
    rwa [h.types]

theorem Resembles.updated {w w' : World} (h : w.Resembles w') (tidy : w.Tidy) :
    w.Updated [] w' := .of_types (h.tidy tidy) h.types

/-- A type that exists is given a capability. -/
theorem updated_installing {w : World} (tidy : w.Tidy) {t : Nat} (inside : t < w.types.size)
    (c : Capability) : w.Updated [.install t c] (w.installing (.type t) [c]) where
  tidy := {
    plain := tidy.plain.installing _ _
    unshared := (w.sharedParts_changeTable _ _).trans tidy.unshared
    known := fun r e there => by
      rw [World.installing, size_changeTable]
      exact tidy.known r e there }
  size := Nat.le_of_eq (w.size_changeTable _ _).symm
  capabilities t' n := by
    have owns : w.Owns (.type t) := inside
    have table := capabilityTable_installing owns [c] (.type t')
    simp only [capabilityTable, TableOwner.type.injEq] at table
    rw [table, latest_singleton, Update.capabilityFor]
    by_cases same : t' = t
    · subst same
      rw [if_pos rfl, CapabilityTable.installAll_cons, CapabilityTable.installAll_nil,
        CapabilityTable.install, Table.get?_insert_text]
      by_cases named : c.name.text? = some n <;> simp [named]
    · simp [same, Ne.symm same]
  attributes t' n := by
    rw [World.installing, attributes_changeTable]
    rfl

/-- Attributes are merged into a type that exists. -/
theorem updated_merge {w : World} (tidy : w.Tidy) {t : Nat} (inside : t < w.types.size)
    (entries : Entries) : w.Updated (merges t entries)
      (w.changePart (.typeAttributes t) fun own => Table.update own entries) := by
  rw [changePart_of_unshared tidy.unshared]
  have type : ∀ i, (w.withPartEntries (.typeAttributes t)
      (Table.update (w.type t).attributes entries)).type i = if t = i ∧ i < w.types.size then
        { w.type i with attributes := Table.update (w.type t).attributes entries }
      else w.type i := w.type_modifyType t _
  refine ⟨⟨⟨fun i => ?_, tidy.plain.fields, tidy.plain.schemas⟩, tidy.unshared,
    fun r e there => ?_⟩,
    ?_, fun i n => ?_, fun i n => ?_⟩
  · refine (congrArg TypeNode.stored (type i)).trans ?_
    split <;> exact tidy.plain.types i
  · exact (tidy.known r e there).trans_eq Array.size_modify.symm
  · exact Nat.le_of_eq Array.size_modify.symm
  -- A merge leaves all tables of capabilities alone.
  · have kept : ((w.withPartEntries (.typeAttributes t)
        (Table.update (w.type t).attributes entries)).type i).capabilities
        = (w.type i).capabilities := by
      rw [type]
      split <;> rfl
    rw [latest_capabilityFor_merges]
    exact congrArg (Table.get? · (Value.str n)) kept
  · rw [latest_attributeFor_merges]
    show Table.get? ((w.withPartEntries (.typeAttributes t)
      (Table.update (w.type t).attributes entries)).type i).attributes _ = _
    rw [type]
    by_cases same : t = i
    · subst same
      rw [if_pos ⟨rfl, inside⟩, if_pos rfl, Table.get?_update_text]
    · simp [same]

/-- A type is made with attributes and registered. -/
theorem updated_register {w : World} (tidy : w.Tidy) (r : Nat) {node : TypeNode}
    (bare : node.capabilities = []) (stored : node.stored = []) {entries : Entries}
    (attributes : node.attributes = Table.update [] entries) :
    w.Updated (merges w.types.size entries) (w.register r node) := by
  have outside : w.type w.types.size = default := by
    simp [World.type, Array.getD]
  have size : (w.register r node).types.size = w.types.size + 1 := Array.size_push ..
  refine ⟨⟨tidy.plain.register r stored, tidy.unshared, fun r' e there => ?_⟩, by omega,
    fun i n => ?_, fun i n => ?_⟩
  -- Entries of a registry stand for types that exist: older ones, or the one that was made.
  · have old : ∀ e' ∈ (w.registry r').types, e'.2 < w.types.size + 1 := fun e' there =>
      Nat.lt_succ_of_lt (tidy.known r' e' there)
    have table := w.registry_modifyRegistry r (f := fun n =>
      { n with types := n.types.insert node.name w.types.size }) r'
    rw [size]
    change e ∈ ((w.modifyRegistry r _).registry r').types at there
    rw [table] at there
    split at there
    · rcases Table.of_mem_insert there with there | same
      · exact old e there
      · exact same.1 ▸ Nat.lt_succ_self _
    · exact old e there
  · rw [latest_capabilityFor_merges, type_register]
    split
    · next new =>
      subst new
      rw [outside, bare]
      rfl
    · rfl
  · rw [latest_attributeFor_merges, type_register]
    by_cases new : i = w.types.size
    · subst new
      rw [if_pos rfl, if_pos rfl, outside, attributes, Table.get?_update_text]
      rfl
    · rw [if_neg new, if_neg (Ne.symm new)]
      rfl

end World

end DataShape
