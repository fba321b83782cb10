/-! # Ordered tables

A `Table` is a finite map that remembers the order in which its keys were first given: writing to
a key that is present keeps the key's place and replaces its value, writing to a new key appends
it. Types of a registry, fields of a schema, capabilities of a host and mappings among the data
are all tables.

* `get?`, `insert`, `update` — look-up, single write, and a run of writes.
* `keys_insert` — a write either keeps the keys as they are or appends one key.
* `get?_insert_self`, `get?_insert_of_ne` — a write changes exactly one look-up. -/

namespace DataShape

universe u v w

/-- Entries in the order their keys were first written. -/
abbrev Table (κ : Type u) (ν : Type v) := List (κ × ν)

namespace Table

variable {κ : Type u} {ν : Type v} [BEq κ]

/-- The value stored under a key. -/
def get? : Table κ ν → κ → Option ν
  | [], _ => none
  | (k, v) :: rest, key => if k == key then some v else get? rest key

/-- Whether a key is present. -/
def contains (t : Table κ ν) (key : κ) : Bool := (t.get? key).isSome

/-- Write one entry: a present key keeps its place, a new key goes to the end. -/
def insert : Table κ ν → κ → ν → Table κ ν
  | [], key, value => [(key, value)]
  | (k, v) :: rest, key, value =>
      if k == key then (k, value) :: rest else (k, v) :: insert rest key value

/-- Remove a key. -/
def erase (t : Table κ ν) (key : κ) : Table κ ν := t.filter fun e => !(e.1 == key)

/-- Write the entries of a second table in their order. -/
def update (t entries : Table κ ν) : Table κ ν :=
  entries.foldl (fun acc e => acc.insert e.1 e.2) t

/-- The table of a run of writes: a repeated key keeps its first place and its last value. -/
def ofEntries (entries : List (κ × ν)) : Table κ ν := update [] entries

/-- The keys, oldest first. -/
def keys (t : Table κ ν) : List κ := t.map Prod.fst

/-- The values, in the order of their keys. -/
def values (t : Table κ ν) : List ν := t.map Prod.snd

@[simp] theorem get?_nil (key : κ) : get? ([] : Table κ ν) key = none := rfl

@[simp] theorem get?_cons (e : κ × ν) (rest : Table κ ν) (key : κ) :
    get? (e :: rest) key = if e.1 == key then some e.2 else get? rest key := rfl

@[simp] theorem insert_nil (key : κ) (value : ν) : insert [] key value = [(key, value)] := rfl

@[simp] theorem insert_cons (e : κ × ν) (rest : Table κ ν) (key : κ) (value : ν) :
    insert (e :: rest) key value
      = if e.1 == key then (e.1, value) :: rest else e :: insert rest key value := rfl

@[simp] theorem update_nil (t : Table κ ν) : t.update [] = t := rfl

@[simp] theorem update_cons (t : Table κ ν) (e : κ × ν) (rest : Table κ ν) :
    t.update (e :: rest) = (t.insert e.1 e.2).update rest := rfl

omit [BEq κ] in
@[simp] theorem keys_nil : keys ([] : Table κ ν) = [] := rfl

omit [BEq κ] in
@[simp] theorem keys_cons (e : κ × ν) (rest : Table κ ν) :
    keys (e :: rest) = e.1 :: keys rest := rfl

/-- A write keeps the keys when its key is present and appends the key otherwise. -/
theorem keys_insert (t : Table κ ν) (key : κ) (value : ν) :
    (t.insert key value).keys = if t.contains key then t.keys else t.keys ++ [key] := by
  induction t with
  | nil => simp [contains, keys]
  | cons e rest ih =>
    by_cases h : e.1 == key
    · simp [contains, h]
    · simp only [insert_cons, h, Bool.false_eq_true, if_false, keys_cons, ih, contains, get?_cons]
      split <;> simp_all

/-- After a write the key holds the written value. -/
theorem get?_insert_self [ReflBEq κ] (t : Table κ ν) (key : κ) (value : ν) :
    (t.insert key value).get? key = some value := by
  induction t with
  | nil => simp
  | cons e rest ih =>
    by_cases h : e.1 == key
    · simp [h]
    · simp [h, ih]

/-- A removed key leads to nothing. -/
theorem get?_erase_self (t : Table κ ν) (key : κ) : (t.erase key).get? key = none := by
  induction t with
  | nil => rfl
  | cons e rest ih =>
    by_cases h : e.1 == key
    · simpa [erase, h] using ih
    · simpa [erase, h] using ih

/-- A write leaves every other key alone. -/
theorem get?_insert_of_ne [LawfulBEq κ] (t : Table κ ν) {key other : κ} (value : ν)
    (h : key ≠ other) : (t.insert key value).get? other = t.get? other := by
  induction t with
  | nil => simp [h]
  | cons e rest ih =>
    by_cases hk : e.1 == key
    · have : e.1 = key := by simpa using hk
      simp [this, h]
    · simp [hk, ih]

end Table

end DataShape
