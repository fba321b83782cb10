import DataShape.Table
import DataShape.Value.Basic

/-! # Equality of values

Booleans and numbers are compared by their numeric value, lists with lists and tuples with tuples
item by item, mappings entry by entry in any order, moments by the time they name. Types, schemas,
fields, registries, records, functions and structural predicates are equal to themselves only, and
a number that is not one equals nothing. Containers look their items up: an item is found where it
is the same object or equal.

* `Value.identical` — the same object, as far as a value can tell.
* `Value.eq` — equality; `Value.same` — identical or equal.
* the `BEq` instance — the same key of a mapping: the same, and of the same hash.
* `Value.hashable` — the values that can be keys of a mapping. -/

namespace DataShape

/-- A boolean or an integer as an integer. -/
def Value.integral? : Value → Option Int
  | .bool b => some (if b then 1 else 0)
  | .int n => some n
  | _ => none

/-- Numeric equality of two scalars. -/
def Value.numericEq (a b : Value) : Bool :=
  match a, b with
  | .float x, .float y => x.eq y
  | .float x, b => b.integral?.any fun n => x.equalsInt n
  | a, .float y => a.integral?.any fun n => y.equalsInt n
  | a, b => match a.integral?, b.integral? with
    | some m, some n => m == n
    | _, _ => false

mutual

/-- Whether two values are one object. Containers are if they have a share in common, engine
objects, records and functions by their identity, and plain data if it is written alike. -/
def Value.identical : Value → Value → Bool
  | .null, .null => true
  | .missing, .missing => true
  | .bool a, .bool b => a == b
  | .int a, .int b => a == b
  | .float a, .float b => a == b
  | .str a, .str b => a == b
  | .bytes a, .bytes b => a == b
  | .date a, .date b => a == b
  | .datetime a, .datetime b => a == b
  | .time a, .time b => a == b
  | .list a _, .list b _ => a == b && a != 0
  | .tuple a, .tuple b => identicalItems a b
  | .dict a _, .dict b _ => a == b && a != 0
  | .live p r, .live q s => p == q && r == s
  | .option a, .option b => a == b
  | .record a _, .record b _ => a == b
  | .native a, .native b => a == b
  | .target a, .target b => a == b
  | .type a, .type b => a == b
  | .schema a, .schema b => a == b
  | .field a, .field b => a == b
  | .registry a, .registry b => a == b
  | .table a, .table b => a == b
  | .function a _ r _, .function b _ q _ => a == b && r == q
  | .static a _ _, .static b _ _ => a == b
  | .bound f r, .bound g s => f.identical g && r.identical s
  | .method r m, .method s n => m == n && r.identical s
  | .capability m f g s, .capability n f' g' s' =>
      m.identical n && f.identical f' && g.identical g' && s.identical s'
  | .predicate p, .predicate q => p.identical q
  | _, _ => false
termination_by structural a => a

/-- Identity item by item. -/
def identicalItems : List Value → List Value → Bool
  | [], [] => true
  | a :: as, b :: bs => a.identical b && identicalItems as bs
  | _, _ => false
termination_by structural as => as

/-- Identity of predicates. -/
def Predicate.identical : Predicate → Predicate → Bool
  | .present a, .present b => a == b
  | .all a, .all b => identicalParts a b
  | .any a, .any b => identicalParts a b
  | .negation a, .negation b => a.identical b
  | .structural a _, .structural b _ => a == b
  | .test a, .test b => a.identical b
  | _, _ => false
termination_by structural p => p

/-- Identity part by part. -/
def identicalParts : List Predicate → List Predicate → Bool
  | [], [] => true
  | p :: ps, q :: qs => p.identical q && identicalParts ps qs
  | _, _ => false
termination_by structural ps => ps

end

mutual

/-- Whether two values have the same hash, for values that are the same: two times of day with
different offsets can be equal and differ below the second. -/
def Value.sameHash : Value → Value → Bool
  | .time a, .time b => a.exactly b
  | .tuple a, .tuple b => sameHashItems a b
  | _, _ => true
termination_by structural a => a

/-- The same hash item by item. -/
def sameHashItems : List Value → List Value → Bool
  | a :: as, b :: bs => a.sameHash b && sameHashItems as bs
  | _, _ => true
termination_by structural as => as

end

mutual

/-- Equality of values. -/
def Value.eq : Value → Value → Bool
  | .null, .null => true
  | .missing, .missing => true
  | .str a, .str b => a == b
  | .bytes a, .bytes b => a == b
  | .date a, .date b => a == b
  | .datetime a, .datetime b => a.same b
  | .time a, .time b => a.same b
  | .list _ a, .list _ b => eqItems a b
  | .tuple a, .tuple b => eqItems a b
  | .dict _ a, .dict _ b => a.length == b.length && eqEntries a b
  | .live p _, .live q _ => p == q
  | .option a, .option b => a == b
  | .record a _, .record b _ => a == b
  | .native a, .native b => a == b
  | .target a, .target b => a == b
  | .type a, .type b => a == b
  | .schema a, .schema b => a == b
  | .field a, .field b => a == b
  | .registry a, .registry b => a == b
  | .table a, .table b => a == b
  | .function a _ r _, .function b _ q _ => a == b && r == q
  | .static a _ _, .static b _ _ => a == b
  | .bound f r, .bound g s => f.eq g && r.identical s
  | .method r m, .method s n => m == n && r.identical s
  | .capability m f g s, .capability n f' g' s' =>
      (m.identical n || m.eq n) && (f.identical f' || f.eq f') && (g.identical g' || g.eq g')
        && (s.identical s' || s.eq s')
  | .predicate p, .predicate q => p.eq q
  | .bool a, b => Value.numericEq (.bool a) b
  | .int a, b => Value.numericEq (.int a) b
  | .float a, b => Value.numericEq (.float a) b
  | _, _ => false
termination_by structural a => a

/-- Equality item by item. -/
def eqItems : List Value → List Value → Bool
  | [], [] => true
  | a :: as, b :: bs => (a.identical b || a.eq b) && eqItems as bs
  | _, _ => false
termination_by structural as => as

/-- Every entry of the first list has an equal entry in the second. -/
def eqEntries : List (Value × Value) → List (Value × Value) → Bool
  | [], _ => true
  | e :: rest, other => eqEntry e other && eqEntries rest other
termination_by structural es => es

/-- An entry has an equal value under the same key. -/
def eqEntry : Value × Value → List (Value × Value) → Bool
  | (k, v), other => other.any fun e =>
      (k.identical e.1 || k.eq e.1) && k.sameHash e.1 && (v.identical e.2 || v.eq e.2)
termination_by structural e => e

/-- Equality of predicates: by their parts, structural ones by identity. -/
def Predicate.eq : Predicate → Predicate → Bool
  | .present a, .present b => a == b
  | .all a, .all b => eqParts a b
  | .any a, .any b => eqParts a b
  | .negation a, .negation b => a.eq b
  | .structural a _, .structural b _ => a == b
  | .test a, .test b => a.identical b || a.eq b
  | _, _ => false
termination_by structural p => p

/-- Equality part by part. -/
def eqParts : List Predicate → List Predicate → Bool
  | [], [] => true
  | p :: ps, q :: qs => p.eq q && eqParts ps qs
  | _, _ => false
termination_by structural ps => ps

end

/-- Identical or equal. -/
def Value.same (a b : Value) : Bool := a.identical b || a.eq b

/-- The same key of a mapping. -/
def Value.sameKey (a b : Value) : Bool := a.same b && a.sameHash b

instance : BEq Value := ⟨Value.sameKey⟩

instance : BEq Predicate := ⟨Predicate.eq⟩

/-- Membership in a list of values. -/
def Value.isIn (v : Value) (vs : List Value) : Bool := vs.any fun w => w.same v

mutual

/-- Whether a value can be a key: containers that can change have no hash, nor has a tuple, a
capability or a predicate that contains one. -/
def Value.hashable : Value → Bool
  | .list .. => false
  | .dict .. => false
  | .live .. => false
  | .tuple items => hashableItems items
  | .capability name f g s => name.hashable && f.hashable && g.hashable && s.hashable
  | .bound f _ => f.hashable
  | .predicate p => p.hashable
  | _ => true
termination_by structural v => v

/-- All items can be keys. -/
def hashableItems : List Value → Bool
  | [] => true
  | v :: vs => v.hashable && hashableItems vs
termination_by structural vs => vs

/-- Whether a predicate can be a key. -/
def Predicate.hashable : Predicate → Bool
  | .all ps => hashableParts ps
  | .any ps => hashableParts ps
  | .negation p => p.hashable
  | .test f => f.hashable
  | _ => true
termination_by structural p => p

/-- All parts can be keys. -/
def hashableParts : List Predicate → Bool
  | [] => true
  | p :: ps => p.hashable && hashableParts ps
termination_by structural ps => ps

end

/-- Texts are the same key if they are the same text. -/
@[simp] theorem Value.beq_str (a b : String) : (Value.str a == Value.str b) = (a == b) := by
  simp [BEq.beq, Value.sameKey, Value.same, Value.identical, Value.eq, Value.sameHash]

/-- Types are the same key if they are the same type. -/
@[simp] theorem Value.beq_type (a b : Nat) : (Value.type a == Value.type b) = (a == b) := by
  simp [BEq.beq, Value.sameKey, Value.same, Value.identical, Value.eq, Value.sameHash]

/-- An integer and a boolean of the same numeric value are the same key. -/
example : (Value.int 1 == Value.bool true) = true := by decide

/-- A list never equals a tuple. -/
example (n : Nat) (a b : List Value) : (Value.list n a).same (.tuple b) = false := by
  simp [Value.same, Value.identical, Value.eq]

end DataShape
