import DataShape.Dispatch
import DataShape.Occurrence
import DataShape.Value.Equality

/-! # Items and truth

The items that a value yields one after the other, and whether a value counts as true. A schema
yields the names of its fields, and counts as true if it has any; to know them its field list is
computed, which is then kept.

* `allFieldNames` — the names of all fields of a schema, inherited ones first.
* `iterate` — the items of a value.
* `walkPart` — the entries of a live part, in turn.
* `truthOf` — empty, missing, zero and empty containers count as false, all else as true. -/

namespace DataShape

variable (d : Dispatch)

/-! ## Names of fields -/

/-- The inherited names followed by the own names, each of these once. -/
def mergeNames (inherited own : List Value) : List Value :=
  own.foldl (fun names n => if n.isIn names then names else names ++ [n]) inherited

/-- The names of the own fields of a schema; fields of another kind that were set on it are
walked. -/
def ownFieldNames (id : Nat) : Action (List Value) := do
  match ← standIn? (.schema id) "_fields" with
  | some held => d.items held
  | none => return ((← get).schema id).fields.keys

/-- Keep the field list of a schema under a projection. -/
def keepNames (schema : Nat) (projection : Projection) (names : List Value) : Action Unit :=
  modify fun w => w.modifySchema schema fun s =>
    { s with fieldLists := s.fieldLists.insert projection names }

/-- The projection that covers all fields. -/
def Projection.all : Projection := ⟨false, false⟩

/-- The object that was set in the place of the kept field lists of a schema. -/
def foreignLists? (schema : Nat) : Action (Option Value) := standIn? (.schema schema) "_field_lists"

/-- Put an entry into the mapping that was set in the place of the kept field lists of a schema. -/
def keepInForeign (schema : Nat) (key names : Value) : Action Unit := do
  match ← foreignLists? schema with
  | some (.dict share entries) =>
      let lists := Value.dict share (Table.insert entries key names)
      modify fun w => (if share = 0 then w else w.replaceShared share lists).modifySchema schema
        fun s => { s with stored := s.stored.insert "_field_lists" lists }
  | _ => throw .wrongType

/-- The field list of a schema under a projection: it is computed once and then kept. -/
def listedNames (schema : Nat) (projection : Projection) (compute : Action (List Value)) :
    Action (List Value) := do
  match ← foreignLists? schema with
  | some held =>
      let key := projection.toKey
      let found ← callMember d held "get" [key]
      if !found.isNull then d.items found
      else
        let names ← compute
        keepInForeign schema key (.tuple names)
        return names
  | none => match ((← get).schema schema).fieldLists.get? projection with
    | some names => return names
    | none =>
        let names ← compute
        keepNames schema projection names
        return names

/-- The object that was set in the place of the parent of a schema. -/
def foreignParent? (id : Nat) : Action (Option Value) := standIn? (.schema id) "_parent_schema"

/-- All field names of the first schema of a chain; the names of its parent come first. -/
def namesAlong : List Nat → Action (List Value)
  | [] => pure []
  | id :: rest =>
      orStandIn d (.schema id) "get_field_list" [] d.items <| listedNames d id .all do
        let inherited ← match ← foreignParent? id with
          | some parent => d.items (← callMember d parent "get_field_list" [])
          | none => namesAlong rest
        return mergeNames inherited (← ownFieldNames d id)

/-- The names of all fields of a schema; the list is kept. -/
def allFieldNames (id : Nat) : Action (List Value) := do namesAlong d ((← get).schemaChain id)

/-! ## Items -/

/-- The items that a value yields one after the other: of a sequence its items, of a mapping its
keys, of a text its characters, of bytes their numbers, of a schema its field names, of a registry
its types, of a table what is installed in it. Other values yield nothing and cannot be walked. -/
def iterate : Value → Action (List Value)
  | .list _ items => pure items
  | .tuple items => pure items
  | .dict _ entries => pure (Table.keys entries)
  | .live part _ => return Table.keys ((← get).partEntries part)
  | .str s => pure (s.toList.map fun c => .str (String.singleton c))
  | .bytes bs => pure (bs.map fun b => .int b.toNat)
  | .schema id => allFieldNames d id
  | .registry id => return ((← get).registry id).types.values.map .type
  | .table owner => return ((← get).capabilityTable owner).values
  | _ => throw .wrongType

/-! ## Live parts

The functions of providers may run between two steps of a walk, and may change what is walked. -/

/-- The entries of a live part, which must have as many as before. -/
def entriesOfSize (part : Part) (size : Nat) : Action Entries := do
  let entries := (← get).partEntries part
  if entries.length == size then return entries else throw .resized

/-- Walk the last entries of a live part, each as it is when its turn comes, for as long as the
visits ask for more. -/
def walkRest {σ : Type} (part : Part) (size : Nat) (visit : σ → Value × Value → Action (σ × Bool)) :
    Nat → σ → Action σ
  | 0, s => do
      discard (entriesOfSize part size)
      return s
  | left + 1, s => do
      match (← entriesOfSize part size)[size - (left + 1)]? with
      | none => return s
      | some entry =>
          let (s, more) ← visit s entry
          if more then walkRest part size visit left s else return s

/-- Walk the entries of a live part, which must keep its size meanwhile. -/
def walkPart {σ : Type} (part : Part) (visit : σ → Value × Value → Action (σ × Bool)) (s : σ) :
    Action σ := do
  let size := ((← get).partEntries part).length
  walkRest part size visit size s

/-! ## Truth -/

/-- Whether a value counts as true that is no container of the engine. -/
def Value.isTrue : Value → Bool
  | .null => false
  | .missing => false
  | .bool b => b
  | .int n => n != 0
  | .float x => !x.isZero
  | .str s => !s.isEmpty
  | .bytes bs => !bs.isEmpty
  | .list _ items => !items.isEmpty
  | .tuple items => !items.isEmpty
  | .dict _ entries => !entries.isEmpty
  | _ => true

/-- Whether a value is a container of the engine, which counts as true unless it is empty. -/
def Value.isEngineContainer : Value → Bool
  | .schema _ => true
  | .registry _ => true
  | .table _ => true
  | .live .. => true
  | _ => false

/-- Whether a value counts as true. -/
def truthOf (v : Value) : Action Bool :=
  if v.isEngineContainer then do return !(← iterate d v).isEmpty else pure v.isTrue

/-- A value, or another one where it counts as nothing. -/
def orElseValue (v fallback : Value) : Action Value := do
  if ← truthOf d v then return v else return fallback

/-! ## Names of objects -/

/-- The name of a schema: its collection name, or a general word. -/
def schemaName (id : Nat) : Action Value := do
  orElseValue d ((← get).schema id).collectionName (.str "Schema")

/-- The name of a type. -/
def World.typeName (w : World) (id : Nat) : Value :=
  ((w.type id).stored.get? "_name").getD (.str (w.type id).name)

/-- The name of a type, of a schema, or of another object in the place of one. -/
def nameOf (v : Value) : Action Value := do
  match v with
  | .type id => return (← get).typeName id
  | .schema id => schemaName d id
  | other => d.member other "name"

/-- The name of what a field holds. -/
def heldName (id : Nat) : Action Value := do nameOf d ((← get).fieldType id)

/-- The name of the base of a type, if it has one; what counts as nothing is none. -/
def baseName? (id : Nat) : Action (Option Value) := do
  let base := (← get).baseOf id
  if ← truthOf d base then some <$> nameOf d base else return none

/-- The name of the parent of a schema, if it has one. -/
def parentName? (id : Nat) : Action (Option Value) := do
  let parent := (← get).parentOf id
  if parent.isNull then return none else some <$> nameOf d parent

/-- Whether a field holds a list. -/
def fieldIsArray (id : Nat) : Action Bool := do
  let f := (← get).field id
  match f.stored.get? "_is_array" with
  | some v => truthOf d v
  | none => return f.isArray

/-- The truth of a flag is the flag. -/
@[simp] theorem truthOf_bool (b : Bool) : truthOf d (.bool b) = pure b := rfl

/-- The empty value counts as false. -/
@[simp] theorem truthOf_null : truthOf d .null = pure false := rfl

/-- A list yields its items. -/
@[simp] theorem iterate_list (share : Nat) (items : List Value) :
    iterate d (.list share items) = pure items := rfl

end DataShape
