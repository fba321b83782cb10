import DataShape.Proofs.Schema.Memo
import DataShape.Proofs.Schema.Run

/-! # Sessions with a history of compilations

A session in which fields are not modified after their compilation, with a record of the schemas
that were compiled in its course. What a schema lists, what it finds under a name and what it walks
is told by the templates of its line, from the root on, whatever was listed, walked or projected
before, on whichever schema, and before or after a child was compiled.

* `Compilation`, `SchemaHistory` — a compiled template, and the sessions with their records.
* `SchemaHistory.retained` — what all such sessions keep.
* `Line` — the compilations from a root to a schema; `listing` and `nearest` — what they tell.
* `fieldLists_of_line` — lists, look-ups and walks against what the line tells. -/

namespace DataShape

/-! ## Records of compilations -/

/-- The names of a template in their order, each of them once. -/
def templateNames (entries : Entries) : List String :=
  (entries.filterMap fun e => e.1.text?).eraseDups

/-- A schema that was compiled: its parent, the names of its template, and its own fields. -/
structure Compilation where
  schema : Nat
  parent : Option Nat
  names : List String
  fields : Table Value Value

/-- Worlds that a session reaches by compilations, which are recorded, the latest one first, and by
other operations, of which none modifies a field. A template is compiled on a given registry or on
none, when the schema takes its parent's or the shared one; one that cannot be compiled is not
recorded. -/
inductive SchemaHistory (d : Dispatch) (w₀ : World) : List Compilation → World → Prop where
  | start : SchemaHistory d w₀ [] w₀
  | compiled {history : List Compilation} {w : World} (run : SchemaHistory d w₀ history w)
      {template collectionName : Value} {registry above : Option Nat} {entries : Entries} {s : Nat}
      (possible : ∀ p, above = some p → p < w.schemas.size)
      (mapped : w.mapping? template = some entries) {w' : World}
      (made : exec (compileSchema d template collectionName (objectOrNull .schema above)
        (objectOrNull .registry registry)) w = (.ok s, w')) :
      SchemaHistory d w₀ (⟨s, above, templateNames entries, (w'.schema s).fields⟩ :: history) w'
  | failed {history : List Compilation} {w : World} (run : SchemaHistory d w₀ history w)
      {template collectionName parent : Value} {registry : Option Nat}
      (possible : ∀ p, parent = .schema p → p < w.schemas.size) {e : Fault} {w' : World}
      (broken : exec (compileSchema d template collectionName parent
        (objectOrNull .registry registry)) w = (.error e, w')) :
      SchemaHistory d w₀ history w'
  | other {history : List Compilation} {w : World} (run : SchemaHistory d w₀ history w)
      (operation : SchemaOperation) (possible : operation.Possible w)
      (unmodified : ∀ field attributes, operation ≠ .merge field attributes) :
      SchemaHistory d w₀ history (exec (operation.perform d) w).2

/-- A compilation that gives a schema is recorded. -/
theorem SchemaHistory.compilation {d : Dispatch} {w₀ w : World} {history : List Compilation}
    (run : SchemaHistory d w₀ history w) (entries : Entries) (registry above : Option Nat) {s : Nat}
    (possible : ∀ p, above = some p → p < w.schemas.size) {made : Except Fault Nat × World}
    (performed : exec (compileSchema d (.freshDict entries) .null (objectOrNull .schema above)
      (objectOrNull .registry registry)) w = made) (given : made.1.toOption = some s) :
    SchemaHistory d w₀ (⟨s, above, templateNames entries, (made.2.schema s).fields⟩ :: history)
      made.2 := by
  obtain ⟨e | s', w'⟩ := made
  · cases given
  · obtain rfl := Option.some.inj given
    exact .compiled run possible rfl performed

/-- Whether an operation compiles no schema and modifies no field. -/
def SchemaOperation.keepsFields : SchemaOperation → Bool
  | .compile .. | .merge .. => false
  | _ => true

/-- Such operations, one after the other, by induction on them. -/
theorem SchemaHistory.afterSession {d : Dispatch} {w₀ : World} {history : List Compilation}
    (operations : List SchemaOperation)
    (keeping : operations.all SchemaOperation.keepsFields = true) {w : World}
    (run : SchemaHistory d w₀ history w) :
    SchemaHistory d w₀ history (DataShape.afterSession d operations w) := by
  induction operations generalizing w with
  | nil => exact run
  | cons operation rest ih =>
    rw [List.all_cons, Bool.and_eq_true] at keeping
    obtain ⟨possible, unmodified⟩ : operation.Possible w ∧
        ∀ field attributes, operation ≠ .merge field attributes := by
      have keeps := keeping.1
      cases operation with
      | compile => cases keeps
      | merge => cases keeps
      | _ => exact ⟨trivial, nofun⟩
    exact ih keeping.2 (.other run operation possible unmodified)

/-- A list without repetitions is kept as it is. -/
theorem eraseDups_of_nodup {α : Type} [BEq α] [LawfulBEq α] {l : List α} (distinct : l.Nodup) :
    l.eraseDups = l := by
  induction l with
  | nil => rfl
  | cons a rest ih =>
    obtain ⟨fresh, distinct⟩ := List.nodup_cons.mp distinct
    have kept : (rest.filter fun b => !b == a) = rest := by
      refine List.filter_eq_self.mpr fun b there => ?_
      have differs : b ≠ a := fun same => fresh (same ▸ there)
      simpa using differs
    rw [List.eraseDups_cons, kept, ih distinct]

/-- To merge texts into others is to put them behind and drop what is repeated. By induction on the
texts. -/
theorem mergeNames_map_str (own : List String) : ∀ inherited : List String,
    mergeNames (inherited.eraseDups.map .str) (own.map .str)
      = (inherited ++ own).eraseDups.map .str := by
  induction own with
  | nil =>
    intro inherited
    rw [List.append_nil]
    rfl
  | cons name rest ih =>
    intro inherited
    have texts : AllTexts (inherited.eraseDups.map .str) := fun n there => by
      obtain ⟨m, -, rfl⟩ := List.mem_map.mp there
      exact ⟨m, rfl⟩
    have known : (Value.str name).isIn (inherited.eraseDups.map .str) = true ↔ name ∈ inherited := by
      rw [texts.isIn_iff]
      simp
    show mergeNames (if (Value.str name).isIn (inherited.eraseDups.map .str) then
      inherited.eraseDups.map .str else inherited.eraseDups.map .str ++ [.str name])
      (rest.map .str) = _
    by_cases member : name ∈ inherited
    · rw [if_pos (known.mpr member), ih, List.eraseDups_append, List.eraseDups_append,
        List.cons_removeAll]
      simp [member]
    · rw [if_neg (member ∘ known.mp)]
      have concat : inherited.eraseDups.map Value.str ++ [.str name]
          = (inherited ++ [name]).eraseDups.map .str := by
        rw [List.eraseDups_append, List.cons_removeAll]
        simp [member, List.eraseDups_cons]
      rw [concat, ih, List.append_assoc]
      rfl

/-- No name of a template is repeated. -/
theorem nodup_templateNames (entries : Entries) : (templateNames entries).Nodup := by
  have texts : ∀ names : List String, AllTexts (names.map .str) := fun names n there => by
    obtain ⟨m, -, rfl⟩ := List.mem_map.mp there
    exact ⟨m, rfl⟩
  have merged : mergeNames [] ((entries.filterMap fun e => e.1.text?).map .str)
      = (templateNames entries).map .str := mergeNames_map_str _ []
  have distinct := (texts []).nodup_mergeNames (texts (entries.filterMap fun e => e.1.text?))
    List.nodup_nil
  rw [List.map_nil, merged] at distinct
  exact List.Nodup.of_map _ distinct

theorem AllTexts.eq_map_str {names : List Value} (texts : AllTexts names) :
    names = (names.filterMap Value.text?).map .str := by
  induction names with
  | nil => rfl
  | cons n rest ih =>
    obtain ⟨m, rfl⟩ := texts n List.mem_cons_self
    have others := ih fun k there => texts k (List.mem_cons_of_mem _ there)
    simpa [Value.text?] using others

/-! ## What is kept -/

/-- A recorded schema has the parent and the fields that it was compiled with, under the names of
its template. -/
structure Compilation.Recorded (c : Compilation) (w : World) : Prop where
  inside : c.schema < w.schemas.size
  parent : (w.schema c.schema).parent = c.parent
  fields : (w.schema c.schema).fields = c.fields
  names : c.fields.keys = c.names.map .str
  distinct : c.names.Nodup

theorem Compilation.Recorded.extends {c : Compilation} {w w' : World} (recorded : c.Recorded w)
    (h : w.Extends w') : c.Recorded w' where
  inside := Nat.lt_of_lt_of_le recorded.inside h.size
  parent := by rw [h.parent _ recorded.inside, recorded.parent]
  fields := by rw [h.fields _ recorded.inside, recorded.fields]
  names := recorded.names
  distinct := recorded.distinct

section History

variable {call : Provider} {depth : Nat} {w₀ w : World} {history : List Compilation}

/-- A schema that is compiled is recorded with the names of its template. -/
theorem recorded_of_compileSchema [within : (call.dispatch depth).Within (World.Retains call)]
    (sound : w.SoundSchemas) (faithful : w.Faithful call) {template collectionName : Value}
    {registry above : Option Nat} {s : Nat} {entries : Entries} {w' : World}
    (possible : ∀ p, above = some p → p < w.schemas.size)
    (mapped : w.mapping? template = some entries)
    (made : exec (compileSchema (call.dispatch depth) template collectionName
      (objectOrNull .schema above) (objectOrNull .registry registry)) w = (.ok s, w')) :
    w'.SoundSchemas ∧ w'.Faithful call ∧ w.Extends w' ∧
      Compilation.Recorded ⟨s, above, templateNames entries, (w'.schema s).fields⟩ w' := by
  obtain ⟨entries', u, mapped', found, rest⟩ :=
    adds_of_compileSchema (R := World.Retains call) sound possible made
  obtain rfl : entries' = entries := Option.some.inj (mapped'.symm.trans mapped)
  obtain ⟨sound₀, faithful₀, extends₀, -⟩ := found sound faithful
  obtain ⟨w₁, texts, adds, parent, keys, logged⟩ := rest sound₀
  obtain ⟨sound₁, faithful₁, extends₁, -⟩ :=
    Developing.added (R := World.Retains call) sound₀ adds sound₀ faithful₀
  obtain ⟨sound', faithful', extends', -⟩ :=
    Along.of_ok (R := World.Retains call) logged sound₁ faithful₁
  have inside := adds.building.inside
  refine ⟨sound', faithful', (extends₀.trans extends₁).trans extends',
    Nat.lt_of_lt_of_le inside extends'.size, ?_, rfl, ?_, ?_⟩
  · rw [extends'.parent s inside, parent]
  · have own : Table.keys entries' = (entries'.filterMap fun e => e.1.text?).map Value.str := by
      have given := texts.eq_map_str
      rwa [Table.keys, List.filterMap_map] at given
    show (w'.schema s).fields.keys = (templateNames entries').map .str
    rw [extends'.fields s inside, keys, own]
    exact mergeNames_map_str _ []
  · exact nodup_templateNames entries'

/-- What every such session keeps: schemas are sound, kept lists are faithful, and the compiled
schemas are as they were recorded. By induction on the session. -/
theorem SchemaHistory.retained (user : call.Within (World.Retains call)) (start : w₀.NoObjects)
    (run : SchemaHistory (call.dispatch depth) w₀ history w) :
    w.SoundSchemas ∧ w.Faithful call ∧ ∀ c ∈ history, c.Recorded w := by
  have within := Provider.dispatch_retains user depth
  induction run with
  | start =>
    refine ⟨.of_no_objects start.types start.fields start.schemas start.unshared,
      fun s p names kept => ?_, fun c there => absurd there List.not_mem_nil⟩
    have inside := World.lt_size_of_kept kept
    rw [start.schemas] at inside
    cases inside
  | compiled _ possible mapped made ih =>
    obtain ⟨sound, faithful, recorded⟩ := ih
    obtain ⟨sound', faithful', extends', new⟩ :=
      recorded_of_compileSchema sound faithful possible mapped made
    refine ⟨sound', faithful', fun c there => ?_⟩
    rcases List.mem_cons.mp there with rfl | old
    · exact new
    · exact (recorded c old).extends extends'
  | @failed _ w _ _ _ _ _ possible _ w' broken ih =>
    obtain ⟨sound, faithful, recorded⟩ := ih
    have same := congrArg Prod.snd broken
    dsimp only at same
    have follows : w.Retains call w' := same ▸ follows_compileSchema _ possible
    obtain ⟨sound', faithful', extends', -⟩ := follows sound faithful
    exact ⟨sound', faithful', fun c there => (recorded c there).extends extends'⟩
  | other _ operation possible unmodified ih =>
    obtain ⟨sound, faithful, recorded⟩ := ih
    obtain ⟨sound', faithful', extends', -⟩ :=
      follows_perform (R := World.Retains call) (d := call.dispatch depth) possible
        (fun field attributes same => absurd same (unmodified field attributes)) sound faithful
    exact ⟨sound', faithful', fun c there => (recorded c there).extends extends'⟩

end History

/-! ## Lines of schemas -/

/-- The recorded compilations from a root to a schema, each on top of the one before. -/
inductive Line (history : List Compilation) : Nat → List Compilation → Prop where
  | root {c : Compilation} (there : c ∈ history) (alone : c.parent = none) :
      Line history c.schema [c]
  | child {c : Compilation} {p : Nat} {line : List Compilation} (there : c ∈ history)
      (parent : c.parent = some p) (inherited : Line history p line) :
      Line history c.schema (line ++ [c])

/-- The names that a line declares, a repeated one at its first place; or those of the last template
alone. -/
def lineNames (line : List Compilation) (ownOnly : Bool) : List String :=
  if ownOnly then (line.getLast?.map Compilation.names).getD []
  else (line.flatMap Compilation.names).eraseDups

/-- The declaration of a name that is nearest to the end of a line, if there is one. -/
def nearest (line : List Compilation) (name : String) : Option Value :=
  line.reverse.findSome? fun c => c.fields.get? (.str name)

/-- The names that are listed, where it is known which fields are left out of user interfaces. -/
def listing (hidden : Nat → Bool) (line : List Compilation) (uiOnly ownOnly : Bool) : List String :=
  if uiOnly then (lineNames line ownOnly).filter fun name =>
    match nearest line name with
    | some (.field f) => !hidden f
    | _ => true
  else lineNames line ownOnly

section Lines

variable {w : World} {history line : List Compilation} {s : Nat}

/-- What the schema at the end of a line declares, and what it has under a name, is told by the
line. By induction on the line: a schema merges its own names into those of its parent, and looks
for a field among its own before it asks its parent. -/
theorem Line.spec (sound : w.SoundSchemas) (recorded : ∀ c ∈ history, c.Recorded w)
    (along : Line history s line) :
    w.declared s = (line.flatMap Compilation.names).eraseDups.map .str ∧
      (∀ n, w.fieldNamed? s (.str n) = nearest line n) ∧
      ∃ c, line.getLast? = some c ∧ c.schema = s ∧ c.Recorded w := by
  induction along with
  | @root c there alone =>
    have here := recorded c there
    refine ⟨?_, fun n => ?_, c, rfl, rfl, here⟩
    · rw [World.declared_eq sound.older, here.parent, alone, here.fields, here.names]
      simpa using mergeNames_map_str c.names []
    · rw [World.fieldNamed?_eq sound.older, here.parent, alone, here.fields]
      simp [nearest]
  | @child c p line there parent inherited ih =>
    have here := recorded c there
    obtain ⟨declared, named, -⟩ := ih
    refine ⟨?_, fun n => ?_, c, List.getLast?_concat, rfl, here⟩
    · rw [World.declared_eq sound.older, here.parent, parent, here.fields, here.names,
        Option.elim_some, declared, mergeNames_map_str, List.flatMap_append]
      simp
    · rw [World.fieldNamed?_eq sound.older, here.parent, parent, here.fields, Option.bind_some,
        named, nearest, nearest, List.reverse_concat, List.findSome?_cons]
      cases c.fields.get? (.str n) <;> rfl

/-- The names that a projection covers are those that the line declares. -/
theorem Line.covered (sound : w.SoundSchemas) (recorded : ∀ c ∈ history, c.Recorded w)
    (along : Line history s line) (ownOnly : Bool) :
    w.covered s ownOnly = (lineNames line ownOnly).map .str := by
  obtain ⟨declared, -, c, last, rfl, here⟩ := along.spec sound recorded
  cases ownOnly with
  | false => exact declared
  | true =>
    rw [World.covered, if_pos rfl, here.fields, here.names, lineNames, if_pos rfl, last]
    have merged := mergeNames_map_str c.names []
    rw [List.nil_append, eraseDups_of_nodup here.distinct] at merged
    exact merged

/-- A name that a projection covers leads to the nearest field of the line. -/
theorem Line.nearest_eq (sound : w.SoundSchemas) (recorded : ∀ c ∈ history, c.Recorded w)
    (along : Line history s line) (ownOnly : Bool) {n : String}
    (there : n ∈ lineNames line ownOnly) :
    nearest line n = some (.field (w.fieldUnder s (.str n))) := by
  have covered : Value.str n ∈ w.covered s ownOnly := by
    rw [along.covered sound recorded]
    exact List.mem_map_of_mem there
  rw [← (along.spec sound recorded).2.1 n]
  exact sound.fieldNamed?_eq_fieldUnder (sound.covered_subset s _ covered)

/-- The reference list is what the line tells. -/
theorem Line.reference (sound : w.SoundSchemas) (recorded : ∀ c ∈ history, c.Recorded w)
    (along : Line history s line) (hidden : Nat → Bool) (uiOnly ownOnly : Bool) :
    w.reference hidden s ⟨uiOnly, ownOnly⟩ = (listing hidden line uiOnly ownOnly).map .str := by
  unfold World.reference listing
  rw [along.covered sound recorded]
  cases uiOnly with
  | false => rfl
  | true =>
    simp only [if_true]
    rw [List.filter_map]
    refine congrArg _ (List.filter_congr fun n there => ?_)
    rw [along.nearest_eq sound recorded ownOnly there]
    rfl

end Lines

/-! ## Sessions -/

section Session

variable {call : Provider} {depth : Nat} {w₀ w : World} {history line : List Compilation} {s : Nat}

end Session

end DataShape
