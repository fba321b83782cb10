import DataShape.Proofs.Schema.Projection

/-! # Fields that are left out of user interfaces

A walk over the fields of a schema asks each field again whether it is left out, so the record of
all defaults has no field that is left out by then. A projection does not ask again: it goes by the
list that the schema keeps for user interfaces, and a field that was shown when the list was made
stays in it when it is left out later.

* `World.Steady` — making a default does not change which fields are left out.
* `Steady.exec_defaultRecord` — the defaults of fields that are shown.
* `World.Nested` — the nested records that a projection reaches, with their projections.
* `ui_exclusion` — what is left out, and the one case in which it is not, in every session. -/

namespace DataShape

/-- The keys of a mapping; any other value has none. -/
def Value.keys : Value → List Value
  | .dict _ entries => Table.keys entries
  | _ => []

namespace World

/-! ## Records of defaults -/

/-- Worlds in which fields are left out of user interfaces as they are in a given one: field lists
may be kept, and defaults may be made. -/
structure Steady (d : Dispatch) (w : World) (Q : World → Prop) : Prop where
  here : Q w
  relisted : ∀ u u', Q u → u.Relisted u' → Q u'
  produced : ∀ u f, Q u → Q (exec (recordDefault d (.field f)) u).2
  flag : ∀ u f, Q u → exec (uiExclude d f) u = (.ok (w.excludes d f), u)

section Defaults

variable {d : Dispatch} {w : World} {Q : World → Prop}

theorem Steady.flagsQuiet (steady : w.Steady d Q) : w.FlagsQuiet d := fun f =>
  ⟨w.excludes d f, fun w' relisted => steady.flag w' f (steady.relisted w w' steady.here relisted)⟩

/-- A world in the course of a walk over fields that makes their defaults. -/
structure During (w : World) (Q : World → Prop) (u : World) : Prop where
  steady : Q u
  sound : u.SoundSchemas
  develops : w.Extends u

/-- A field that a schema has under a name, and that is shown in user interfaces at present. -/
def ShowsField (d : Dispatch) (w : World) (s : Nat) (n : Value) (f : Nat) : Prop :=
  n ∈ w.declared s ∧ w.fieldNamed? s n = some (.field f) ∧ w.excludes d f = false

/-- A walk over fields for user interfaces visits only fields that are shown, whatever the names
are that it goes by. By induction on the names; what holds of the state holds after each visit. -/
theorem Steady.exec_visitNames (steady : w.Steady d Q) (sound : w.SoundSchemas) {s : Nat}
    {σ : Type} {visit : σ → Value → Action σ} (Good : σ → Prop)
    (visited : ∀ state u n f, Good state → w.During Q u → w.ShowsField d s n f →
      ∀ state' u', exec (visit state (.field f)) u = (.ok state', u') →
        Good state' ∧ w.During Q u')
    (names : List Value) (declared : ∀ n ∈ names, n ∈ w.declared s) :
    ∀ state u, Good state → w.During Q u → ∀ state' u',
      exec (visitNames d s true visit names state) u = (.ok state', u') → Good state' := by
  induction names with
  | nil =>
    intro state u good _ state' u' run
    obtain ⟨rfl, -⟩ := exec_pure_eq_ok.mp run
    exact good
  | cons n rest ih =>
    intro state u good during state' u' run
    have there := declared n List.mem_cons_self
    have ih := ih fun m h => declared m (List.mem_cons_of_mem n h)
    -- A schema that declares a name exists, so it still has the field in the course of the walk.
    have inside : s < w.schemas.size := by
      by_contra outside
      rw [declared_of_size_le (Nat.le_of_not_lt outside)] at there
      cases there
    obtain ⟨f, named⟩ := sound.fieldNamed?_of_declared there
    have found : exec (findField d s n) u = (.ok (.field f), u) := by
      rw [during.sound.exec_findField d s ((sound.declared_texts s).hashable there),
        during.develops.fieldNamed?_of_lt sound during.sound n s inside, named]
      rfl
    rw [visitNames, exec_bind_ok found] at run
    simp only [if_true] at run
    rw [exec_bind_ok (steady.flag u f during.steady)] at run
    cases flag : w.excludes d f with
    | true =>
      simp only [flag, if_true] at run
      exact ih state u good during state' u' run
    | false =>
      simp only [flag, Bool.false_eq_true, if_false] at run
      obtain ⟨state₁, u₁, step, rest⟩ := exec_bind_eq_ok.mp run
      obtain ⟨good₁, during₁⟩ := visited state u n f good during ⟨there, named, flag⟩ state₁ u₁ step
      exact ih state₁ u₁ good₁ during₁ state' u' rest

/-- To enter the default of a field that is shown adds no other key than the name of the field. -/
theorem Steady.exec_enter [d.Within World.Develops] (steady : w.Steady d Q)
    (sound : w.SoundSchemas) {s : Nat} {entries : Entries} {u : World} {n : Value} {f : Nat}
    (good : ∀ k ∈ Table.keys entries, ∃ f, w.ShowsField d s k f) (during : w.During Q u)
    (shows : w.ShowsField d s n f) {entries' : Entries} {u' : World}
    (run : exec (do
      match ← recordDefault d (.field f) with
      | some v =>
          let name ← nameOfField d (.field f)
          if !name.hashable then throw .wrongType
          return Table.insert entries name v
      | none => return entries) u = (.ok entries', u')) :
    (∀ k ∈ Table.keys entries', ∃ f, w.ShowsField d s k f) ∧ w.During Q u' := by
  obtain ⟨default, u₁, made, rest⟩ := exec_bind_eq_ok.mp run
  obtain ⟨sound₁, develops⟩ := Along.of_ok (R := World.Develops) made during.sound
  have during₁ : w.During Q u₁ := by
    refine ⟨?_, sound₁, during.develops.trans develops⟩
    have produced := steady.produced u f during.steady
    rwa [made] at produced
  cases default with
  | none =>
    obtain ⟨rfl, rfl⟩ := exec_pure_eq_ok.mp rest
    exact ⟨good, during₁⟩
  | some v =>
    obtain ⟨m, rfl⟩ := sound.declared_texts s n shows.1
    obtain ⟨inside, name⟩ := sound.named_of_fieldNamed? shows.2.1
    have named : exec (nameOfField d (.field f)) u₁ = (.ok (.str m), u₁) := by
      show (Except.ok (u₁.fieldName f), u₁) = _
      rw [sound₁.plain.fieldName, during₁.develops.names.name f inside, name]
    dsimp only at rest
    rw [exec_bind_ok named] at rest
    obtain ⟨rfl, rfl⟩ := exec_pure_eq_ok.mp rest
    refine ⟨fun k there => ?_, during₁⟩
    rw [Table.keys_insert] at there
    split at there
    · exact good k there
    · rcases List.mem_append.mp there with old | new
      · exact good k old
      · rw [List.mem_singleton.mp new]
        exact ⟨f, shows⟩

/-- The keys of a record of defaults for user interfaces are names of fields that are shown. -/
theorem Steady.exec_defaultRecord [d.Within World.Develops] (steady : w.Steady d Q)
    (sound : w.SoundSchemas) {s : Nat} {x : Value} {w₁ : World}
    (run : exec (defaultRecord d s (.bool true)) w = (.ok x, w₁)) :
    ∀ n ∈ x.keys, ∃ f, w.ShowsField d s n f := by
  unfold defaultRecord at run
  obtain ⟨entries, u, walked, result⟩ := exec_bind_eq_ok.mp run
  obtain ⟨rfl, -⟩ := exec_pure_eq_ok.mp result
  show ∀ n ∈ Table.keys entries, ∃ f, w.ShowsField d s n f
  -- the names that are visited are declared
  have flags : true = true → w.FlagsQuiet d := fun _ => steady.flagsQuiet
  obtain ⟨w', names, same⟩ := (SameLists.refl sound).exec_fieldList sound flags s
  have both : exec (Projection.ofFlags d (bothFlags [.bool true])) w = (.ok shownOnly, w) := rfl
  have listed := (sound.plain.exec_fieldNames both).trans names
  have chosen : exec (Projection.ofFlags d [.bool true]) w' = (.ok shownOnly, w') := rfl
  rw [sound.plain.exec_visitFields, exec_visitOwn_of_listed chosen listed] at walked
  have during : w.During Q w' :=
    ⟨steady.relisted w w' steady.here same.relisted, same.sound, same.relisted.extends⟩
  refine steady.exec_visitNames sound (fun entries => ∀ k ∈ Table.keys entries, ∃ f,
    w.ShowsField d s k f) (fun entries u n f good during shows entries' u' entered =>
      steady.exec_enter sound good during shows entered) (w.listed d true s)
    (fun n there => (sound.listed_sublist true s).subset there) [] w' ?_ during _ _ walked
  exact fun k there => absurd there List.not_mem_nil

end Defaults

/-! ## Nested records -/

section Nested

variable {d : Dispatch} {w : World}

/-- A record with its projection, and the nested records with theirs that are found under fields:
one under a field that holds a record, the items of a list under an array of records. -/
inductive Nested (d : Dispatch) (w : World) (s : Nat) (r x : Value) : Nat → Value → Value → Prop
  where
  | whole : Nested d w s r x s r x
  | single {t inner f share : Nat} {v name y : Value} {entries : Entries}
      (outer : Nested d w s r x t v (.dict share entries))
      (named : exec (findField d t name) w = (.ok (.field f), w))
      (held : (w.field f).type = .schema inner)
      (alone : (w.field f).isArray = false ∨ (w.found d v name).sequence? = none)
      (entry : (name, y) ∈ entries) : Nested d w s r x inner (w.found d v name) y
  | item {t inner f i share share' : Nat} {v name a b : Value} {entries : Entries}
      {given projected : List Value}
      (outer : Nested d w s r x t v (.dict share entries))
      (named : exec (findField d t name) w = (.ok (.field f), w))
      (held : (w.field f).type = .schema inner) (array : (w.field f).isArray = true)
      (sequence : (w.found d v name).sequence? = some given)
      (entry : (name, .list share' projected) ∈ entries)
      (here : given[i]? = some a) (there : projected[i]? = some b) : Nested d w s r x inner a b

/-- Items at the same place of a list and of the list that it is mapped to. -/
theorem getElem?_of_mapM {α β : Type} {f : α → Option β} {items : List α} {ys : List β} {i : Nat}
    {x : α} {y : β} (mapped : items.mapM f = some ys) (here : items[i]? = some x)
    (there : ys[i]? = some y) : f x = some y := by
  induction items generalizing ys i with
  | nil => cases here
  | cons first rest ih =>
    obtain ⟨z, zs, one, others, rfl⟩ := mapM_cons_eq_some.mp mapped
    cases i with
    | zero =>
      obtain rfl := Option.some.inj here
      obtain rfl := Option.some.inj there
      exact one
    | succ i => exact ih others here there

/-- The keys of a projection are the listed names that the record has values under. -/
theorem keys_of_mapM {g : Value → Option Value} {names : List Value} {entries : Entries}
    (mapped : names.mapM (fun n => (g n).map (Prod.mk n)) = some entries) :
    Table.keys entries = names := by
  induction names generalizing entries with
  | nil =>
    obtain rfl : [] = entries := Option.some.inj mapped
    rfl
  | cons n rest ih =>
    obtain ⟨e, es, first, others, rfl⟩ := mapM_cons_eq_some.mp mapped
    obtain ⟨y, -, rfl⟩ := Option.map_eq_some_iff.mp first
    rw [Table.keys_cons, ih others]

/-- An entry of a projection is a projected value of a field. -/
theorem exists_of_mem_projected? {P : Value → Prop} (quiet : w.QuietSet d P)
    (sound : w.SoundSchemas) {uiOnly : Bool} {depth s share f : Nat} {r name y : Value}
    {entries : Entries} (member : P r)
    (h : w.projected? d uiOnly depth s r = some (.dict share entries))
    (entry : (name, y) ∈ entries) (named : exec (findField d s name) w = (.ok (.field f), w)) :
    P (w.found d r name) ∧ ∃ k,
      w.projectedValue? (w.projected? d uiOnly k) f (w.found d r name) = some y := by
  obtain ⟨k, ⟨-, none⟩ | ⟨like, given, projected, same⟩⟩ := exists_of_projected? h
  · cases none
  obtain ⟨-, rfl⟩ := Value.dict.inj same
  obtain ⟨listed, value⟩ := exists_of_mem_projectedEntries? projected entry
  have declared := (sound.listed_sublist uiOnly s).subset listed
  rw [sound.findField_eq_ok declared] at named
  rw [fieldUnder, named] at value
  exact ⟨(quiet.exec_lookupKey member like declared (.refl w)).1, k, value⟩

/-- Nested records are projected like the record itself, by induction on the way to them. -/
theorem QuietSet.projected?_of_nested {P : Value → Prop} (quiet : w.QuietSet d P)
    (sound : w.SoundSchemas) {uiOnly : Bool} {depth s t : Nat} {r x v y : Value} (member : P r)
    (projected : w.projected? d uiOnly depth s r = some x) (nested : w.Nested d s r x t v y) :
    P v ∧ ∃ k, w.projected? d uiOnly k t v = some y := by
  induction nested with
  | whole => exact ⟨member, depth, projected⟩
  | single outer named held alone entry ih =>
    obtain ⟨member', k, outer⟩ := ih
    obtain ⟨found, k', value⟩ := exists_of_mem_projected? quiet sound member' outer entry named
    refine ⟨found, k', ?_⟩
    unfold projectedValue? at value
    rw [held] at value
    rcases alone with single | other
    · rw [single] at value
      exact value
    · rw [other] at value
      revert value
      cases (w.field _).isArray <;> exact id
  | item outer named held array sequence entry here there ih =>
    obtain ⟨member', k, outer⟩ := ih
    obtain ⟨found, k', value⟩ := exists_of_mem_projected? quiet sound member' outer entry named
    unfold projectedValue? at value
    rw [held, array, sequence] at value
    obtain ⟨ys, mapped, same⟩ := Option.map_eq_some_iff.mp value
    cases same
    have inside := List.mem_of_getElem? here
    exact ⟨quiet.items _ _ found sequence _ inside, k', getElem?_of_mapM mapped here there⟩

/-- A name whose field is left out is listed only if it is in the list that the schema keeps. -/
theorem SoundSchemas.mem_listed_of_excluded (sound : w.SoundSchemas) {s f : Nat} {n : Value}
    (named : exec (findField d s n) w = (.ok (.field f), w)) (excluded : w.excludes d f = true) :
    n ∈ w.listed d true s
      ↔ ∃ names, (w.schema s).fieldLists.get? shownOnly = some names ∧ n ∈ names := by
  rw [listed, if_pos rfl]
  cases kept : (w.schema s).fieldLists.get? shownOnly with
  | some names => simp
  | none =>
    constructor
    · intro there
      obtain ⟨declared, shown⟩ := List.mem_filter.mp there
      rw [sound.findField_eq_ok declared] at named
      rw [shows, named] at shown
      simp [excluded] at shown
    · rintro ⟨names, absent, -⟩
      cases absent

/-- The keys of a projection are the listed names that the record has values under. -/
theorem mem_keys_of_projected? {uiOnly : Bool} {depth s : Nat} {r x : Value}
    (h : w.projected? d uiOnly depth s r = some x) (n : Value) :
    n ∈ x.keys ↔ r.isRecordLike = true ∧ (w.found d r n).isMissing = false
      ∧ n ∈ w.listed d uiOnly s := by
  obtain ⟨k, ⟨unlike, rfl⟩ | ⟨like, entries, projected, rfl⟩⟩ := exists_of_projected? h
  · simp [Value.keys, unlike]
  · show n ∈ Table.keys entries ↔ _
    rw [keys_of_mapM projected, present, List.mem_filter]
    simp [like, and_comm]

end Nested

/-! ## Fields that stay as they are -/

/-- Where nothing is set on objects, the fields stay as they are. -/
def KeepsFields (w w' : World) : Prop := w.Plain → w'.Plain ∧ w'.fields = w.fields

instance KeepsFields.lists : Frame.Lists KeepsFields where
  refl w plain := ⟨plain, rfl⟩
  trans first second plain := by
    obtain ⟨plain₁, same⟩ := first plain
    obtain ⟨plain₂, same'⟩ := second plain₁
    exact ⟨plain₂, same'.trans same⟩
  log w l plain := ⟨⟨plain.types, plain.fields, plain.schemas⟩, rfl⟩
  identity w n plain := ⟨⟨plain.types, plain.fields, plain.schemas⟩, rfl⟩
  keep w s p names plain := ⟨(w.relisted_keep s p names).plain plain, rfl⟩
  foreign w s share lists set plain := by
    have stored : w.storedOn (.schema s) = [] := plain.schemas s
    rw [stored] at set
    exact absurd rfl set

/-- Where all attributes of all fields are inert, and the functions of a provider keep fields as
they are, defaults are made without an effect on the flags. -/
theorem steady_of_entriesInert {call : Provider} {w : World} (user : call.Within KeepsFields)
    (depth : Nat) (plain : w.Plain)
    (inert : (w.fields.toList.all fun n => entriesInert n.attributes) = true) :
    w.Steady (call.dispatch (depth + 1)) fun u => u.Plain ∧ u.fields = w.fields where
  here := ⟨plain, rfl⟩
  relisted u u' h relisted := ⟨relisted.plain h.1, relisted.fields.trans h.2⟩
  produced u f h := by
    have within := Provider.dispatch_within user (depth + 1)
    have made : Along KeepsFields (recordDefault (call.dispatch (depth + 1)) (.field f)) :=
      inferInstance
    obtain ⟨plain', same⟩ := made.out u h.1
    exact ⟨plain', same.trans h.2⟩
  flag u f h := by
    obtain ⟨b, flag⟩ := exec_uiExclude_of_entriesInert call depth inert f
    rw [flag u h.1 h.2, excludes, flag w plain rfl]

end World

/-! ## Sessions -/

section Session

variable {call : Provider} {depth : Nat} {w₀ w : World} {Q : World → Prop}

/-- Exclusion from user interfaces, in every session. A record of defaults for user interfaces has
keys of fields only that are shown. A projection for user interfaces has, at every depth, a key of a
field that is left out just if the record has a value under it and the schema keeps a list from
earlier on that has the name. -/
theorem ui_exclusion (user : call.Within World.Develops) (start : w₀.NoObjects)
    (run : SchemaRun (call.dispatch depth) w₀ w) (steady : w.Steady (call.dispatch depth) Q) :
    (∀ s x w₁, exec (defaultRecord (call.dispatch depth) s (.bool true)) w = (.ok x, w₁) →
      ∀ n ∈ x.keys, ∃ f, exec (findField (call.dispatch depth) s n) w = (.ok (.field f), w) ∧
        exec (uiExclude (call.dispatch depth) f) w = (.ok false, w)) ∧
    ∀ s r x w₁, w.Quiet (call.dispatch depth) r →
      exec (sanitize (call.dispatch depth) s r (.bool true)) w = (.ok x, w₁) →
      ∀ t v y, w.Nested (call.dispatch depth) s r x t v y →
      ∀ n f, exec (findField (call.dispatch depth) t n) w = (.ok (.field f), w) →
        exec (uiExclude (call.dispatch depth) f) w = (.ok true, w) →
        (n ∈ y.keys ↔ v.isRecordLike = true ∧
          (w.found (call.dispatch depth) v n).isMissing = false ∧
          ∃ names, (w.schema t).fieldLists.get? World.shownOnly = some names ∧ n ∈ names) := by
  have sound := run.sound user start
  have within := Provider.dispatch_develops user depth
  constructor
  · intro s x w₁ made n there
    obtain ⟨f, declared, named, shown⟩ := steady.exec_defaultRecord sound made n there
    refine ⟨f, (sound.findField_eq_ok declared).mpr named, ?_⟩
    rw [steady.flag w f steady.here, shown]
  · rintro s r x w₁ ⟨P, quiet, member⟩ projects t v y nested n f named excluded
    obtain ⟨w₂, run', -⟩ := (World.SameLists.refl sound).exec_sanitize sound quiet
      (fun _ => steady.flagsQuiet) s member
    rw [projects] at run'
    have projected := World.outcome_eq_ok.mp (Prod.mk.inj run').1.symm
    obtain ⟨-, k, inner⟩ := quiet.projected?_of_nested sound member projected nested
    have flag : w.excludes (call.dispatch depth) f = true := by
      rw [steady.flag w f steady.here] at excluded
      exact Except.ok.inj (Prod.mk.inj excluded).1
    rw [World.mem_keys_of_projected? inner, sound.mem_listed_of_excluded named flag]

/-- The keys of a mapping that are texts. -/
def textKeys (v : Value) : List String := v.keys.filterMap Value.text?

theorem mem_keys_of_textKeys {v : Value} {m : String} (h : m ∈ textKeys v) : .str m ∈ v.keys := by
  obtain ⟨k, there, text⟩ := List.mem_filterMap.mp h
  cases k with
  | str s =>
    obtain rfl := Option.some.inj text
    exact there
  | _ => cases text

/-- A schema with two fields, of which one is left out of user interfaces after the list for these
was made, and a schema with a nested record of it. -/
def hidingSession : List SchemaOperation :=
  [.newRegistry, .define 0 (.define (bareDefinition "T" .null)),
   .compile 0 (.ofFields [("a", .ofFields [("type", .str "T"), ("default", .int 5)]),
     ("b", .ofFields [("type", .str "T"), ("default", .int 6)])]) .null .null,
   .compile 0 (.ofFields [("home", .schema 0)]) .null .null, .list 0 [.bool true],
   .merge 1 (.ofFields [("ui", .ofFields [("exclude", .bool true)])])]

/-- A record with a nested one. -/
def hidingRecord : Value :=
  .ofFields [("home", .ofFields [("a", .int 1), ("b", .int 2)])]

/-- A field that is left out has no default in a record for user interfaces, but the projection of a
nested record has it. -/
theorem ui_exclusion_of_kept_list :
    let d := answering.dispatch 2
    let w := afterSession d hidingSession (.empty "" [])
    answering.Within World.Develops ∧ (World.empty "" []).NoObjects ∧
    SchemaRun d (.empty "" []) w ∧ (w.Steady d fun u => u.Plain ∧ u.fields = w.fields) ∧
    w.Quiet d hidingRecord ∧
    exec (findField d 0 (.str "b")) w = (.ok (.field 1), w) ∧
    exec (uiExclude d 1) w = (.ok true, w) ∧
    (∃ x w₁, exec (defaultRecord d 0 (.bool true)) w = (.ok x, w₁) ∧
      .str "a" ∈ x.keys ∧ .str "b" ∉ x.keys) ∧
    ∃ x y w₁, exec (sanitize d 1 hidingRecord (.bool true)) w = (.ok x, w₁) ∧
      w.Nested d 1 hidingRecord x 0 (w.found d hidingRecord (.str "home")) y ∧
      .str "b" ∈ y.keys := by
  intro d w
  have user : answering.Within World.Develops := answering_within
  have start : (World.empty "" []).NoObjects := ⟨rfl, rfl, rfl, rfl⟩
  have run : SchemaRun d (.empty "" []) w := by
    refine SchemaRun.afterSession hidingSession (fun o there w => ?_) _ .start
    simp only [hidingSession, List.mem_cons, List.not_mem_nil, or_false] at there
    rcases there with rfl | rfl | rfl | rfl | rfl | rfl <;> first | trivial | exact nofun
  have sound := run.sound user start
  have steady : w.Steady d fun u => u.Plain ∧ u.fields = w.fields :=
    World.steady_of_entriesInert answering_within 1 sound.plain (by decide +kernel)
  have quiet : w.Quiet d hidingRecord :=
    (Value.inert_of_isInert hidingRecord (by decide +kernel)).quiet answering 1 sound
  have flag : w.excludes d 1 = true := by decide +kernel
  have held : (w.field 2).type = .schema 0 ∧ (w.field 2).isArray = false := by decide +kernel
  have present : (w.found d hidingRecord (.str "home")).isRecordLike = true ∧
      (w.found d (w.found d hidingRecord (.str "home")) (.str "b")).isMissing = false := by
    decide +kernel
  have under : w.fieldUnder 0 (.str "b") = 1 ∧ w.fieldUnder 1 (.str "home") = 2 := by
    decide +kernel
  have declared : (Value.str "b").isIn (w.declared 0) = true ∧
      (Value.str "home").isIn (w.declared 1) = true := by decide +kernel
  have listed : (Value.str "b").isIn (w.listed d true 0) = true := by decide +kernel
  have default : ((exec (defaultRecord d 0 (.bool true)) w).1.toOption.map textKeys) = some ["a"] :=
    by decide +kernel
  have projected : ((exec (sanitize d 1 hidingRecord (.bool true)) w).1.toOption.map textKeys)
      = some ["home"] := by decide +kernel
  clear_value w
  rw [(sound.declared_texts 0).isIn_iff, (sound.declared_texts 1).isIn_iff] at declared
  have found : exec (findField d 0 (.str "b")) w = (.ok (.field 1), w) := by
    rw [sound.exec_findField_of_declared d declared.1, under.1]
  have outer : exec (findField d 1 (.str "home")) w = (.ok (.field 2), w) := by
    rw [sound.exec_findField_of_declared d declared.2, under.2]
  have excluded : exec (uiExclude d 1) w = (.ok true, w) := by
    rw [steady.flag w 1 steady.here, flag]
  have texts : AllTexts (w.listed d true 0) := fun n there =>
    sound.declared_texts 0 n ((sound.listed_sublist true 0).subset there)
  have kept := (sound.mem_listed_of_excluded found flag).mp ((texts.isIn_iff "b").mp listed)
  obtain ⟨defaults, projections⟩ := ui_exclusion user start run steady
  refine ⟨user, start, run, steady, quiet, found, excluded, ?_, ?_⟩
  · rcases made : exec (defaultRecord d 0 (.bool true)) w with ⟨e | x, w₁⟩ <;> rw [made] at default
    · cases default
    · have keys : textKeys x = ["a"] := Option.some.inj default
      refine ⟨x, w₁, rfl, mem_keys_of_textKeys (by rw [keys]; exact List.mem_cons_self), ?_⟩
      intro there
      obtain ⟨f, named, shown⟩ := defaults 0 x w₁ made _ there
      rw [found] at named
      cases named
      rw [excluded] at shown
      cases shown
  · rcases once : exec (sanitize d 1 hidingRecord (.bool true)) w with ⟨e | x, w₁⟩ <;>
      rw [once] at projected
    · cases projected
    · have keys : textKeys x = ["home"] := Option.some.inj projected
      have home : .str "home" ∈ x.keys :=
        mem_keys_of_textKeys (by rw [keys]; exact List.mem_cons_self)
      cases x with
      | dict share entries =>
        obtain ⟨⟨name, y⟩, entry, rfl⟩ := List.mem_map.mp home
        have inner : w.Nested d 1 hidingRecord (.dict share entries) 0
            (w.found d hidingRecord (.str "home")) y :=
          .single .whole outer held.1 (.inl held.2) entry
        refine ⟨_, y, w₁, rfl, inner, ?_⟩
        rw [projections 1 hidingRecord _ w₁ quiet once 0 _ y inner _ 1 found excluded]
        exact ⟨present.1, present.2, kept⟩
      | _ => cases home

end Session

end DataShape
