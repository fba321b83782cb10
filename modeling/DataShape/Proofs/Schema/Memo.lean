import DataShape.Proofs.Schema.Compile
import DataShape.Proofs.Schema.Flags

/-! # Kept lists say what would be computed anew

While fields are only added and stay as they are, a list that a schema keeps is the list that would
be computed anew, under every projection: the names that the projection covers, of which those are
left out whose fields say so. A field may say so in any way, also by asking objects of a provider,
as long as all who ask it get the same answer.

* `World.OnlyAnswers`, `World.Answers` — what a field says to all who ask; `World.flag?` — where it says
  so in a mapping.
* `World.reference` — the list of a projection, computed anew.
* `World.Faithful` — every kept list is the reference list.
* `World.Retains` — faithful lists stay faithful, and fields stay as they are.
* `along_fieldList_retains` — listing, by whomever; `Retains.developing` — compiling.
* `SoundSchemas.exec_fieldNames`, `SoundSchemas.exec_fieldsOf` — what is listed and visited. -/

namespace DataShape

namespace World

/-! ## Flags -/

/-- All who ask a field whether it is left out of user interfaces, at any depth of nested calls, get
the given answer and change nothing, or they get none. -/
def OnlyAnswers (call : Provider) (w : World) (f : Nat) (b : Bool) : Prop :=
  ∀ depth w', w'.Plain → w'.sharedParts = [] → w'.field f = w.field f → ∀ b' w'',
    exec (uiExclude (call.dispatch depth) f) w' = (.ok b', w'') → b' = b ∧ w'' = w'

/-- To ask a field whether it is left out of user interfaces gives an answer, and changes
nothing. -/
def Answers (d : Dispatch) (w : World) (f : Nat) (b : Bool) : Prop :=
  ∀ w', w'.Plain → w'.sharedParts = [] → w'.field f = w.field f →
    exec (uiExclude d f) w' = (.ok b, w')

variable {call : Provider} {w w' : World}

theorem OnlyAnswers.congr {f : Nat} {b : Bool} (answers : w.OnlyAnswers call f b)
    (same : w'.field f = w.field f) : w'.OnlyAnswers call f b :=
  fun depth u plain unshared kept => answers depth u plain unshared (kept.trans same)

/-- What a field says about user interfaces, where its attributes say it in a mapping of their own or
not at all. -/
def flag? (w : World) (f : Nat) : Option Bool :=
  match (Table.get? (w.field f).attributes (.str "ui")).getD .missing with
  | .missing => some false
  | .dict _ entries =>
      let told := (Table.get? entries (.str "exclude")).getD .missing
      if told.isEngineContainer then none else some told.isTrue
  | _ => none

/-- Such a field is asked without a function being called, in whatever way it is asked. -/
theorem exec_uiExclude_of_flag? {f : Nat} {b : Bool} (told : w.flag? f = some b) (d : Dispatch)
    (plain : w'.Plain) (same : w'.field f = w.field f) :
    exec (uiExclude d f) w' = (.ok b, w') := by
  obtain ⟨ui, given⟩ : ∃ ui, (Table.get? (w.field f).attributes (.str "ui")).getD .missing = ui :=
    ⟨_, rfl⟩
  have first : exec (lookupKey d (.freshDict (w.field f).attributes) (.str "ui")) w'
      = (.ok ui, w') := given ▸ rfl
  have followed : exec (fieldAttribute d f "ui.exclude" (.bool false)) w'
      = exec (if ui.isMissing then pure (.bool false)
          else followKeys d (.bool false) ui [.str "exclude"]) w' := by
    unfold fieldAttribute
    rw [exec_bind_ok (exec_get w'), plain.fieldAttributes, same]
    show exec (followKeys _ _ _ [.str "ui", .str "exclude"]) w' = _
    rw [followKeys, exec_bind_ok first]
  -- Data has a truth of its own, so nothing is called to tell it.
  have read : ∀ x : Value, x.isEngineContainer = false →
      exec (fieldAttribute d f "ui.exclude" (.bool false)) w' = (.ok x, w') →
      exec (uiExclude d f) w' = (.ok x.isTrue, w') := by
    intro x data run
    rw [uiExclude, exec_bind_ok run, truthOf, data]
    rfl
  unfold flag? at told
  rw [given] at told
  cases ui with
  | missing =>
    obtain rfl := Option.some.inj told
    exact read (.bool false) rfl followed
  | dict share entries =>
    obtain ⟨v, held⟩ : ∃ v, (Table.get? entries (.str "exclude")).getD .missing = v := ⟨_, rfl⟩
    dsimp only at told
    rw [held] at told
    split at told
    · cases told
    · next data =>
      obtain rfl := Option.some.inj told
      have second : exec (lookupKey d (.dict share entries) (.str "exclude")) w' = (.ok v, w') :=
        held ▸ rfl
      rw [if_neg (by exact Bool.false_ne_true), followKeys, exec_bind_ok second] at followed
      cases v with
      | missing => exact read (.bool false) rfl followed
      | _ => exact read _ (Bool.eq_false_iff.mpr data) followed
  | _ => cases told

theorem answers_of_flag? {f : Nat} {b : Bool} (told : w.flag? f = some b) (d : Dispatch) :
    w.Answers d f b :=
  fun _ plain _ same => exec_uiExclude_of_flag? told d plain same

theorem onlyAnswers_of_flag? {f : Nat} {b : Bool} (told : w.flag? f = some b) (call : Provider) :
    w.OnlyAnswers call f b := by
  intro depth w' plain _ same b' w'' asked
  rw [exec_uiExclude_of_flag? told _ plain same] at asked
  obtain ⟨answer, stayed⟩ := Prod.mk.inj asked
  exact ⟨(Except.ok.inj answer).symm, stayed.symm⟩

/-! ## The reference -/

/-- The list of a projection, where it is known which fields are left out of user interfaces. -/
def reference (w : World) (hidden : Nat → Bool) (s : Nat) (p : Projection) : List Value :=
  if p.uiOnly then (w.covered s p.ownOnly).filter fun n => !hidden (w.fieldUnder s n)
  else w.covered s p.ownOnly

/-- What is known about fields holds of those that a projection asks. -/
def Known (call : Provider) (w : World) (hidden : Nat → Bool) (s : Nat) (p : Projection) : Prop :=
  p.uiOnly = true → ∀ n ∈ w.covered s p.ownOnly,
    w.OnlyAnswers call (w.fieldUnder s n) (hidden (w.fieldUnder s n))

/-- Every list that a schema keeps is the reference list. -/
def Faithful (call : Provider) (w : World) : Prop :=
  ∀ s p names, (w.schema s).fieldLists.get? p = some names →
    ∀ hidden, w.Known call hidden s p → names = w.reference hidden s p

/-- The names that a projection covers are declared. -/
theorem SoundSchemas.covered_subset (sound : w.SoundSchemas) (s : Nat) (ownOnly : Bool) :
    w.covered s ownOnly ⊆ w.declared s := by
  intro n there
  cases ownOnly with
  | false => exact there
  | true =>
    have texts := sound.ownNames_texts s
    have none : AllTexts [] := fun _ h => absurd h List.not_mem_nil
    rw [covered, if_pos rfl, mem_mergeNames texts none] at there
    have inherited : AllTexts ((w.schema s).parent.elim [] w.declared) := by
      cases (w.schema s).parent with
      | none => exact none
      | some p => exact sound.declared_texts p
    rw [declared_eq sound.older, mem_mergeNames texts inherited]
    exact .inr (there.resolve_left List.not_mem_nil)

/-- Two worlds in which a schema has the same names, which lead to the same fields. -/
structure SameNames (w w' : World) (s : Nat) : Prop where
  covered : ∀ ownOnly, w'.covered s ownOnly = w.covered s ownOnly
  under : ∀ n, w'.fieldUnder s n = w.fieldUnder s n
  field : ∀ n ∈ w.declared s, w'.field (w.fieldUnder s n) = w.field (w.fieldUnder s n)

theorem Relisted.sameNames (relisted : w.Relisted w') (s : Nat) : w.SameNames w' s where
  covered ownOnly := by
    unfold World.covered
    rw [relisted.schemaFields, relisted.declared]
  under n := relisted.fieldUnder s n
  field _ _ := relisted.field _

/-- A schema that exists keeps its names and fields while schemas and fields are only added. -/
theorem SameNames.of_extends (sound : w.SoundSchemas) (sound' : w'.SoundSchemas)
    (extends' : w.Extends w') (nodes : w.KeepsNodes w') {s : Nat} (inside : s < w.schemas.size) :
    w.SameNames w' s where
  covered ownOnly := by
    unfold World.covered
    rw [extends'.fields s inside, extends'.declared_of_lt sound sound' s inside]
  under n := by
    unfold fieldUnder
    rw [extends'.fieldNamed?_of_lt sound sound' n s inside]
  field n there := by
    obtain ⟨m, rfl⟩ := sound.declared_texts s n there
    exact nodes.field _ (sound.named_of_fieldNamed? (sound.fieldNamed?_eq_fieldUnder there)).1

namespace SameNames

variable {s : Nat} (same : w.SameNames w' s)

include same

theorem reference (hidden : Nat → Bool) (p : Projection) :
    w'.reference hidden s p = w.reference hidden s p := by
  unfold World.reference
  simp only [same.covered, same.under]

/-- What is known afterwards was known before. -/
theorem known (sound : w.SoundSchemas) {hidden : Nat → Bool} {p : Projection}
    (known : w'.Known call hidden s p) : w.Known call hidden s p := by
  intro shown n there
  have answers := known shown n (by rwa [same.covered])
  rw [same.under] at answers
  exact answers.congr (same.field n (sound.covered_subset s _ there)).symm

/-- A list that was faithful before is faithful afterwards. -/
theorem faithful (sound : w.SoundSchemas) (faithful : w.Faithful call) {p : Projection}
    {names : List Value} (kept : (w.schema s).fieldLists.get? p = some names) (hidden : Nat → Bool)
    (known : w'.Known call hidden s p) : names = w'.reference hidden s p := by
  rw [same.reference]
  exact faithful s p names kept hidden (same.known sound known)

end SameNames

/-! ## Steps that keep lists faithful -/

/-- Lists stay faithful where schemas and fields are only added and every list was kept before. -/
theorem Faithful.of_extends (faithful : w.Faithful call) (sound : w.SoundSchemas)
    (sound' : w'.SoundSchemas) (extends' : w.Extends w') (nodes : w.KeepsNodes w')
    (lists : ∀ s p names, (w'.schema s).fieldLists.get? p = some names →
      s < w.schemas.size ∧ (w.schema s).fieldLists.get? p = some names) : w'.Faithful call := by
  intro s p names kept hidden known
  obtain ⟨inside, before⟩ := lists s p names kept
  exact (SameNames.of_extends sound sound' extends' nodes inside).faithful sound faithful before
    hidden known

/-- A schema that keeps a list exists. -/
theorem lt_size_of_kept {s : Nat} {p : Projection} {names : List Value}
    (kept : (w.schema s).fieldLists.get? p = some names) : s < w.schemas.size := by
  by_contra outside
  rw [schema_of_size_le (Nat.le_of_not_lt outside)] at kept
  cases kept

/-- Lists stay faithful when the reference list is kept. -/
theorem Faithful.withList (faithful : w.Faithful call) (sound : w.SoundSchemas) {s : Nat}
    {p : Projection} {names : List Value}
    (right : ∀ hidden, w.Known call hidden s p → names = w.reference hidden s p) :
    (w.withList s p names).Faithful call := by
  intro i q found kept hidden known
  have same := (w.relisted_keep s p names).sameNames i
  rcases kept_of_withList kept with ⟨rfl, rfl, rfl⟩ | before
  · exact (right hidden (same.known sound known)).trans (same.reference hidden p).symm
  · exact same.faithful sound faithful before hidden known

/-- Faithful lists stay faithful, schemas and fields are only added, and fields stay as they are. -/
def Retains (call : Provider) (w w' : World) : Prop :=
  w.SoundSchemas → w.Faithful call →
    w'.SoundSchemas ∧ w'.Faithful call ∧ w.Extends w' ∧ w.KeepsNodes w'

/-- A step that leaves schemas and the fields that exist as they are. -/
theorem retains_of_kept (plain : w.Plain → w'.Plain)
    (apart : w.sharedParts = [] → w'.sharedParts = [] ∧ w.KeepsNodes w' ∧ w'.schemas = w.schemas) :
    w.Retains call w' := by
  intro sound faithful
  obtain ⟨sound', extends'⟩ := Developing.apart (R := Develops) plain apart sound
  obtain ⟨-, nodes, schemas⟩ := apart sound.unshared
  refine ⟨sound', faithful.of_extends sound sound' extends' nodes fun s p names kept => ?_,
    extends', nodes⟩
  have same : w'.schema s = w.schema s := by rw [World.schema, schemas]; rfl
  rw [same] at kept
  exact ⟨lt_size_of_kept kept, kept⟩

instance Retains.frame : Frame (Retains call) where
  refl w sound faithful := ⟨sound, faithful, .refl w, .of_fields rfl⟩
  trans first second sound faithful := by
    obtain ⟨sound₁, faithful₁, extends₁, nodes₁⟩ := first sound faithful
    obtain ⟨sound₂, faithful₂, extends₂, nodes₂⟩ := second sound₁ faithful₁
    exact ⟨sound₂, faithful₂, extends₁.trans extends₂, nodes₁.trans nodes₂⟩
  log w l := retains_of_kept (fun h => ⟨h.types, h.fields, h.schemas⟩) fun h =>
    ⟨h, .of_fields rfl, rfl⟩
  identity w n := retains_of_kept (fun h => ⟨h.types, h.fields, h.schemas⟩) fun h =>
    ⟨h, .of_fields rfl, rfl⟩

/-- A compilation keeps the lists of the schemas that exist, and the new schema keeps none. -/
instance Retains.developing : Developing (Retains call) where
  assuming h sound faithful := h sound sound faithful
  apart := retains_of_kept
  added {w w' s} _ adds sound faithful := by
    refine ⟨adds.building.sound, faithful.of_extends sound adds.building.sound adds.extends
      adds.nodes fun i p names kept => ?_, adds.extends, adds.nodes⟩
    have inside := lt_size_of_kept kept
    rw [adds.building.newest] at inside
    rcases Nat.lt_or_eq_of_le (Nat.le_of_lt_succ inside) with older | rfl
    · rw [adds.lists i older] at kept
      exact ⟨by rwa [← adds.fresh], kept⟩
    · rw [adds.building.bare] at kept
      cases kept

/-- To keep lists of all fields, each as it is declared. -/
theorem Listed.retains (listed : w.Listed w') : w.Retains call w' := by
  intro sound faithful
  refine ⟨listed.sound, fun s p names kept hidden known => ?_, listed.relisted.extends,
    .of_fields listed.relisted.fields⟩
  by_cases all : p = .all
  · subst all
    exact listed.sound.full s names kept
  · rw [listed.others s p all] at kept
    exact (listed.relisted.sameNames s).faithful sound faithful kept hidden known

end World

/-! ## Listing -/

section Listing

variable {call : Provider} {depth : Nat} {w : World}

/-- Where the functions of a provider retain lists, the whole dispatch does. -/
theorem Provider.dispatch_retains (user : call.Within (World.Retains call)) (depth : Nat) :
    (call.dispatch depth).Within (World.Retains call) :=
  Provider.dispatch_within_of user (fun d _ _ _ s => ⟨fun w sound faithful => by
    obtain ⟨w', run, listed⟩ := sound.exec_allFieldNames d s
    rw [run]
    exact listed.retains sound faithful⟩) depth

namespace World

/-- Whether a declared name is shown is asked of the field that it leads to. -/
theorem SoundSchemas.exec_isShown (sound : w.SoundSchemas) (d : Dispatch) {s : Nat} {n : Value}
    (there : n ∈ w.declared s) :
    exec (isShown d s n) w
      = exec (do return !(← uiExclude d (w.fieldUnder s n))) w := by
  unfold isShown
  rw [exec_bind_ok (sound.exec_findField_of_declared d there)]
  rfl

/-- What is computed is the reference list, in a world that lists the same. -/
theorem SoundSchemas.eq_reference (sound : w.SoundSchemas) {s : Nat} {p : Projection}
    {names : List Value} {w' : World}
    (run : exec (computedNames (call.dispatch depth) s p) w = (.ok names, w')) {hidden : Nat → Bool}
    (known : w.Known call hidden s p) : names = w.reference hidden s p := by
  obtain ⟨w₁, listed, given⟩ := sound.computedNames_eq_ok run
  rcases given with ⟨all, rfl, -⟩ | ⟨shown, filtered⟩
  · rw [reference, if_neg (by rw [all]; exact Bool.false_ne_true)]
  · rw [reference, if_pos shown]
    refine (filterM_eq_ok (fun n there b u asked => ?_) filtered).1
    have declared := sound.covered_subset s _ there
    rw [← listed.relisted.declared] at declared
    rw [listed.sound.exec_isShown _ declared, listed.relisted.fieldUnder] at asked
    obtain ⟨flag, w₂, read, result⟩ := exec_bind_eq_ok.mp asked
    obtain ⟨rfl, rfl⟩ := exec_pure_eq_ok.mp result
    obtain ⟨rfl, rfl⟩ := known shown n there depth w₁ listed.sound.plain listed.sound.unshared
      (listed.relisted.field _) flag w₂ read
    exact ⟨rfl, rfl⟩

end World

namespace World

/-- While a list is computed the names and fields of its schema stay the same. A schema that does
not exist has no names, so no field is asked in the course of the computation. -/
theorem SoundSchemas.sameNames_computed (sound : w.SoundSchemas) {d : Dispatch} {s : Nat}
    {p : Projection} {names : List Value} {w' : World}
    (run : exec (computedNames d s p) w = (.ok names, w')) (sound' : w'.SoundSchemas)
    (extends' : w.Extends w') (nodes : w.KeepsNodes w') : w.SameNames w' s := by
  rcases Nat.lt_or_ge s w.schemas.size with inside | outside
  · exact .of_extends sound sound' extends' nodes inside
  · obtain ⟨w₁, listed, given⟩ := sound.computedNames_eq_ok run
    have nothing : w.covered s p.ownOnly = [] := by
      have subset := sound.covered_subset s p.ownOnly
      rw [declared_of_size_le outside] at subset
      exact List.subset_nil.mp subset
    rcases given with ⟨-, -, rfl⟩ | ⟨-, filtered⟩
    · exact listed.relisted.sameNames s
    · rw [nothing] at filtered
      obtain ⟨-, rfl⟩ := exec_pure_eq_ok.mp filtered
      exact listed.relisted.sameNames s

end World

/-- Whoever lists the fields that a projection covers, the lists stay faithful. -/
instance along_fieldList_retains [within : (call.dispatch depth).Within (World.Retains call)]
    (s : Nat) (p : Projection) :
    Along (World.Retains call) (fieldList (call.dispatch depth) s p) := by
  refine along_fieldList_of (fun h sound faithful => h sound sound faithful)
    fun {w w₁ names} sound run retains _ faithful => ?_
  obtain ⟨sound₁, faithful₁, extends₁, nodes₁⟩ := retains sound faithful
  have kept : w₁.Relisted (w₁.withList s p names) := w₁.relisted_keep s p names
  have same := sound.sameNames_computed run sound₁ extends₁ nodes₁
  refine ⟨sound.withList_computed run sound₁ extends₁,
    faithful₁.withList sound₁ fun hidden known => ?_, extends₁.trans kept.extends,
    nodes₁.trans (.of_fields kept.fields)⟩
  rw [same.reference]
  exact sound.eq_reference run (same.known sound known)

/-! ## What is listed and visited -/

namespace World

/-- What is known of the fields that a projection asks: to ask them in the given way gives an
answer, and no other way gives another one. -/
def Told (call : Provider) (depth : Nat) (w : World) (hidden : Nat → Bool) (s : Nat)
    (p : Projection) : Prop :=
  p.uiOnly = true → ∀ n ∈ w.covered s p.ownOnly,
    w.Answers (call.dispatch depth) (w.fieldUnder s n) (hidden (w.fieldUnder s n)) ∧
    w.OnlyAnswers call (w.fieldUnder s n) (hidden (w.fieldUnder s n))

variable {hidden : Nat → Bool}

/-- A schema lists the reference list, whatever was listed before. -/
theorem SoundSchemas.exec_fieldList (sound : w.SoundSchemas) (faithful : w.Faithful call) {s : Nat}
    {p : Projection} (told : w.Told call depth hidden s p) :
    ∃ w', exec (fieldList (call.dispatch depth) s p) w = (.ok (w.reference hidden s p), w') ∧
      w.Relisted w' ∧ w'.SoundSchemas := by
  have known : w.Known call hidden s p := fun shown n there => (told shown n there).2
  have computed : ∃ w₁, exec (computedNames (call.dispatch depth) s p) w
      = (.ok (w.reference hidden s p), w₁) ∧ w.Listed w₁ := by
    obtain ⟨w₁, run, listed⟩ := sound.lists_coveredNames (call.dispatch depth) s p.ownOnly
    refine ⟨w₁, ?_, listed⟩
    unfold computedNames reference
    rw [exec_bind_ok run]
    cases shown : p.uiOnly with
    | false => rfl
    | true =>
      refine exec_filterM fun n there => ?_
      have declared := sound.covered_subset s _ there
      rw [← listed.relisted.declared] at declared
      rw [listed.sound.exec_isShown _ declared, listed.relisted.fieldUnder,
        exec_bind_ok ((told shown n there).1 w₁ listed.sound.plain listed.sound.unshared
          (listed.relisted.field _))]
      rfl
  obtain ⟨w₁, run, listed⟩ := computed
  cases kept : (w.schema s).fieldLists.get? p with
  | some names =>
    rw [← faithful s p names kept hidden known]
    exact ⟨w, sound.plain.exec_fieldList_of_kept _ kept, .refl w, sound⟩
  | none =>
    refine ⟨_, ?_, listed.relisted.trans (w₁.relisted_keep s p _),
      sound.withList_computed run listed.sound listed.relisted.extends⟩
    rw [sound.plain.exec_fieldList_of_missed _ kept, run]
    rfl

/-- The flags of a projection are given as truth values. -/
theorem SoundSchemas.exec_fieldNames (sound : w.SoundSchemas) (faithful : w.Faithful call)
    {s : Nat} {uiOnly ownOnly : Bool} (told : w.Told call depth hidden s ⟨uiOnly, ownOnly⟩) :
    ∃ w', exec (fieldNames (call.dispatch depth) s [.bool uiOnly, .bool ownOnly]) w
        = (.ok (w.reference hidden s ⟨uiOnly, ownOnly⟩), w') ∧
      w.Relisted w' ∧ w'.SoundSchemas := by
  obtain ⟨w', run, kept⟩ := sound.exec_fieldList faithful told
  refine ⟨w', ?_, kept⟩
  have chosen : exec (Projection.ofFlags (call.dispatch depth) [.bool uiOnly, .bool ownOnly]) w
      = (.ok ⟨uiOnly, ownOnly⟩, w) := rfl
  rw [sound.plain.exec_fieldNames chosen, run]

/-- The fields of the reference list are visited in its order; none is passed over, since those that
are left out of user interfaces are not in it. By induction on the names. -/
theorem SoundSchemas.exec_visitNames (sound : w.SoundSchemas) (d : Dispatch) (s : Nat)
    (uiOnly : Bool) (names : List Value) (declared : ∀ n ∈ names, n ∈ w.declared s)
    (shown : uiOnly = true → ∀ n ∈ names, exec (uiExclude d (w.fieldUnder s n)) w = (.ok false, w))
    (before : List Value) :
    exec (visitNames d s uiOnly (fun fields field => pure (fields ++ [field])) names before) w
      = (.ok (before ++ names.map fun n => .field (w.fieldUnder s n)), w) := by
  induction names generalizing before with
  | nil =>
    rw [List.map_nil, List.append_nil]
    rfl
  | cons n rest ih =>
    have found := sound.exec_findField_of_declared d (declared n List.mem_cons_self)
    have ih := ih (fun m there => declared m (List.mem_cons_of_mem n there))
      fun flag m there => shown flag m (List.mem_cons_of_mem n there)
    have visited : exec (visitNames d s uiOnly (fun fields field => pure (fields ++ [field])) rest
        (before ++ [.field (w.fieldUnder s n)])) w
        = (.ok (before ++ (n :: rest).map fun n => .field (w.fieldUnder s n)), w) := by
      rw [ih, List.append_assoc]
      rfl
    rw [visitNames, exec_bind_ok found]
    cases uiOnly with
    | false => exact visited
    | true =>
      simp only [if_true]
      rw [exec_bind_ok (shown rfl n List.mem_cons_self)]
      exact visited

end World

end Listing

end DataShape
