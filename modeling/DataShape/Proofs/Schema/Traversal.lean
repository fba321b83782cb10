import DataShape.Proofs.Registry.Invariant
import DataShape.Proofs.Schema.Composition
import DataShape.Proofs.Schema.Memo

/-! # Traversals of schemas end

The engine bounds each walk through schemas: a chain of parents by the number of schemas, a
projection by a depth. Where schemas are composed of older ones no bound is ever reached, so the
walks end by themselves: along parents, which are older, and through nested records only as far as
schemas are nested, whatever a record holds.

* `sanitizeFrom` — a projection, with an action in the place of what would be nested too deeply.
* `World.NestedWithin` — how far schemas are nested in a schema.
* `exec_sanitizeFrom_eq` — beyond that nothing is projected.
* `World.Traversable`, `composition_wellFounded` — all walks, in every session. -/

namespace DataShape

/-! ## Projections without a bottom -/

/-- Project a record, down to a depth of nested records; `rest` projects what is nested deeper. -/
def sanitizeFrom (d : Dispatch) (uiOnly : Value) (rest : Nat → Value → Action Value) :
    Nat → Nat → Value → Action Value
  | 0, schema, record => rest schema record
  | depth + 1, schema, record => do
      if !record.isRecordLike then return .null
      let names ← fieldNames d schema [uiOnly]
      let nested (inner : Nat) (value : Value) : Action Value :=
        orStandIn d (.schema inner) "sanitize" [value, uiOnly] pure
          (sanitizeFrom d uiOnly rest depth inner value)
      return .freshDict (← projectNames d nested schema record names [])

section Depth

variable (d : Dispatch) (uiOnly : Value)

/-- The engine refuses what is nested deeper. -/
theorem sanitizeWithin_eq (depth : Nat) :
    sanitizeWithin d uiOnly depth = sanitizeFrom d uiOnly (fun _ _ => throw .tooDeep) depth := by
  induction depth with
  | zero => rfl
  | succ depth ih =>
    funext schema record
    rw [sanitizeWithin, sanitizeFrom, ih]

/-- A depth can be gone down in two parts. -/
theorem sanitizeFrom_add (rest : Nat → Value → Action Value) (n k : Nat) :
    sanitizeFrom d uiOnly rest (n + k)
      = sanitizeFrom d uiOnly (sanitizeFrom d uiOnly rest k) n := by
  induction n with
  | zero => rw [Nat.zero_add]; rfl
  | succ n ih =>
    funext schema record
    rw [Nat.succ_add, sanitizeFrom, sanitizeFrom, ih]

end Depth

/-! ## Actions that run alike -/

/-- Two actions run alike in all worlds of a kind. -/
def RunAlike {α : Type} (S : World → Prop) (a b : Action α) : Prop := ∀ w, S w → exec a w = exec b w

namespace RunAlike

variable {α β : Type} {S : World → Prop} {a b : Action α}

theorem refl (S : World → Prop) (a : Action α) : RunAlike S a a := fun _ _ => rfl

/-- Two sequences run alike if their first steps do, which stay among the worlds of the kind, and
what follows does for the results that can come. -/
theorem bind {P : α → Prop} {f g : α → Action β} (first : RunAlike S a b)
    (kept : ∀ w x w', S w → exec b w = (.ok x, w') → S w' ∧ P x)
    (second : ∀ x, P x → RunAlike S (f x) (g x)) : RunAlike S (a >>= f) (b >>= g) := by
  intro w h
  rw [exec_bind, exec_bind, first w h]
  rcases run : exec b w with ⟨e | x, w'⟩
  · rfl
  · obtain ⟨h', result⟩ := kept w x w' h run
    exact second x result w' h'

/-- After a look-up that finds the same everywhere two sequences run alike if what follows does. -/
theorem after {γ : Type} {a : Action γ} {x : γ} {f g : γ → Action β}
    (found : ∀ w, S w → exec a w = (.ok x, w)) (second : RunAlike S (f x) (g x)) :
    RunAlike S (a >>= f) (a >>= g) := by
  intro w h
  rw [exec_bind_ok (found w h), exec_bind_ok (found w h)]
  exact second w h

variable {R : World → World → Prop} (closed : ∀ w w', R w w' → S w → S w')

include closed

/-- So it is for steps that follow a relation along which the kind is kept. -/
theorem andThen {f g : α → Action β} (first : RunAlike S a b) [Along R b]
    (second : ∀ x, RunAlike S (f x) (g x)) : RunAlike S (a >>= f) (b >>= g) :=
  bind (P := fun _ => True) first (fun _ _ _ h run => ⟨closed _ _ (Along.of_ok run) h, trivial⟩)
    fun x _ => second x

theorem mapM {f g : α → Action β} [∀ x, Along R (g x)] (each : ∀ x, RunAlike S (f x) (g x)) :
    ∀ items : List α, RunAlike S (items.mapM f) (items.mapM g) := by
  intro items
  induction items with
  | nil => exact refl S _
  | cons x rest ih =>
    rw [List.mapM_cons, List.mapM_cons]
    have : ∀ y, RunAlike S (do return y :: (← rest.mapM f)) (do return y :: (← rest.mapM g)) :=
      fun y w h => by rw [exec_bind, exec_bind, ih w h]
    exact andThen closed (each x) this

end RunAlike

/-! ## Nesting -/

namespace World

/-- Schemas are nested in a schema, one in another, through its fields, but not deeper than a
number; the schema itself counts. -/
def NestedWithin (w : World) : Nat → Nat → Prop
  | 0, _ => False
  | n + 1, s => s < w.schemas.size ∧ ∀ name ∈ w.declared s, ∀ t,
      (w.field (w.fieldUnder s name)).type = .schema t → w.NestedWithin n t

variable {w w' : World}

/-- Where nested schemas are older, a schema is nested within its age. -/
theorem SoundSchemas.nestedWithin (sound : w.SoundSchemas) (founded : w.Founded) (s : Nat)
    (inside : s < w.schemas.size) : ∀ n, s < n → w.NestedWithin n s := by
  induction s using Nat.strongRecOn with
  | _ s ih =>
    intro n deep
    obtain ⟨k, rfl⟩ : ∃ k, n = k + 1 := ⟨n - 1, by omega⟩
    refine ⟨inside, fun name there t held => ?_⟩
    -- A nested schema is older, so there is one level less to go for it.
    have older := founded.nested sound there held
    exact ih t older (Nat.lt_trans older inside) k (Nat.lt_of_lt_of_le older (by omega))

/-- Schemas that persist are nested as they were. -/
theorem Persists.nestedWithin (h : w.Persists w') (sound : w.SoundSchemas) (n : Nat) :
    ∀ s, w.NestedWithin n s → w'.NestedWithin n s := by
  obtain ⟨sound', extends', held'⟩ := h sound
  induction n with
  | zero => exact fun _ h => h
  | succ n ih =>
    rintro s ⟨inside, nested⟩
    refine ⟨Nat.lt_of_lt_of_le inside extends'.size, fun name there t held => ?_⟩
    rw [extends'.declared_of_lt sound sound' s inside] at there
    have named := sound.fieldNamed?_eq_fieldUnder there
    have same : w'.fieldUnder s name = w.fieldUnder s name := by
      rw [fieldUnder, extends'.fieldNamed?_of_lt sound sound' name s inside]
      rfl
    obtain ⟨m, rfl⟩ := sound.declared_texts s name there
    rw [same, held' _ (sound.named_of_fieldNamed? named).1] at held
    exact ih t (nested _ there t held)

/-- The worlds in which a schema is nested within a depth. -/
def Shallow (n s : Nat) (w : World) : Prop := w.SoundSchemas ∧ w.NestedWithin n s

theorem Persists.shallow {n s : Nat} (h : w.Persists w') (shallow : w.Shallow n s) :
    w'.Shallow n s :=
  ⟨(h shallow.1).1, h.nestedWithin shallow.1 n s shallow.2⟩

end World

/-! ## Listing -/

/-- A filter fails only where its test does, in a world that it has come to by then. -/
theorem exists_of_filterM_error {α : Type} {R : World → World → Prop} [Frame R]
    {f : α → Action Bool} [∀ x, Along R (f x)] {items : List α} {e : Fault} {w w' : World}
    (run : exec (items.filterM f) w = (.error e, w')) :
    ∃ x ∈ items, ∃ u, R w u ∧ exec (f x) u = (.error e, w') := by
  have aux : ∀ (items met : List α) (w : World),
      exec (List.filterAuxM f items met) w = (.error e, w') →
        ∃ x ∈ items, ∃ u, R w u ∧ exec (f x) u = (.error e, w') := by
    intro items
    induction items with
    | nil => exact fun _ _ run => nomatch run
    | cons x rest ih =>
      intro met w run
      rcases exec_bind_eq_error.mp run with fails | ⟨b, w₁, tested, run⟩
      · exact ⟨x, List.mem_cons_self, w, Frame.refl w, fails⟩
      · obtain ⟨y, there, u, follows, fails⟩ := ih _ w₁ run
        exact ⟨y, List.mem_cons_of_mem x there, u, Frame.trans (Along.of_ok tested) follows, fails⟩
  unfold List.filterM at run
  rcases exec_bind_eq_error.mp run with fails | ⟨kept, w₁, -, run⟩
  · exact aux items [] w fails
  · cases run

section Listing

variable {d : Dispatch} {w w' : World}

/-- In a plain world flags can be told. -/
theorem relists_ofFlags (d : Dispatch) (plain : w.Plain) (flags : List Value) :
    Relists (Projection.ofFlags d flags) w := by
  unfold Projection.ofFlags
  refine (relists_truthOf d plain _).bind fun first w₁ relisted => ?_
  refine (relists_truthOf d (relisted.plain plain) _).bind fun second w₂ _ => ?_
  exact relists_of_still rfl

variable [d.Within World.Persists]

instance along_fieldList_persists (s : Nat) (p : Projection) :
    Along World.Persists (fieldList d s p) := by
  refine along_fieldList_of Developing.assuming fun {w w₁ names} sound run follows => ?_
  obtain ⟨sound₁, extends₁, -⟩ := follows sound
  have kept : w₁.Relisted (w₁.withList s p names) := w₁.relisted_keep s p names
  exact Frame.trans follows (kept.persists (sound.withList_computed run sound₁ extends₁))

/-- Names are listed unless the flag of a field cannot be read. -/
theorem World.SoundSchemas.fieldList_ends (sound : w.SoundSchemas) {s : Nat}
    (inside : s < w.schemas.size) {p : Projection} {e : Fault}
    (run : exec (fieldList d s p) w = (.error e, w')) :
    ∃ n ∈ w.declared s, ∃ u, exec (uiExclude d (w.fieldUnder s n)) u = (.error e, w') := by
  cases kept : (w.schema s).fieldLists.get? p with
  | some names =>
    rw [sound.plain.exec_fieldList_of_kept d kept] at run
    cases run
  | none =>
    rw [sound.plain.exec_fieldList_of_missed d kept] at run
    rcases fails : exec (World.computedNames d s p) w with ⟨e | names, w₁⟩ <;> rw [fails] at run
    · obtain ⟨⟨⟩, rfl⟩ := Prod.mk.inj run
      obtain ⟨w₁, covered, listed⟩ := sound.lists_coveredNames d s p.ownOnly
      unfold World.computedNames at fails
      rw [exec_bind_ok covered] at fails
      cases shown : p.uiOnly with
      | false =>
        rw [shown] at fails
        cases fails
      | true =>
        rw [shown] at fails
        obtain ⟨n, there, u, follows, fails⟩ :=
          exists_of_filterM_error (R := World.Persists) fails
        -- The flag is asked in a world that the filter has come to, where the name leads to its field still.
        have declared := sound.covered_subset s p.ownOnly there
        obtain ⟨sound', extends', -⟩ :=
          Frame.trans (listed.relisted.persists listed.sound) follows sound
        unfold isShown at fails
        rw [exec_bind_ok (extends'.exec_findField sound sound' d inside declared)] at fails
        rcases exec_bind_eq_error.mp fails with fails | ⟨b, w₂, -, fails⟩
        · exact ⟨n, declared, u, fails⟩
        · cases fails
    · cases run

end Listing

/-! ## Projections that end -/

section Projection

variable {d : Dispatch} [d.Within World.Persists] {w : World} {s : Nat}

section Values

variable {nested nested' : Nat → Value → Action Value} [∀ t v, Along World.Persists (nested' t v)]
  (sound : w.SoundSchemas)

include sound

/-- The value of a field is projected alike if nested records are. -/
theorem runAlike_projectValue {f : Nat} (exists' : f < w.fields.size)
    (alike : ∀ t, (w.field f).type = .schema t → ∀ v,
      RunAlike w.Persists (nested t v) (nested' t v)) (value : Value) :
    RunAlike w.Persists (projectValue d nested (.field f) value)
      (projectValue d nested' (.field f) value) := by
  have closed : ∀ u u' : World, u.Persists u' → w.Persists u → w.Persists u' :=
    fun _ _ next before => Frame.trans before next
  have held : ∀ u, w.Persists u →
      exec (heldType d (.field f)) u = (.ok (w.field f).type.toValue, u) := by
    intro u persists
    obtain ⟨sound', -, held⟩ := persists sound
    show (Except.ok (u.fieldType f), u) = _
    rw [sound'.plain.fieldType, held f exists']
  unfold projectValue
  refine .after held ?_
  cases type : (w.field f).type with
  | type t => exact .refl _ _
  | schema t =>
    have alike := alike t type
    refine .andThen closed (.refl _ _) fun array => ?_
    split
    · refine .andThen closed (.mapM closed alike _) fun _ => .refl _ _
    · exact alike value

/-- So are the values under the names that a schema declares, by induction on the names. -/
theorem runAlike_projectNames (inside : s < w.schemas.size)
    (alike : ∀ name ∈ w.declared s, ∀ t, (w.field (w.fieldUnder s name)).type = .schema t → ∀ v,
      RunAlike w.Persists (nested t v) (nested' t v))
    (record : Value) (names : List Value) (declared : names ⊆ w.declared s) :
    ∀ entries, RunAlike w.Persists (projectNames d nested s record names entries)
      (projectNames d nested' s record names entries) := by
  have closed : ∀ u u' : World, u.Persists u' → w.Persists u → w.Persists u' :=
    fun _ _ next before => Frame.trans before next
  induction names with
  | nil => exact fun entries => .refl _ _
  | cons name rest ih =>
    intro entries
    have ih := ih (List.subset_of_cons_subset declared)
    have there := declared List.mem_cons_self
    have named := sound.fieldNamed?_eq_fieldUnder there
    obtain ⟨m, text⟩ := sound.declared_texts s name there
    have found : ∀ u, w.Persists u →
        exec (findField d s name) u = (.ok (.field (w.fieldUnder s name)), u) := by
      intro u persists
      obtain ⟨sound', extends', -⟩ := persists sound
      exact extends'.exec_findField sound sound' d inside there
    rw [projectNames, projectNames]
    refine .andThen closed (.refl _ _) fun value => ?_
    split
    · exact ih entries
    · refine .after found ?_
      have exists' : w.fieldUnder s name < w.fields.size := by
        rw [text] at named ⊢
        exact (sound.named_of_fieldNamed? named).1
      exact .andThen closed (runAlike_projectValue sound exists' (alike name there) value)
        fun projected => ih _

end Values

/-- **A projection is bounded by its schema.** What would be nested deeper than schemas are nested
is never come to, whatever the record. By induction on the depth. -/
theorem runAlike_sanitizeFrom (uiOnly : Value) (rest : Nat → Value → Action Value) (n : Nat) :
    ∀ s record, RunAlike (World.Shallow n s) (sanitizeFrom d uiOnly rest n s record)
      (sanitizeWithin d uiOnly n s record) := by
  induction n with
  | zero => exact fun s record w shallow => shallow.2.elim
  | succ n ih =>
    intro s record w shallow
    have sound := shallow.1
    have inside := shallow.2.1
    rw [sanitizeFrom, sanitizeWithin]
    cases record.isRecordLike with
    | false => simp only [Bool.not_false, if_true]
    | true =>
      simp only [Bool.not_true, Bool.false_eq_true, if_false]
      rw [exec_bind, exec_bind]
      rcases listed : exec (fieldNames d s [uiOnly]) w with ⟨e | names, w₁⟩
      · rfl
      · dsimp only
        have persists : w.Persists w₁ := Along.of_ok listed
        obtain ⟨sound₁, extends₁, -⟩ := persists sound
        obtain ⟨-, inside₁, nested₁⟩ := persists.shallow shallow
        have declared : names ⊆ w₁.declared s := by
          rw [extends₁.declared_of_lt sound sound₁ s inside]
          exact (sound.sublist_of_fieldNames (fun _ _ => World.Persists.develops) inside rfl
            listed).subset
        -- Names may be listed in a world that has moved on, so nested schemas are looked at there.
        have within : ∀ name ∈ w₁.declared s, ∀ t,
            (w₁.field (w₁.fieldUnder s name)).type = .schema t → ∀ v, RunAlike w₁.Persists
              (orStandIn d (.schema t) "sanitize" [v, uiOnly] pure (sanitizeFrom d uiOnly rest n t v))
              (orStandIn d (.schema t) "sanitize" [v, uiOnly] pure
                (sanitizeWithin d uiOnly n t v)) := by
          intro name there t held v u next
          have sound' := (next sound₁).1
          rw [sound'.plain.exec_orStandIn, sound'.plain.exec_orStandIn]
          exact ih t v u ⟨sound', next.nestedWithin sound₁ n t (nested₁ name there t held)⟩
        -- The rest of the walk is the same in both, once nested records are projected alike.
        have alike := runAlike_projectNames (d := d) sound₁ inside₁ within record names declared []
          w₁ (Frame.refl w₁)
        rw [exec_bind, exec_bind, alike]

/-- To project a record is to project it as deep as schemas are nested. -/
theorem exec_sanitize_eq (uiOnly : Value) (rest : Nat → Value → Action Value) {n : Nat}
    (shallow : w.Shallow n s) (bottom : ∀ m, s < m → w.NestedWithin m s) (record : Value) :
    exec (sanitize d s record uiOnly) w = exec (sanitizeFrom d uiOnly rest n s record) w := by
  have engine : exec (sanitize d s record uiOnly) w = exec (sanitizeWithin d uiOnly
      (w.schemas.size + w.types.size + record.depth + objectDepth) s record) w := by
    unfold sanitize
    rw [exec_bind_ok (exec_get w)]
  have whole : w.Shallow (w.schemas.size + w.types.size + record.depth + objectDepth) s := by
    refine ⟨shallow.1, bottom _ ?_⟩
    have inside : s < w.schemas.size := by
      cases n with
      | zero => exact shallow.2.elim
      | succ n => exact shallow.2.1
    omega
  -- The depth that the engine takes is enough, whichever of the two depths is the greater.
  generalize w.schemas.size + w.types.size + record.depth + objectDepth = depth at engine whole
  rw [engine]
  rcases Nat.le_total n depth with more | less
  · obtain ⟨k, rfl⟩ := Nat.exists_eq_add_of_le more
    rw [sanitizeWithin_eq, sanitizeFrom_add, runAlike_sanitizeFrom uiOnly _ n s record w shallow,
      runAlike_sanitizeFrom uiOnly rest n s record w shallow]
  · obtain ⟨k, rfl⟩ := Nat.exists_eq_add_of_le less
    rw [sanitizeFrom_add, runAlike_sanitizeFrom uiOnly _ depth s record w whole]

end Projection

/-! ## All walks -/

namespace World

/-- All walks through a schema end, without coming to a bound.

* The parent chain goes on with that of the parent, and ends with a schema that has none.
* A field is an own one, or the one that the parent finds.
* Names are those of the parent and the own ones; flags list them unless the flag of a field cannot
  be read.
* A record is projected as deep as schemas are nested, and they are nested within the age of the
  schema: whatever would be done deeper is not done. -/
structure Traversable (d : Dispatch) (w : World) (s : Nat) : Prop where
  chain : w.schemaChain s = s :: (w.schema s).parent.elim [] w.schemaChain
  root : ∃ r, exec (rootOf d s) w = (.ok (.schema r), w) ∧ (w.schemaChain s).getLast? = some r ∧
    (w.schema r).parent = none
  field : ∀ name, name.hashable = true →
    exec (findField d s name) w = (.ok ((w.fieldNamed? s name).getD .null), w)
  fieldNamed? : ∀ name, w.fieldNamed? s name
    = ((w.schema s).fields.get? name).or ((w.schema s).parent.bind (w.fieldNamed? · name))
  names : ∃ w', exec (allFieldNames d s) w = (.ok (w.declared s), w') ∧ w.Relisted w'
  declared : w.declared s
    = mergeNames ((w.schema s).parent.elim [] w.declared) (w.schema s).fields.keys
  listing : ∀ flags e w', exec (fieldNames d s flags) w = (.error e, w') →
    ∃ n ∈ w.declared s, ∃ u, exec (uiExclude d (w.fieldUnder s n)) u = (.error e, w')
  nested : w.NestedWithin (s + 1) s
  sanitize : ∀ n, w.NestedWithin n s → ∀ rest uiOnly record,
    exec (sanitize d s record uiOnly) w = exec (sanitizeFrom d uiOnly rest n s record) w

variable {d : Dispatch} {w : World} {s : Nat}

/-- By induction on the age of the schema. -/
theorem SoundSchemas.getLast?_schemaChain (sound : w.SoundSchemas) (s : Nat) :
    ∃ r, (w.schemaChain s).getLast? = some r ∧ (w.schema r).parent = none := by
  induction s using Nat.strongRecOn with
  | _ s ih =>
    rw [schemaChain_eq sound.older]
    cases above : (w.schema s).parent with
    | none => exact ⟨s, rfl, above⟩
    | some p =>
      obtain ⟨r, last, root⟩ := ih p (sound.older s p above)
      refine ⟨r, ?_, root⟩
      rw [Option.elim_some, List.getLast?_cons, last]
      rfl

theorem SoundSchemas.exec_rootOf (sound : w.SoundSchemas) (d : Dispatch) (s : Nat) :
    ∃ r, exec (rootOf d s) w = (.ok (.schema r), w) ∧ (w.schemaChain s).getLast? = some r ∧
      (w.schema r).parent = none := by
  obtain ⟨r, last, root⟩ := sound.getLast?_schemaChain s
  refine ⟨r, ?_, last, root⟩
  have own : ((w.schemaChain s).all fun i =>
      ((w.schema i).stored.get? "_parent_schema").isNone) = true := by
    refine List.all_eq_true.mpr fun i _ => ?_
    rw [sound.plain.schemas]
    rfl
  unfold rootOf
  rw [exec_bind_ok (exec_get w), if_pos own, rootSchema, List.getLastD_eq_getLast?, last]
  rfl

/-- Where nested schemas are older, all walks end. -/
theorem SoundSchemas.traversable [d.Within Persists] (sound : w.SoundSchemas)
    (founded : w.Founded) (inside : s < w.schemas.size) : w.Traversable d s where
  chain := schemaChain_eq sound.older s
  root := sound.exec_rootOf d s
  field _ keyed := sound.exec_findField d s keyed
  fieldNamed? name := fieldNamed?_eq sound.older s name
  names := by
    obtain ⟨w', run, listed⟩ := sound.exec_allFieldNames d s
    exact ⟨w', run, listed.relisted⟩
  declared := declared_eq sound.older s
  listing flags e w' run := by
    unfold fieldNames at run
    rw [sound.plain.exec_orStandIn] at run
    obtain ⟨p, w₁, chosen, relisted⟩ := relists_ofFlags d sound.plain flags
    have persists : w.Persists w₁ := Along.of_ok chosen
    obtain ⟨sound₁, extends₁, -⟩ := persists sound
    rw [exec_bind_ok chosen] at run
    obtain ⟨n, there, u, fails⟩ := sound₁.fieldList_ends (relisted.size ▸ inside) run
    rw [relisted.declared] at there
    rw [relisted.fieldUnder] at fails
    exact ⟨n, there, u, fails⟩
  nested := sound.nestedWithin founded s inside _ (Nat.lt_succ_self s)
  sanitize n within rest uiOnly record :=
    exec_sanitize_eq uiOnly rest ⟨sound, within⟩ (sound.nestedWithin founded s inside) record

end World

/-- **Schemas are well-founded.** In every session of calls that compile templates, failed calls
included, each schema that underlies another one was there at some time when that one was not. So no
chain of parents and of schemas that fields hold goes down for ever, and all walks through schemas
end: to the root, for a field, for the names, and through records, which are projected as deep as
schemas are nested, whatever they hold. -/
theorem composition_wellFounded {call : Provider} {w₀ w : World}
    (user : call.Within World.Persists) (start : w₀.NoObjects) (run : CompositionRun call w₀ w) :
    (∀ t s, w.Underlies t s → ∃ u, CompositionRun call w₀ u ∧ CompositionRun call u w ∧
      t < u.schemas.size ∧ u.schemas.size ≤ s) ∧
    WellFounded w.Underlies ∧
    ∀ depth s, s < w.schemas.size → w.Traversable (call.dispatch depth) s := by
  refine ⟨(run.before user start).2, World.wellFounded_underlies fun _ _ => run.older user start,
    fun depth s inside => ?_⟩
  have within := Provider.dispatch_persists user depth
  exact (run.sound user start).traversable (run.founded user start) inside

/-- Three calls: a schema without fields; one on top of it that also holds it, alone and in a list;
and one on top of that which holds it too, but has a field of an unknown type. -/
def nestingCalls : List CompileCall :=
  [⟨.ofFields [], .null, .null, some 0⟩,
    ⟨.ofFields [("a", .schema 0), ("b", .fresh [.schema 0])], .null, .schema 0, some 0⟩,
    ⟨.ofFields [("c", .ofFields [("type", .schema 1)]), ("d", .str "T")], .null, .schema 1, none⟩]

/-- The schema that the last call leaves behind, which fails, is composed of the older ones too. -/
theorem composition_wellFounded_failing :
    let d := answering.dispatch 3
    let w₀ := World.withRegistry
    let w₁ := (exec (nestingCalls[0].perform d) w₀).2
    let w₂ := (exec (nestingCalls[1].perform d) w₁).2
    let w := (exec (nestingCalls[2].perform d) w₂).2
    answering.Within World.Persists ∧ w₀.NoObjects ∧ CompositionRun answering w₀ w ∧
    (exec (nestingCalls[2].perform d) w₂).1.isOk = false ∧
    (w.Underlies 0 1 ∧ w.Underlies 1 2) ∧ WellFounded w.Underlies ∧ w.Traversable d 2 := by
  intro d w₀ w₁ w₂ w
  have user : answering.Within World.Persists := answering_within
  have start : w₀.NoObjects := ⟨rfl, rfl, rfl, rfl⟩
  have run₁ : CompositionRun answering w₀ w₁ :=
    .compile .start 2 nestingCalls[0] nofun fun entries mapped e there => by
      obtain rfl := Option.some.inj mapped
      cases there
  have run₂ : CompositionRun answering w₀ w₂ := by
    refine .compile run₁ 2 nestingCalls[1] (fun p same => ?_) fun entries mapped e there => ?_
    · obtain rfl : p = 0 := (Value.schema.inj same).symm
      decide +kernel
    · have old : 0 < (nestingCalls[1].opening d w₁).schemas.size := by decide +kernel
      obtain rfl := Option.some.inj mapped
      rcases there with _ | ⟨_, _ | ⟨_, ⟨⟩⟩⟩
      · exact .of_schema rfl old
      · exact .of_schema rfl old
  have run : CompositionRun answering w₀ w := by
    refine .compile run₂ 2 nestingCalls[2] (fun p same => ?_) fun entries mapped e there => ?_
    · obtain rfl : p = 1 := (Value.schema.inj same).symm
      decide +kernel
    · have old : 1 < (nestingCalls[2].opening d w₂).schemas.size := by decide +kernel
      obtain rfl := Option.some.inj mapped
      rcases there with _ | ⟨_, _ | ⟨_, ⟨⟩⟩⟩
      · exact .of_dict rfl fun t type => Value.schema.inj (Option.some.inj type) ▸ old
      · exact .of_str rfl
  obtain ⟨-, wellFounded, traversable⟩ := composition_wellFounded user start run
  exact ⟨user, start, run, by decide +kernel, ⟨by decide +kernel, by decide +kernel⟩, wellFounded,
    traversable 3 2 (by decide +kernel)⟩

end DataShape
