import DataShape.Proofs.Schema.Quiet
import DataShape.Proofs.Schema.Run

/-! # Projection of records

To project a record is to look up, for every listed name, what the record has under it, and to
project nested records in turn. Where records and flags are read without effect the result is a
function of the world, the record and the depth that is left, and projecting a projection again is
projecting once with both flags.

* `World.projected?` — what a projection gives.
* `SameLists.exec_sanitizeWithin` — the engine gives just that.
* `projected?_compose` — a projection of a projection.
* `sanitize_compose` — projections compose, in every session. -/

namespace DataShape

namespace World

/-! ## What a projection gives -/

section Projected

variable (d : Dispatch) (w : World)

/-- What a record has under a name, `missing` when there is nothing. -/
def found (r name : Value) : Value :=
  match (exec (lookupKey d r name) w).1 with
  | .ok x => x
  | .error _ => .missing

/-- The projection of the value of a field, given how nested records are projected. -/
def projectedValue? (nested : Nat → Value → Option Value) (f : Nat) (v : Value) : Option Value :=
  match (w.field f).type with
  | .type _ => some v
  | .schema inner =>
      match (w.field f).isArray, v.sequence? with
      | true, some items => (items.mapM (nested inner)).map .fresh
      | _, _ => nested inner v

/-- The names among some that a record has a value under. -/
def present (r : Value) (names : List Value) : List Value :=
  names.filter fun name => !(w.found d r name).isMissing

/-- The projection of the values of a record under some names. -/
def projectedEntries? (nested : Nat → Value → Option Value) (s : Nat) (r : Value)
    (names : List Value) : Option Entries :=
  (w.present d r names).mapM fun name =>
    (w.projectedValue? nested (w.fieldUnder s name) (w.found d r name)).map (Prod.mk name)

/-- The projection of a record, down to a depth of nested records. -/
def projected? (uiOnly : Bool) : Nat → Nat → Value → Option Value
  | 0, _, _ => none
  | depth + 1, s, r =>
      if r.isRecordLike then
        (w.projectedEntries? d (projected? uiOnly depth) s r (w.listed d uiOnly s)).map .freshDict
      else some .null

end Projected

/-! ## Runs of projections -/

/-- The outcome of a projection: without a result it was nested too deeply. -/
def outcome {α : Type} : Option α → Except Fault α
  | some x => .ok x
  | none => .error .tooDeep

theorem outcome_eq_ok {α : Type} {result : Option α} {x : α} :
    outcome result = .ok x ↔ result = some x := by
  cases result with
  | none => exact ⟨nofun, nofun⟩
  | some y =>
    exact ⟨fun h => congrArg some (Except.ok.inj h), fun h => congrArg _ (Option.some.inj h)⟩

/-- After an action with the outcome of a projection, a sequence goes on if there is a result. -/
theorem exec_bind_outcome {α β : Type} {a : Action α} {result : Option α} {w w' : World}
    (run : exec a w = (outcome result, w')) (f : α → Action β) :
    exec (a >>= f) w = result.elim (.error .tooDeep, w') fun x => exec (f x) w' := by
  cases result with
  | none => exact exec_bind_error run f
  | some x => exact exec_bind_ok run f

/-- A list is mapped as its items are, where each step leads back to worlds of the same kind. -/
theorem exec_mapM_outcome {α β : Type} {S : World → Prop} {f : α → Action β} {g : α → Option β}
    (items : List α) (step : ∀ x ∈ items, ∀ w, S w →
      ∃ w', exec (f x) w = (outcome (g x), w') ∧ S w') :
    ∀ w, S w → ∃ w', exec (items.mapM f) w = (outcome (items.mapM g), w') ∧ S w' := by
  induction items with
  | nil => exact fun w h => ⟨w, rfl, h⟩
  | cons x rest ih =>
    intro w h
    have ih := ih fun y there => step y (List.mem_cons_of_mem x there)
    obtain ⟨w₁, run, h₁⟩ := step x List.mem_cons_self w h
    rw [List.mapM_cons, List.mapM_cons, exec_bind_outcome run]
    cases g x with
    | none => exact ⟨w₁, rfl, h₁⟩
    | some y =>
      obtain ⟨w₂, run', h₂⟩ := ih w₁ h₁
      refine ⟨w₂, ?_, h₂⟩
      rw [Option.elim_some, exec_bind_outcome run']
      cases rest.mapM g <;> rfl

section Run

variable {d : Dispatch} {w : World} {P : Value → Prop}

theorem QuietSet.exec_lookupKey (quiet : w.QuietSet d P) {r : Value} (h : P r)
    (like : r.isRecordLike = true) {s : Nat} {name : Value} (there : name ∈ w.declared s)
    {w' : World} (relisted : w.Relisted w') :
    P (w.found d r name) ∧ exec (lookupKey d r name) w' = (.ok (w.found d r name), w') := by
  obtain ⟨x, member, still⟩ := quiet.read r h like s name there
  have here : w.found d r name = x := by
    rw [found, still w (.refl w)]
  rw [here]
  exact ⟨member, still w' relisted⟩

/-- What a field holds is told without effect. -/
theorem SameLists.exec_heldType {w' : World} (same : SameLists d w w') (f : Nat) :
    exec (heldType d (.field f)) w' = (.ok (w.field f).type.toValue, w') := by
  show (Except.ok (w'.fieldType f), w') = _
  rw [same.sound.plain.fieldType, same.relisted.field]

/-- Whether a field holds a list is told without effect. -/
theorem SameLists.exec_holdsArray {w' : World} (same : SameLists d w w') (f : Nat) :
    exec (holdsArray d (.field f)) w' = (.ok (w.field f).isArray, w') := by
  show exec (fieldIsArray d f) w' = _
  unfold fieldIsArray
  rw [exec_bind_ok (exec_get w'), same.relisted.field]
  have stored := same.sound.plain.fields f
  rw [same.relisted.field] at stored
  simp only [stored, Table.get?_nil]
  rfl

variable {nested : Nat → Value → Action Value} {nested? : Nat → Value → Option Value}

/-- The value of a field is projected as nested records are. -/
theorem SameLists.exec_projectValue (quiet : w.QuietSet d P)
    (step : ∀ s v, P v → ∀ w', SameLists d w w' →
      ∃ w'', exec (nested s v) w' = (outcome (nested? s v), w'') ∧ SameLists d w w'')
    {w' : World} (same : SameLists d w w') (f : Nat) {v : Value} (h : P v) :
    ∃ w'', exec (projectValue d nested (.field f) v) w'
        = (outcome (w.projectedValue? nested? f v), w'') ∧ SameLists d w w'' := by
  unfold projectValue projectedValue?
  rw [exec_bind_ok (same.exec_heldType f)]
  cases (w.field f).type with
  | type t => exact ⟨w', rfl, same⟩
  | schema inner =>
    simp only [FieldType.toValue]
    rw [exec_bind_ok (same.exec_holdsArray f)]
    cases (w.field f).isArray with
    | false => exact step inner v h w' same
    | true =>
      cases items : v.sequence? with
      | none => exact step inner v h w' same
      | some items' =>
        obtain ⟨w'', run, same''⟩ := exec_mapM_outcome items'
          (fun i there => step inner i (quiet.items v items' h items i there)) w' same
        refine ⟨w'', ?_, same''⟩
        dsimp only
        rw [exec_bind_outcome run]
        cases items'.mapM (nested? inner) <;> rfl

theorem projectedEntries?_cons (d : Dispatch) (w : World) (nested? : Nat → Value → Option Value)
    (s : Nat) (r n : Value) (rest : List Value) :
    w.projectedEntries? d nested? s r (n :: rest)
      = if (w.found d r n).isMissing then w.projectedEntries? d nested? s r rest
        else (w.projectedValue? nested? (w.fieldUnder s n) (w.found d r n)).bind fun y =>
          (w.projectedEntries? d nested? s r rest).map ((n, y) :: ·) := by
  unfold projectedEntries? present
  rw [List.filter_cons]
  cases (w.found d r n).isMissing with
  | true => rfl
  | false =>
    simp only [Bool.not_false, if_true, Bool.false_eq_true, if_false, List.mapM_cons]
    cases w.projectedValue? nested? (w.fieldUnder s n) (w.found d r n) with
    | none => rfl
    | some y =>
      simp only [Option.map_some, Option.bind_eq_bind, Option.bind_some]
      cases (List.filter (fun name => !(w.found d r name).isMissing) rest).mapM fun name =>
        (w.projectedValue? nested? (w.fieldUnder s name) (w.found d r name)).map (Prod.mk name)
      <;> rfl

/-- The values of a record are projected name by name, by induction on the names; what was projected
before stays in front. -/
theorem SameLists.exec_projectNames (sound : w.SoundSchemas) (quiet : w.QuietSet d P)
    (step : ∀ s v, P v → ∀ w', SameLists d w w' →
      ∃ w'', exec (nested s v) w' = (outcome (nested? s v), w'') ∧ SameLists d w w'')
    {r : Value} (h : P r) (like : r.isRecordLike = true) (s : Nat) (names : List Value)
    (declared : ∀ n ∈ names, n ∈ w.declared s) (distinct : names.Nodup) :
    ∀ (before : Entries) (w' : World), (∀ n ∈ names, Table.get? before n = none) →
      SameLists d w w' →
      ∃ w'', exec (projectNames d nested s r names before) w'
        = (outcome ((w.projectedEntries? d nested? s r names).map (before ++ ·)), w'') ∧
        SameLists d w w'' := by
  induction names with
  | nil =>
    intro before w' _ same
    refine ⟨w', ?_, same⟩
    show (Except.ok before, w') = (Except.ok (before ++ []), w')
    rw [List.append_nil]
  | cons n rest ih =>
    intro before w' fresh same
    have ih := ih (fun m there => declared m (List.mem_cons_of_mem n there)) distinct.tail
    have there := declared n List.mem_cons_self
    obtain ⟨member, looked⟩ := quiet.exec_lookupKey h like there same.relisted
    rw [projectNames, exec_bind_ok looked, projectedEntries?_cons]
    cases absent : (w.found d r n).isMissing with
    | true =>
      simp only [if_true]
      exact ih before w' (fun m there => fresh m (List.mem_cons_of_mem n there)) same
    | false =>
      obtain ⟨w₁, projected, same₁⟩ := same.exec_projectValue quiet step (w.fieldUnder s n) member
      simp only [Bool.false_eq_true, if_false]
      rw [exec_bind_ok (same.exec_findField there), exec_bind_outcome projected]
      cases w.projectedValue? nested? (w.fieldUnder s n) (w.found d r n) with
      | none => exact ⟨w₁, rfl, same₁⟩
      | some y =>
        rw [Option.elim_some, Table.insert_of_get?_eq_none (fresh n List.mem_cons_self)]
        have texts : AllTexts (n :: rest) := fun m h => sound.declared_texts s m (declared m h)
        have fresh₁ := texts.get?_append_none distinct y fresh
        obtain ⟨w₂, run, same₂⟩ := ih (before ++ [(n, y)]) w₁ fresh₁ same₁
        refine ⟨w₂, ?_, same₂⟩
        rw [run]
        cases w.projectedEntries? d nested? s r rest with
        | none => rfl
        | some entries => simp [outcome]

/-- The engine projects a record as it is projected, down to the same depth. By induction on the
depth; nested records are read without effect like the record itself. -/
theorem SameLists.exec_sanitizeWithin (sound : w.SoundSchemas) (quiet : w.QuietSet d P)
    {uiOnly : Bool} (flags : uiOnly = true → w.FlagsQuiet d) (depth : Nat) :
    ∀ (s : Nat) (r : Value), P r → ∀ w', SameLists d w w' →
      ∃ w'', exec (sanitizeWithin d (.bool uiOnly) depth s r) w'
        = (outcome (w.projected? d uiOnly depth s r), w'') ∧ SameLists d w w'' := by
  induction depth with
  | zero => exact fun s r _ w' same => ⟨w', rfl, same⟩
  | succ depth ih =>
    intro s r h w' same
    rw [sanitizeWithin, projected?]
    cases like : r.isRecordLike with
    | false => exact ⟨w', rfl, same⟩
    | true =>
      obtain ⟨w₁, listed, same₁⟩ := same.exec_fieldNames sound flags s
      have step : ∀ s v, P v → ∀ w', SameLists d w w' → ∃ w'',
          exec (orStandIn d (.schema s) "sanitize" [v, .bool uiOnly] pure
            (sanitizeWithin d (.bool uiOnly) depth s v)) w'
          = (outcome (w.projected? d uiOnly depth s v), w'') ∧ SameLists d w w'' := by
        intro s v hv w' same
        rw [same.sound.plain.exec_orStandIn]
        exact ih s v hv w' same
      have sub := sound.listed_sublist (d := d) uiOnly s
      obtain ⟨w₂, run, same₂⟩ := SameLists.exec_projectNames sound quiet step h like s
        (w.listed d uiOnly s) (fun n there => sub.subset there) (sub.nodup (sound.declared_nodup s))
        [] w₁ (fun _ _ => rfl) same₁
      refine ⟨w₂, ?_, same₂⟩
      simp only [Bool.not_true, Bool.false_eq_true, if_false, if_true]
      rw [exec_bind_ok listed, exec_bind_outcome run]
      cases w.projectedEntries? d (w.projected? d uiOnly depth) s r (w.listed d uiOnly s) <;> rfl

/-- The engine projects a record, down to a depth that its containers do not reach. -/
theorem SameLists.exec_sanitize {w' : World} (same : SameLists d w w') (sound : w.SoundSchemas)
    (quiet : w.QuietSet d P) {uiOnly : Bool} (flags : uiOnly = true → w.FlagsQuiet d) (s : Nat)
    {r : Value} (h : P r) :
    ∃ w'', exec (sanitize d s r (.bool uiOnly)) w'
        = (outcome (w.projected? d uiOnly
            (w.schemas.size + w.types.size + r.depth + objectDepth) s r), w'') ∧
      SameLists d w w'' := by
  obtain ⟨w'', run, same'⟩ := SameLists.exec_sanitizeWithin sound quiet flags
    (w.schemas.size + w.types.size + r.depth + objectDepth) s r h w' same
  refine ⟨w'', ?_, same'⟩
  unfold sanitize
  rw [exec_bind_ok (exec_get w'), same.relisted.size, same.relisted.types, run]

end Run

/-! ## Projections of projections -/

section Compose

/-- Two maps that give the same for every item give the same list; the second one may depend on a
parameter. -/
theorem exists_mapM {α β κ : Type} {f : α → Option β} {g : κ → α → Option β} {wanted : κ → Prop}
    (items : List α)
    (step : ∀ x ∈ items, ∃ y, f x = some y ∧ ∀ k, wanted k → g k x = some y) :
    ∃ ys, items.mapM f = some ys ∧ ∀ k, wanted k → items.mapM (g k) = some ys := by
  induction items with
  | nil => exact ⟨[], rfl, fun _ _ => rfl⟩
  | cons x rest ih =>
    obtain ⟨y, first, first'⟩ := step x List.mem_cons_self
    obtain ⟨ys, mapped, mapped'⟩ := ih fun z there => step z (List.mem_cons_of_mem x there)
    refine ⟨y :: ys, ?_, fun k h => ?_⟩
    · rw [List.mapM_cons, first, mapped]
      rfl
    · rw [List.mapM_cons, first' k h, mapped' k h]
      rfl

/-- A list is mapped if its first item and the others are. -/
theorem mapM_cons_eq_some {α β : Type} {f : α → Option β} {x : α} {rest : List α} {zs : List β} :
    (x :: rest).mapM f = some zs ↔ ∃ y ys, f x = some y ∧ rest.mapM f = some ys ∧ y :: ys = zs := by
  rw [List.mapM_cons]
  cases f x <;> cases rest.mapM f <;> simp

/-- An item of a mapped list is what some item was mapped to. -/
theorem exists_of_mem_mapM {α β : Type} {f : α → Option β} {items : List α} {ys : List β} {y : β}
    (mapped : items.mapM f = some ys) (there : y ∈ ys) : ∃ x ∈ items, f x = some y := by
  induction items generalizing ys with
  | nil =>
    obtain rfl : [] = ys := Option.some.inj mapped
    cases there
  | cons x rest ih =>
    obtain ⟨z, zs, first, others, rfl⟩ := mapM_cons_eq_some.mp mapped
    rcases List.mem_cons.mp there with rfl | there
    · exact ⟨x, List.mem_cons_self, first⟩
    · obtain ⟨i, member, found⟩ := ih others there
      exact ⟨i, List.mem_cons_of_mem x member, found⟩

/-- What was projected under distinct names is found under them, and nothing under other names. -/
theorem get?_of_mapM {g : Value → Option Value} (names : List Value) (texts : AllTexts names) :
    ∀ {entries : Entries}, names.Nodup →
      names.mapM (fun n => (g n).map (Prod.mk n)) = some entries →
      (∀ n ∈ names, ∃ y, g n = some y ∧ Table.get? entries n = some y) ∧
      ∀ m, .str m ∉ names → Table.get? entries (.str m) = none := by
  induction names with
  | nil =>
    intro entries _ mapped
    obtain rfl : [] = entries := Option.some.inj mapped
    exact ⟨fun n h => absurd h List.not_mem_nil, fun _ _ => rfl⟩
  | cons n rest ih =>
    intro entries distinct mapped
    obtain ⟨k, rfl⟩ := texts n List.mem_cons_self
    obtain ⟨z, ys, first, others, rfl⟩ := mapM_cons_eq_some.mp mapped
    obtain ⟨y, given, rfl⟩ := Option.map_eq_some_iff.mp first
    obtain ⟨inside, outside⟩ := ih (fun m h => texts m (List.mem_cons_of_mem _ h))
      (List.nodup_cons.mp distinct).2 others
    constructor
    · intro m there
      rcases List.mem_cons.mp there with rfl | there
      · exact ⟨y, given, by simp⟩
      · obtain ⟨j, rfl⟩ := texts m (List.mem_cons_of_mem _ there)
        have differs : k ≠ j := by
          rintro rfl
          exact (List.nodup_cons.mp distinct).1 there
        obtain ⟨z, given', found⟩ := inside _ there
        exact ⟨z, given', by simpa [differs] using found⟩
    · intro m absent
      rw [List.mem_cons, not_or] at absent
      have differs : k ≠ m := by
        rintro rfl
        exact absent.1 rfl
      simpa [differs] using outside m absent.2

/-- A value of a mapping is nested less deeply than the mapping. -/
theorem depth_le_of_get? {entries : Entries} {k v : Value} (h : Table.get? entries k = some v) :
    v.depth ≤ depthEntries entries := by
  induction entries with
  | nil => cases h
  | cons e rest ih =>
    obtain ⟨k', v'⟩ := e
    rw [Table.get?_cons] at h
    rw [depthEntries, depthEntry]
    split at h
    · rw [← Option.some.inj h]
      exact Nat.le_max_left _ _
    · exact Nat.le_trans (ih h) (Nat.le_max_right _ _)

/-- A filter that keeps just what is in a part of a list keeps the part. -/
theorem filter_eq_of_sublist {α : Type} {test : α → Bool} {part whole : List α}
    (sub : part.Sublist whole) (distinct : whole.Nodup)
    (keeps : ∀ x ∈ whole, test x = true ↔ x ∈ part) : whole.filter test = part := by
  induction sub with
  | slnil => rfl
  | cons x sub ih =>
    have fresh := (List.nodup_cons.mp distinct).1
    have dropped : ¬ test x = true := fun passes =>
      fresh (sub.subset ((keeps x List.mem_cons_self).mp passes))
    rw [List.filter_cons_of_neg dropped]
    exact ih distinct.tail fun y there => keeps y (List.mem_cons_of_mem x there)
  | cons_cons x sub ih =>
    have fresh := (List.nodup_cons.mp distinct).1
    rw [List.filter_cons_of_pos ((keeps x List.mem_cons_self).mpr List.mem_cons_self)]
    rw [ih distinct.tail]
    intro y there
    rw [keeps y (List.mem_cons_of_mem x there), List.mem_cons]
    refine ⟨fun h => h.resolve_left ?_, .inr⟩
    rintro rfl
    exact fresh there

variable {d : Dispatch} {w : World}

/-- What a mapping has under a text is found by a look-up. -/
theorem found_freshDict (entries : Entries) (m : String) :
    w.found d (.freshDict entries) (.str m) = (Table.get? entries (.str m)).getD .missing := rfl

/-- What is like a record is projected to a mapping of its projected values, and anything else to
nothing. -/
theorem projected?_succ_eq_some {uiOnly : Bool} {k s : Nat} {r x : Value} :
    w.projected? d uiOnly (k + 1) s r = some x ↔
      (r.isRecordLike = false ∧ x = .null) ∨ (r.isRecordLike = true ∧ ∃ entries,
        w.projectedEntries? d (w.projected? d uiOnly k) s r (w.listed d uiOnly s) = some entries
          ∧ x = .freshDict entries) := by
  rw [projected?]
  cases r.isRecordLike with
  | false => simp [eq_comm]
  | true => simp [Option.map_eq_some_iff, eq_comm (a := x)]

/-- Whatever has a projection was projected down to a positive depth. -/
theorem exists_of_projected? {uiOnly : Bool} {depth s : Nat} {r x : Value}
    (h : w.projected? d uiOnly depth s r = some x) : ∃ k,
      (r.isRecordLike = false ∧ x = .null) ∨ (r.isRecordLike = true ∧ ∃ entries,
        w.projectedEntries? d (w.projected? d uiOnly k) s r (w.listed d uiOnly s) = some entries
          ∧ x = .freshDict entries) := by
  cases depth with
  | zero => cases h
  | succ k => exact ⟨k, projected?_succ_eq_some.mp h⟩

/-- A projection is a mapping or nothing. -/
theorem projected?_eq {uiOnly : Bool} {depth s : Nat} {r x : Value}
    (h : w.projected? d uiOnly depth s r = some x) :
    x = .null ∨ ∃ entries, x = .freshDict entries := by
  obtain ⟨k, ⟨-, rfl⟩ | ⟨-, entries, -, rfl⟩⟩ := exists_of_projected? h
  · exact .inl rfl
  · exact .inr ⟨entries, rfl⟩

/-- An entry of a projection is a projected value that the record has under its name. -/
theorem exists_of_mem_projectedEntries? {nested : Nat → Value → Option Value} {s : Nat}
    {r n y : Value} {names : List Value} {entries : Entries}
    (projected : w.projectedEntries? d nested s r names = some entries)
    (entry : (n, y) ∈ entries) :
    n ∈ names ∧ w.projectedValue? nested (w.fieldUnder s n) (w.found d r n) = some y := by
  obtain ⟨m, shown, mapped⟩ := exists_of_mem_mapM projected entry
  obtain ⟨z, value, same⟩ := Option.map_eq_some_iff.mp mapped
  obtain ⟨rfl, rfl⟩ := Prod.mk.inj same
  exact ⟨List.mem_of_mem_filter shown, value⟩

theorem isMissing_of_projectedValue? {uiOnly : Bool} {depth f : Nat} {v x : Value}
    (given : v.isMissing = false)
    (h : w.projectedValue? (w.projected? d uiOnly depth) f v = some x) : x.isMissing = false := by
  have nested : ∀ {s : Nat}, w.projected? d uiOnly depth s v = some x → x.isMissing = false := by
    intro s h
    rcases projected?_eq h with rfl | ⟨entries, rfl⟩ <;> rfl
  unfold projectedValue? at h
  split at h
  · rw [← Option.some.inj h]
    exact given
  · split at h
    · obtain ⟨ys, -, rfl⟩ := Option.map_eq_some_iff.mp h
      rfl
    · exact nested h

/-- The list for both flags is a part of the list for the second one. -/
theorem SoundSchemas.listed_or_sublist (sound : w.SoundSchemas) (first second : Bool) (s : Nat) :
    (w.listed d (first || second) s).Sublist (w.listed d second s) := by
  cases second with
  | false => exact sound.listed_sublist _ s
  | true =>
    rw [Bool.or_true]

/-- A name that the second flag lists is listed for the first one just if it is for both. -/
theorem SoundSchemas.mem_listed_or (sound : w.SoundSchemas) (first second : Bool) {s : Nat}
    {n : Value} (there : n ∈ w.listed d second s) :
    n ∈ w.listed d first s ↔ n ∈ w.listed d (first || second) s := by
  cases first with
  | true => rfl
  | false => exact ⟨fun _ => there, fun _ => (sound.listed_sublist second s).subset there⟩

variable {first second : Bool}

/-- Records are projected twice as they are once with both flags, one by one; those of the first
projection are nested less deeply than their list. -/
theorem mapM_projected?_compose {depth inner : Nat}
    (nested : ∀ r x : Value, w.projected? d first depth inner r = some x →
      ∃ y, w.projected? d (first || second) depth inner r = some y ∧
        ∀ k, x.depth < k → w.projected? d second k inner x = some y)
    (records : List Value) : ∀ projected : List Value,
      records.mapM (w.projected? d first depth inner) = some projected →
      ∃ ys, records.mapM (w.projected? d (first || second) depth inner) = some ys ∧
        ∀ k, depthItems projected < k →
          projected.mapM (w.projected? d second k inner) = some ys := by
  induction records with
  | nil =>
    intro projected mapped
    obtain rfl : [] = projected := Option.some.inj mapped
    exact ⟨[], rfl, fun _ _ => rfl⟩
  | cons r rest ih =>
    intro projected mapped
    obtain ⟨x, xs, one, others, rfl⟩ := mapM_cons_eq_some.mp mapped
    obtain ⟨y, once, twice⟩ := nested r x one
    obtain ⟨ys, once', twice'⟩ := ih xs others
    refine ⟨y :: ys, ?_, fun k deep => ?_⟩
    · exact mapM_cons_eq_some.mpr ⟨y, ys, once, once', rfl⟩
    · rw [depthItems] at deep
      exact mapM_cons_eq_some.mpr ⟨y, ys, twice k (by omega), twice' k (by omega), rfl⟩

/-- The value of a field is projected twice as it is once with both flags, if nested records are. -/
theorem projectedValue?_compose {depth : Nat}
    (nested : ∀ (s : Nat) (r x : Value), w.projected? d first depth s r = some x →
      ∃ y, w.projected? d (first || second) depth s r = some y ∧
        ∀ k, x.depth < k → w.projected? d second k s x = some y)
    {f : Nat} {v x : Value} (h : w.projectedValue? (w.projected? d first depth) f v = some x) :
    ∃ y, w.projectedValue? (w.projected? d (first || second) depth) f v = some y ∧
      ∀ k, x.depth < k → w.projectedValue? (w.projected? d second k) f x = some y := by
  unfold projectedValue? at h ⊢
  cases held : (w.field f).type with
  | type t =>
    rw [held] at h
    obtain rfl := Option.some.inj h
    exact ⟨v, rfl, fun _ _ => rfl⟩
  | schema inner =>
    rw [held] at h
    dsimp only at h ⊢
    -- a nested record is projected to a mapping or to nothing, neither of which is a sequence
    have single : ∀ array : Bool, w.projected? d first depth inner v = some x →
        ∃ y, w.projected? d (first || second) depth inner v = some y ∧
          ∀ k, x.depth < k → (match array, x.sequence? with
            | true, some items => (items.mapM (w.projected? d second k inner)).map .fresh
            | _, _ => w.projected? d second k inner x) = some y := by
      intro array h
      obtain ⟨y, once, twice⟩ := nested inner v x h
      refine ⟨y, once, fun k deep => ?_⟩
      rw [← twice k deep]
      rcases projected?_eq h with rfl | ⟨entries, rfl⟩ <;> cases array <;> rfl
    cases array : (w.field f).isArray with
    | false =>
      rw [array] at h
      exact single false h
    | true =>
      rw [array] at h
      cases items : v.sequence? with
      | none =>
        rw [items] at h
        exact single true h
      | some given =>
        rw [items] at h
        obtain ⟨projected, mapped, rfl⟩ := Option.map_eq_some_iff.mp h
        obtain ⟨ys, once, twice⟩ := mapM_projected?_compose (nested inner) given projected mapped
        refine ⟨.fresh ys, ?_, fun k deep => ?_⟩
        · dsimp only
          rw [once]
          rfl
        · have less : depthItems projected < k := by
            rw [Value.fresh, Value.depth] at deep
            omega
          rw [Value.sequence?_fresh]
          dsimp only
          rw [twice k less]
          rfl

/-- What a projection has under the names that it was made for, and that it has nothing else. -/
theorem SoundSchemas.get?_of_projectedEntries? (sound : w.SoundSchemas)
    {nested : Nat → Value → Option Value} {uiOnly : Bool} {s : Nat} {r : Value} {entries : Entries}
    (projected : w.projectedEntries? d nested s r (w.listed d uiOnly s) = some entries) :
    (∀ n ∈ w.present d r (w.listed d uiOnly s), ∃ y,
      w.projectedValue? nested (w.fieldUnder s n) (w.found d r n) = some y ∧
      Table.get? entries n = some y) ∧
    ∀ m, .str m ∉ w.present d r (w.listed d uiOnly s) → Table.get? entries (.str m) = none := by
  have declared := sound.listed_sublist (d := d) uiOnly s
  refine get?_of_mapM _ (fun n there => ?_) ?_ projected
  · exact sound.declared_texts s n (declared.subset (List.mem_of_mem_filter there))
  · exact (declared.nodup (sound.declared_nodup s)).filter _

/-- The names of the second list that are present in a projection are those of both lists that are
present in its record. -/
theorem SoundSchemas.present_of_projected (sound : w.SoundSchemas) {depth s t : Nat} {r : Value}
    {entries : Entries}
    (both : ∀ n ∈ w.listed d second t,
      n ∈ w.listed d first s ↔ n ∈ w.listed d (first || second) t)
    (projected : w.projectedEntries? d (w.projected? d first depth) s r
      (w.listed d first s) = some entries) :
    w.present d (.freshDict entries) (w.listed d second t)
      = w.present d r (w.listed d (first || second) t) := by
  have declared := sound.listed_sublist (d := d) second t
  obtain ⟨inside, outside⟩ := sound.get?_of_projectedEntries? projected
  refine filter_eq_of_sublist ?_ (declared.nodup (sound.declared_nodup t)) fun n there => ?_
  · exact List.filter_sublist.trans (sound.listed_or_sublist first second t)
  · obtain ⟨m, rfl⟩ := sound.declared_texts t n (declared.subset there)
    have same : Value.str m ∈ w.present d r (w.listed d (first || second) t)
        ↔ Value.str m ∈ w.present d r (w.listed d first s) := by
      unfold present
      rw [List.mem_filter, List.mem_filter, both _ there]
    rw [same]
    by_cases known : Value.str m ∈ w.present d r (w.listed d first s)
    · obtain ⟨y, given, found⟩ := inside _ known
      have there' := isMissing_of_projectedValue?
        (by simpa using (List.mem_filter.mp known).2) given
      simpa [found_freshDict, found, there'] using known
    · simpa [found_freshDict, outside m known, Value.isMissing] using known

/-- What a schema projects is projected by a second schema like the record with both flags, where
nested records are and the second schema finds the same fields under the names of both lists. -/
theorem SoundSchemas.projected?_again (sound : w.SoundSchemas) {depth s t : Nat}
    (nested : ∀ (i : Nat) (r x : Value), w.projected? d first depth i r = some x →
      ∃ y, w.projected? d (first || second) depth i r = some y ∧
        ∀ k, x.depth < k → w.projected? d second k i x = some y)
    (both : ∀ n ∈ w.listed d second t,
      n ∈ w.listed d first s ↔ n ∈ w.listed d (first || second) t)
    (under : ∀ n ∈ w.listed d second t, w.fieldUnder s n = w.fieldUnder t n) {r x : Value}
    (h : w.projected? d first (depth + 1) s r = some x) :
    ∃ y, w.projected? d (first || second) (depth + 1) t r = some y ∧
      ∀ k, x.depth < k → w.projected? d second k t x = some y := by
  rcases projected?_succ_eq_some.mp h with ⟨unlike, rfl⟩ | ⟨like, entries, projected, rfl⟩
  · refine ⟨.null, projected?_succ_eq_some.mpr (.inl ⟨unlike, rfl⟩), fun k deep => ?_⟩
    cases k with
    | zero => cases deep
    | succ k => rfl
  · obtain ⟨inside, -⟩ := sound.get?_of_projectedEntries? projected
    -- every value under a name of both lists is projected twice as it is once
    have each : ∀ n ∈ w.present d r (w.listed d (first || second) t), ∃ e : Value × Value,
        (w.projectedValue? (w.projected? d (first || second) depth) (w.fieldUnder t n)
          (w.found d r n)).map (Prod.mk n) = some e ∧
        ∀ k, depthEntries entries < k → (w.projectedValue? (w.projected? d second k)
          (w.fieldUnder t n) (w.found d (.freshDict entries) n)).map (Prod.mk n) = some e := by
      intro n there
      obtain ⟨listed, shown⟩ := List.mem_filter.mp there
      have second' := (sound.listed_or_sublist first second t).subset listed
      have known : n ∈ w.present d r (w.listed d first s) :=
        List.mem_filter.mpr ⟨(both n second').mpr listed, shown⟩
      obtain ⟨x, given, found⟩ := inside n known
      rw [under n second'] at given
      obtain ⟨m, rfl⟩ :=
        sound.declared_texts t n ((sound.listed_sublist second t).subset second')
      obtain ⟨y, once, twice⟩ := projectedValue?_compose nested given
      refine ⟨(.str m, y), by rw [once]; rfl, fun k deep => ?_⟩
      rw [found_freshDict, found, Option.getD_some,
        twice k (Nat.lt_of_le_of_lt (depth_le_of_get? found) deep)]
      rfl
    obtain ⟨ys, once, twice⟩ := exists_mapM _ each
    refine ⟨.freshDict ys, projected?_succ_eq_some.mpr (.inr ⟨like, ys, once, rfl⟩),
      fun k deep => ?_⟩
    cases k with
    | zero => cases deep
    | succ k =>
      rw [Value.freshDict, Value.depth] at deep
      have run := twice k (by omega)
      rw [← sound.present_of_projected both projected] at run
      exact projected?_succ_eq_some.mpr (.inr ⟨rfl, ys, run, rfl⟩)

/-- A projection of a projection is the projection with both flags, in the same order. By induction
on the depth of the first projection; the second one needs no more depth than its record has. -/
theorem projected?_compose (sound : w.SoundSchemas) (depth : Nat) :
    ∀ (s : Nat) (r x : Value), w.projected? d first depth s r = some x →
      ∃ y, w.projected? d (first || second) depth s r = some y ∧
        ∀ k, x.depth < k → w.projected? d second k s x = some y := by
  induction depth with
  | zero =>
    intro s r x h
    cases h
  | succ depth ih =>
    exact fun s r x => sound.projected?_again ih
      (fun n there => sound.mem_listed_or first second there) fun _ _ => rfl

/-- The values of a field that were projected are composed of quiet ones. -/
theorem composed_projectedValue? {P : Value → Prop} {nested : Nat → Value → Option Value}
    (step : ∀ s v x, P v → nested s v = some x → Composed P x)
    (items : ∀ v items, P v → v.sequence? = some items → ∀ i ∈ items, P i) {f : Nat} {v x : Value}
    (h : P v) (projected : w.projectedValue? nested f v = some x) : Composed P x := by
  unfold projectedValue? at projected
  split at projected
  · rw [← Option.some.inj projected]
    exact .given h
  · split at projected
    · next given _ sequence =>
      obtain ⟨ys, mapped, rfl⟩ := Option.map_eq_some_iff.mp projected
      refine .list fun y there => ?_
      obtain ⟨i, there', found⟩ := exists_of_mem_mapM mapped there
      exact step _ i y (items v given h sequence i there') found
    · exact step _ v x h projected

/-- A projection is composed of values that are read without effect. -/
theorem QuietSet.composed_projected? {P : Value → Prop} (quiet : w.QuietSet d P)
    (sound : w.SoundSchemas) {uiOnly : Bool} (depth : Nat) :
    ∀ (s : Nat) (r x : Value), P r → w.projected? d uiOnly depth s r = some x → Composed P x := by
  induction depth with
  | zero => exact fun s r x _ h => nomatch h
  | succ depth ih =>
    intro s r x member h
    rcases projected?_succ_eq_some.mp h with ⟨-, rfl⟩ | ⟨like, entries, projected, rfl⟩
    · exact .null
    · refine .dict fun y there => ?_
      obtain ⟨⟨n, z⟩, entry, rfl⟩ := List.mem_map.mp there
      obtain ⟨listed, value⟩ := exists_of_mem_projectedEntries? projected entry
      have declared := (sound.listed_sublist uiOnly s).subset listed
      exact composed_projectedValue? ih quiet.items
        (quiet.exec_lookupKey member like declared (.refl w)).1 value

end Compose

end World

/-! ## Sessions -/

section Session

variable {call : Provider} {depth : Nat} {w₀ w : World}

end Session

end DataShape
