import DataShape.Proofs.Schema.Agreement

/-! # Projections by founded schemas

Where every nested schema is older than the one that nests it, a projection does not run out of
depth: what it gives is a function of the schema and the record, without a depth.

* `World.projection` — what a record is projected to.
* `SoundSchemas.projected?_of_founded` — every depth that nested schemas do not reach gives it.
* `SoundSchemas.projection_eq` — name by name.
* `SameLists.exec_sanitize_of_founded` — the engine gives the projection. -/

namespace DataShape

/-- A list is mapped where each of its items is. -/
theorem mapM_eq_some_map {α β : Type} {f : α → Option β} {g : α → β} (items : List α)
    (each : ∀ x ∈ items, f x = some (g x)) : items.mapM f = some (items.map g) := by
  induction items with
  | nil => rfl
  | cons x rest ih =>
    rw [List.mapM_cons, each x List.mem_cons_self,
      ih fun y there => each y (List.mem_cons_of_mem x there)]
    rfl

namespace World

section Projection

variable (d : Dispatch) (w : World) (uiOnly : Bool)

/-- What a record is projected to, nothing when it is no record. -/
def projection (s : Nat) (r : Value) : Value := (w.projected? d uiOnly (s + 1) s r).getD .null

/-- What the value of a field is projected to. -/
def projectionValue (f : Nat) (v : Value) : Value :=
  match (w.field f).type with
  | .type _ => v
  | .schema inner =>
      match (w.field f).isArray, v.sequence? with
      | true, some items => .fresh (items.map (w.projection d uiOnly inner))
      | _, _ => w.projection d uiOnly inner v

/-- The projections of the values that a record has under the names that a schema lists. -/
def projectionEntries (s : Nat) (r : Value) : Entries :=
  (w.present d r (w.listed d uiOnly s)).map fun n =>
    (n, w.projectionValue d uiOnly (w.fieldUnder s n) (w.found d r n))

end Projection

variable {d : Dispatch} {w : World} {uiOnly : Bool}

/-- A value is projected as nested records are. -/
theorem projectedValue?_eq_some {nested : Nat → Value → Option Value} {f : Nat}
    (each : ∀ t, (w.field f).type = .schema t → ∀ v,
      nested t v = some (w.projection d uiOnly t v)) (v : Value) :
    w.projectedValue? nested f v = some (w.projectionValue d uiOnly f v) := by
  unfold projectedValue? projectionValue
  cases held : (w.field f).type with
  | type t => rfl
  | schema inner =>
    have each := each inner held
    dsimp only
    cases (w.field f).isArray with
    | false => exact each v
    | true =>
      cases v.sequence? with
      | none => exact each v
      | some items =>
        dsimp only
        rw [mapM_eq_some_map items fun i _ => each i]
        rfl

namespace SoundSchemas

variable (sound : w.SoundSchemas) (founded : w.Founded)

include sound founded

/-- Down to a depth that nested schemas do not reach a record is projected name by name. By
induction on the age of the schema: those that it nests are older. -/
theorem projected?_of_founded (s : Nat) : ∀ depth, s < depth → ∀ r,
    w.projected? d uiOnly depth s r = some (w.projection d uiOnly s r) ∧
      w.projection d uiOnly s r
        = if r.isRecordLike then .freshDict (w.projectionEntries d uiOnly s r) else .null := by
  induction s using Nat.strongRecOn with
  | _ s ih =>
    have step : ∀ depth, s < depth → ∀ r, w.projected? d uiOnly depth s r
        = some (if r.isRecordLike then .freshDict (w.projectionEntries d uiOnly s r)
            else .null) := by
      intro depth deep r
      obtain ⟨k, rfl⟩ : ∃ k, depth = k + 1 := ⟨depth - 1, by omega⟩
      rw [projected?]
      cases r.isRecordLike with
      | false => rfl
      | true =>
        have mapped : w.projectedEntries? d (w.projected? d uiOnly k) s r (w.listed d uiOnly s)
            = some (w.projectionEntries d uiOnly s r) := by
          refine mapM_eq_some_map _ fun n there => ?_
          have declared := (sound.listed_sublist uiOnly s).subset (List.mem_of_mem_filter there)
          rw [projectedValue?_eq_some fun t held v =>
            (ih t (founded.nested sound declared held) k
              (Nat.lt_of_lt_of_le (founded.nested sound declared held) (Nat.le_of_lt_succ deep))
              v).1]
          rfl
        simp only [if_true]
        rw [mapped]
        rfl
    intro depth deep r
    have here : w.projection d uiOnly s r
        = if r.isRecordLike then .freshDict (w.projectionEntries d uiOnly s r) else .null := by
      rw [projection, step (s + 1) (Nat.lt_succ_self s) r, Option.getD_some]
    exact ⟨by rw [step depth deep r, here], here⟩

theorem projection_eq (s : Nat) (r : Value) : w.projection d uiOnly s r
    = if r.isRecordLike then .freshDict (w.projectionEntries d uiOnly s r) else .null :=
  (sound.projected?_of_founded founded s (s + 1) (Nat.lt_succ_self s) r).2

end SoundSchemas

/-- The engine projects a record as it is projected. -/
theorem SameLists.exec_sanitize_of_founded {P : Value → Prop} {w' : World}
    (same : SameLists d w w') (sound : w.SoundSchemas) (founded : w.Founded)
    (quiet : w.QuietSet d P) (flags : uiOnly = true → w.FlagsQuiet d) {s : Nat}
    (inside : s < w.schemas.size) {r : Value} (h : P r) :
    ∃ w'', exec (sanitize d s r (.bool uiOnly)) w' = (.ok (w.projection d uiOnly s r), w'') ∧
      SameLists d w w'' := by
  obtain ⟨w'', run, same'⟩ := same.exec_sanitize sound quiet flags s h
  rw [(sound.projected?_of_founded founded s _ (by omega) r).1] at run
  exact ⟨w'', run, same'⟩

end World

end DataShape
