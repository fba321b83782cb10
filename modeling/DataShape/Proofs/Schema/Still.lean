import DataShape.Proofs.Idle
import DataShape.Proofs.Schema.Founded

/-! # What stays the same while a session converts

Conversions write to the log, give out identities and keep lists. Flags and records that do not look
at any of that are read in the same way before and after them, so schemas list the same and records
are projected alike.

* `World.FlagsStill`, `World.StillSet` — flags and values that are read in the same way meanwhile.
* `World.Companion` — worlds that resemble a given one, and in which schemas list the same.
* `World.vicinity_companion`, `Companion.ofSameLists` — neither wording nor projections leave them.
* `Companion.projection` — records are projected alike in all of them. -/

namespace DataShape

namespace World

section Still

variable (d : Dispatch) (w : World)

/-- Flags of fields are read without effect, in all worlds that resemble a world. -/
def FlagsStill : Prop :=
  ∀ f, ∃ b, ∀ u, w.Resembles u → exec (uiExclude d f) u = (.ok b, u)

/-- In all worlds that resemble a world the values of a set are read without effect, and the same is
found in them. -/
structure StillSet (P : Value → Prop) : Prop where
  quiet : ∀ u, Readable w.Resembles u → u.QuietSet d P
  found : ∀ u, Readable w.Resembles u → ∀ v, P v → v.isRecordLike = true →
    ∀ s, ∀ n ∈ w.declared s, u.found d v n = w.found d v n

end Still

variable {d : Dispatch} {w u : World}

namespace Resembles

theorem founded (h : w.Resembles u) (founded : w.Founded) : u.Founded := by
  intro s e there f t named held
  rw [h.schemaFields] at there
  rw [h.field] at held
  exact founded s e there f t named held

end Resembles

/-! ## Flags -/

namespace FlagsStill

variable (still : w.FlagsStill d) (h : w.Resembles u)

include still h

theorem flagsQuiet : u.FlagsQuiet d := by
  intro f
  obtain ⟨b, flag⟩ := still f
  exact ⟨b, fun u' next => flag u' (h.relisted next)⟩

theorem shows (s : Nat) : u.shows d s = w.shows d s := by
  have excludes : ∀ f, u.excludes d f = w.excludes d f := by
    intro f
    obtain ⟨b, flag⟩ := still f
    rw [excludes, excludes, flag u h, flag w (.refl w)]
  funext n
  rw [World.shows, World.shows, h.fieldNamed?]
  cases w.fieldNamed? s n with
  | none => rfl
  | some v => cases v <;> first | rfl | exact congrArg not (excludes _)

/-- What a schema lists depends on the list that it keeps only. -/
theorem listed (s : Nat) {u' : World} (h' : w.Resembles u')
    (kept : (u'.schema s).fieldLists.get? shownOnly = (u.schema s).fieldLists.get? shownOnly) :
    u'.listed d true s = u.listed d true s := by
  rw [World.listed, World.listed, if_pos rfl, if_pos rfl, kept, still.shows h, still.shows h',
    h.declared, h'.declared]

end FlagsStill

/-! ## Worlds that list the same -/

/-- A world resembles a given one, and every schema lists the same in both. -/
structure Companion (d : Dispatch) (w : World) (uiOnly : Bool) (u : World) : Prop where
  sound : u.SoundSchemas
  resembles : w.Resembles u
  listed : ∀ s, u.listed d uiOnly s = w.listed d uiOnly s

variable {uiOnly : Bool} (flags : uiOnly = true → w.FlagsStill d)

theorem Companion.refl (sound : w.SoundSchemas) : w.Companion d uiOnly w :=
  ⟨sound, .refl w, fun _ => rfl⟩

theorem Companion.readable (h : w.Companion d uiOnly u) : Readable w.Resembles u :=
  ⟨h.sound, h.resembles⟩

include flags

/-- A world that resembles a companion is one if it keeps the same lists for user interfaces. -/
theorem Companion.of_kept (h : w.Companion d uiOnly u) {u' : World} (sound : u'.SoundSchemas)
    (resembles : w.Resembles u')
    (kept : ∀ s, (u'.schema s).fieldLists.get? shownOnly = (u.schema s).fieldLists.get? shownOnly) :
    w.Companion d uiOnly u' := by
  refine ⟨sound, resembles, fun s => ?_⟩
  rw [← h.listed]
  cases uiOnly with
  | false => exact (resembles.declared s).trans (h.resembles.declared s).symm
  | true => exact (flags rfl).listed h.resembles s resembles (kept s)

/-- To keep what is listed does not leave them either. -/
theorem Companion.ofSameLists (h : w.Companion d uiOnly u) {u' : World}
    (same : SameLists d u u') : w.Companion d uiOnly u' := by
  have resembles := h.resembles.relisted same.relisted
  refine ⟨same.sound, resembles, fun s => ?_⟩
  rw [← h.listed]
  cases uiOnly with
  | false => exact (resembles.declared s).trans (h.resembles.declared s).symm
  | true =>
    cases kept : (u'.schema s).fieldLists.get? shownOnly with
    | none =>
      rw [same.listed_of_missed kept, World.listed, if_pos rfl, kept, Option.getD_none,
        (flags rfl).shows resembles, (flags rfl).shows h.resembles, resembles.declared,
        h.resembles.declared]
    | some names =>
      rw [← same.shown s names kept, World.listed, if_pos rfl, kept, Option.getD_some]

omit flags

/-! ## Projections in companions -/

variable {P : Value → Prop}

/-- Values that are read in the same way everywhere are projected alike, by every schema. By
induction on the age of the schema. -/
theorem Companion.projection (h : w.Companion d uiOnly u) (sound : w.SoundSchemas)
    (founded : w.Founded) (still : w.StillSet d P) (s : Nat) :
    ∀ r, P r → u.projection d uiOnly s r = w.projection d uiOnly s r := by
  have quiet := still.quiet w ⟨sound, .refl w⟩
  induction s using Nat.strongRecOn with
  | _ s ih =>
    intro r member
    rw [h.sound.projection_eq (h.resembles.founded founded), sound.projection_eq founded]
    cases like : r.isRecordLike with
    | false => rfl
    | true =>
      have value : ∀ f v, P v → (∀ t, (w.field f).type = .schema t → t < s) →
          u.projectionValue d uiOnly f v = w.projectionValue d uiOnly f v := by
        intro f v member older
        unfold projectionValue
        rw [h.resembles.field]
        cases held : (w.field f).type with
        | type t => rfl
        | schema inner =>
          have ih := ih inner (older inner held)
          dsimp only
          cases (w.field f).isArray with
          | false => exact ih v member
          | true =>
            cases sequence : v.sequence? with
            | none => exact ih v member
            | some items =>
              exact congrArg Value.fresh (List.map_congr_left fun i there =>
                ih i (quiet.items v items member sequence i there))
      have declared : ∀ n ∈ w.listed d uiOnly s, n ∈ w.declared s := fun n there =>
        (sound.listed_sublist uiOnly s).subset there
      -- Names, fields and values are the same in both worlds, so the entries are.
      have found : ∀ n ∈ w.listed d uiOnly s, u.found d r n = w.found d r n := fun n there =>
        still.found u h.readable r member like s n (declared n there)
      have present : u.present d r (u.listed d uiOnly s) = w.present d r (w.listed d uiOnly s) := by
        rw [h.listed]
        exact List.filter_congr fun n there => by rw [found n there]
      simp only [if_true]
      unfold projectionEntries
      rw [present]
      refine congrArg Value.freshDict (List.map_congr_left fun n there => ?_)
      have there := List.mem_of_mem_filter there
      have field := h.resembles.fieldUnder s n
      rw [found n there, field, value _ _ (quiet.exec_lookupKey member like (declared n there)
        (.refl w)).1 fun t held => founded.nested sound (declared n there) held]

/-- The engine projects such values alike. -/
theorem Companion.exec_sanitize (h : w.Companion d uiOnly u) (sound : w.SoundSchemas)
    (founded : w.Founded) (flags : uiOnly = true → w.FlagsStill d) (still : w.StillSet d P)
    {s : Nat} (inside : s < w.schemas.size) {r : Value} (member : P r) :
    ∃ u', exec (sanitize d s r (.bool uiOnly)) u = (.ok (w.projection d uiOnly s r), u') ∧
      w.Companion d uiOnly u' := by
  obtain ⟨u', run, same⟩ := (SameLists.refl h.sound).exec_sanitize_of_founded h.sound
    (h.resembles.founded founded) (still.quiet u h.readable)
    (fun shown => (flags shown).flagsQuiet h.resembles) (h.resembles.schemasSize ▸ inside) member
  rw [h.projection sound founded still s r member] at run
  exact ⟨u', run, h.ofSameLists flags same⟩

/-! ## Still values -/

namespace StillSet

/-- Values that are composed from still ones are still. -/
theorem composed (still : w.StillSet d P) (sound : w.SoundSchemas) :
    w.StillSet d (Composed P) where
  quiet u h := (still.quiet u h).composed h.1
  found u h v member like s n there := by
    obtain ⟨m, rfl⟩ := sound.declared_texts s n there
    cases member with
    | given member => exact still.found u h v member like s _ there
    | missing => rfl
    | dict => rfl
    | null => cases like
    | list => cases like

end StillSet

end World

end DataShape
