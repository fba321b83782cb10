import DataShape.Proofs.Schema.Uniform
import DataShape.Proofs.Wording

/-! # Idle steps

In a plain world much of what the engine does only words a message or looks something up. It then
leaves a world that resembles the one it found: the log may have grown, identities may have been
given out and schemas may keep more lists. No function of a provider takes part in that, whatever
the provider is.

* `World.Idle` — in a plain world nothing else changes; a relation that actions can follow.
* `Idles` — an action that is idle and gives nothing but results of a kind. -/

namespace DataShape

namespace World

namespace Resembles

variable {u v w : World}

theorem trans (first : u.Resembles v) (second : v.Resembles w) : u.Resembles w := by
  have next : v.Relisted { w with log := v.log, nextIdentity := v.nextIdentity } := second
  have whole := first.relisted next
  exact whole

theorem plain (h : w.Resembles u) (plain : w.Plain) : u.Plain where
  types i := by rw [h.type, plain.types]
  fields i := by rw [h.field, plain.fields]
  schemas i := (Relisted.plain h plain).schemas i

theorem of_relisted (h : w.Relisted u) : w.Resembles u := (refl w).relisted h

theorem registries (h : w.Resembles u) : u.registries = w.registries := by
  have same := Relisted.registries h
  exact same

theorem fields (h : w.Resembles u) : u.fields = w.fields := by
  have same := Relisted.fields h
  exact same

theorem schemasSize (h : w.Resembles u) : u.schemas.size = w.schemas.size := by
  have same := Relisted.size h
  exact same

theorem schema (h : w.Resembles u) (i : Nat) :
    { u.schema i with fieldLists := (w.schema i).fieldLists } = w.schema i := by
  have same := Relisted.schema h i
  exact same

theorem sharedParts (h : w.Resembles u) : u.sharedParts = w.sharedParts := by
  have same := congrArg World.sharedParts (Relisted.rest h)
  exact same

theorem capabilityTable (h : w.Resembles u) (owner : TableOwner) :
    u.capabilityTable owner = w.capabilityTable owner := by
  cases owner with
  | type t => exact congrArg TypeNode.capabilities (h.type t)
  | registrySchemas r => exact congrArg RegistryNode.schemaCapabilities (h.registry r)
  | registryFields r => exact congrArg RegistryNode.fieldCapabilities (h.registry r)

end Resembles

/-- In a plain world nothing changes but the log, the identities given out and kept lists. -/
def Idle (w w' : World) : Prop := w.Plain → w.Resembles w'

instance Idle.frame : Frame Idle where
  refl w _ := .refl w
  trans first second plain := (first plain).trans (second ((first plain).plain plain))
  log w l _ := (Resembles.refl w).logged l
  identity w n _ := (Resembles.refl w).identity n

instance Idle.lists : Frame.Lists Idle where
  keep w s p names _ := .of_relisted (w.relisted_keep s p names)
  foreign w s share lists held plain := by
    rw [plain.storedOn] at held
    exact absurd rfl held

end World

variable {α β : Type}

/-- What only shows something is idle. -/
theorem along_idle_of_words {a : Action α} (h : ∀ w : World, w.Plain → Words a w) :
    Along World.Idle a := ⟨fun w plain => .of_relisted (h w plain).1⟩

section Dispatch

variable {call : Provider} {depth : Nat}

instance along_idle_shown (v : Value) : Along World.Idle (shown (call.dispatch depth) v) :=
  along_idle_of_words fun _ => words_shown (call.words_display depth) v

instance along_idle_textOf (v : Value) : Along World.Idle (textOf (call.dispatch depth) v) :=
  along_idle_of_words fun _ => words_textOf (call.words_display depth) v

instance along_idle_truthOf {d : Dispatch} (v : Value) : Along World.Idle (truthOf d v) :=
  along_idle_of_words fun _ plain => .of_relists (relists_truthOf d plain v)

instance along_idle_schemaName {d : Dispatch} (s : Nat) : Along World.Idle (schemaName d s) :=
  along_idle_of_words fun _ plain => .of_relists (relists_schemaName d plain s)

instance along_idle_parentName? {d : Dispatch} (s : Nat) :
    Along World.Idle (parentName? d s) :=
  along_idle_of_words fun _ plain => .of_relists (relists_parentName? d plain s)

instance along_idle_allFieldNames {d : Dispatch} (s : Nat) :
    Along World.Idle (allFieldNames d s) :=
  along_idle_of_words fun _ plain => .of_relists (relists_allFieldNames d plain s)

instance along_idle_plainScalar (v : Value) :
    Along World.Idle (plainScalar (call.dispatch depth) v) := by
  unfold plainScalar
  split <;> infer_instance

end Dispatch

/-! ## Idle actions with results of a kind -/

/-- In a world an action is idle, and gives no result but one of a kind. -/
def Idles (P : α → Prop) (a : Action α) (w : World) : Prop :=
  w.Resembles (exec a w).2 ∧ ∀ x, (exec a w).1 = .ok x → P x

section Idles

variable {P : α → Prop} {Q : β → Prop} {w : World}

theorem idles_pure {x : α} (h : P x) : Idles P (pure x) w :=
  ⟨.refl w, fun _ same => Except.ok.inj same ▸ h⟩

theorem idles_throw (e : Fault) : Idles P (throw e : Action α) w := ⟨.refl w, nofun⟩

/-- What follows the relation of idle steps is idle in a plain world. -/
theorem Idles.of_along (a : Action α) [h : Along World.Idle a] (plain : w.Plain) :
    Idles (fun _ => True) a w := ⟨h.out w plain, fun _ _ => trivial⟩

/-- A sequence is idle if its steps are, each in a world that resembles the first. -/
theorem Idles.bind {a : Action α} {f : α → Action β} (first : Idles P a w)
    (second : ∀ x w', w.Resembles w' → P x → Idles Q (f x) w') : Idles Q (a >>= f) w := by
  obtain ⟨resembles, results⟩ := first
  unfold Idles
  rw [exec_bind]
  rcases run : exec a w with ⟨e | x, w₁⟩ <;> rw [run] at resembles results
  · exact ⟨resembles, nofun⟩
  · obtain ⟨resembles', results'⟩ := second x w₁ resembles (results x rfl)
    exact ⟨resembles.trans resembles', results'⟩

/-- After a step that leaves the world as it is, a sequence is idle if what follows is. -/
theorem Idles.after {a : Action α} {x : α} {f : α → Action β} (h : exec a w = (.ok x, w))
    (second : Idles Q (f x) w) : Idles Q (a >>= f) w := by
  unfold Idles
  rw [exec_bind_ok h]
  exact second

/-- What words a fault is idle if the wording is. -/
theorem idles_bind_throw {a : Action β} (fault : β → Fault) (h : w.Resembles (exec a w).2) :
    Idles P (a >>= fun x => throw (fault x) : Action α) w := by
  obtain ⟨e, run⟩ := exec_bind_throw (β := α) a fault w
  rw [Idles, run]
  exact ⟨h, nofun⟩

end Idles

end DataShape
