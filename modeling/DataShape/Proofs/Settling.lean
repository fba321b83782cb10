import DataShape.Proofs.Execution
import Mathlib.Data.List.Forall2

/-! # Actions that settle

An action may fail for reasons that can be told beforehand. It settles if it gives a result in a
world of the same kind where nothing obstructs it, and fails where something does. A fold over items
is obstructed where one of them is, in the world that the items before it lead to.

* `Settles` — an action gives a result, or it is obstructed.
* `Blocked` — an item is obstructed in the course of a fold.
* `settles_foldlM`, `settles_mapM` — a fold settles if its steps do.
* `forall_of_mapM`, `forall_of_foldlM` — what holds of the result of every step. -/

namespace DataShape

section Settling

variable {α β σ : Type} {S : World → Prop}

/-- An action gives a result and leads to a world of the same kind, or it fails since something
obstructs it. -/
def Settles (S : World → Prop) (a : Action α) (w : World) (obstructed : Prop) : Prop :=
  (¬ obstructed ∧ ∃ x w', exec a w = (.ok x, w') ∧ S w') ∨
    (obstructed ∧ ∃ e w', exec a w = (.error e, w'))

/-- An action that settles fails just where it is obstructed. -/
theorem Settles.fails_iff {a : Action α} {w : World} {obstructed : Prop}
    (h : Settles S a w obstructed) : (∃ e w', exec a w = (.error e, w')) ↔ obstructed := by
  rcases h with ⟨free, x, w', run, -⟩ | ⟨blocked, failed⟩
  · refine ⟨?_, fun blocked => absurd blocked free⟩
    rintro ⟨e, w'', run'⟩
    rw [run] at run'
    cases run'
  · exact ⟨fun _ => blocked, fun _ => failed⟩

/-- An action that settles and gave a result led to a world of the same kind. -/
theorem Settles.of_ok {a : Action α} {w : World} {obstructed : Prop}
    (h : Settles S a w obstructed) {x : α} {w' : World} (run : exec a w = (.ok x, w')) : S w' := by
  rcases h with ⟨-, y, w'', run', h'⟩ | ⟨-, e, w'', run'⟩ <;> rw [run] at run'
  · exact (Prod.mk.inj run').2 ▸ h'
  · cases run'

theorem settles_pure {w : World} {obstructed : Prop} (h : S w) (x : α) (free : ¬ obstructed) :
    Settles S (pure x) w obstructed := .inl ⟨free, x, w, rfl, h⟩

/-- Only the run of an action matters. -/
theorem Settles.congr {a b : Action α} {w : World} {obstructed : Prop}
    (h : exec a w = exec b w) (settles : Settles S b w obstructed) : Settles S a w obstructed := by
  unfold Settles
  rw [h]
  exact settles

/-- What is done with the result does not matter. -/
theorem Settles.bind_pure {a : Action α} {w : World} {obstructed : Prop}
    (h : Settles S a w obstructed) (f : α → β) :
    Settles S (do return f (← a)) w obstructed := by
  rcases h with ⟨free, x, w', run, h'⟩ | ⟨blocked, e, w', run⟩
  · refine .inl ⟨free, f x, w', ?_, h'⟩
    rw [exec_bind_ok run]
    rfl
  · exact .inr ⟨blocked, e, w', exec_bind_error run _⟩

/-- After a step that leaves the world as it is, a sequence settles if what follows does. -/
theorem Settles.after {a : Action α} {x : α} {f : α → Action β} {w : World} {obstructed : Prop}
    (h : exec a w = (.ok x, w)) (second : Settles S (f x) w obstructed) :
    Settles S (a >>= f) w obstructed := by
  unfold Settles
  rw [exec_bind_ok h]
  exact second

/-- An action gives a result and leads to a world. -/
def Leads (a : Action α) (w w' : World) : Prop := ∃ x, exec a w = (.ok x, w')

theorem leads_return {a : Action α} (f : α → β) {w w' : World} :
    Leads (do return f (← a)) w w' ↔ Leads a w w' := by
  constructor
  · rintro ⟨y, run⟩
    obtain ⟨x, w₁, first, last⟩ := exec_bind_eq_ok.mp run
    obtain ⟨-, rfl⟩ := exec_pure_eq_ok.mp last
    exact ⟨x, first⟩
  · rintro ⟨x, run⟩
    refine ⟨f x, ?_⟩
    rw [exec_bind_ok run]
    rfl

/-- Some item is obstructed in the world that the items before it lead to. -/
def Blocked (before : List α → Action β) (obstructed : World → α → Prop) (items : List α)
    (w : World) : Prop :=
  ∃ front x back w₁, items = front ++ x :: back ∧ Leads (before front) w w₁ ∧ obstructed w₁ x

/-- A fold settles if its steps do, by induction on the items. -/
theorem settles_foldlM {step : σ → α → Action σ} {obstructed : World → α → Prop}
    (items : List α) (settles : ∀ s, ∀ x ∈ items, ∀ w, S w →
      Settles S (step s x) w (obstructed w x)) :
    ∀ (s : σ) (w : World), S w →
      Settles S (items.foldlM step s) w (Blocked (·.foldlM step s) obstructed items w) := by
  induction items with
  | nil =>
    intro s w h
    refine settles_pure h s ?_
    rintro ⟨front, x, back, -, split, -⟩
    exact absurd split (by simp)
  | cons x rest ih =>
    intro s w h
    have ih := ih fun s y there => settles s y (List.mem_cons_of_mem x there)
    rcases settles s x List.mem_cons_self w h with ⟨free, s₁, w₁, run, h₁⟩ | ⟨blocked, e, w₁, run⟩
    · have first : ∀ items : List α,
          exec ((x :: items).foldlM step s) w = exec (items.foldlM step s₁) w₁ := by
        intro items
        rw [List.foldlM_cons, exec_bind_ok run]
      -- The first item does not block, so whatever blocks comes after it.
      have further : Blocked (·.foldlM step s) obstructed (x :: rest) w
          ↔ Blocked (·.foldlM step s₁) obstructed rest w₁ := by
        constructor
        · rintro ⟨front, y, back, w₂, split, ⟨s₂, run₂⟩, blocked⟩
          cases front with
          | nil =>
            obtain ⟨rfl, rfl⟩ := List.cons.inj split
            obtain ⟨-, rfl⟩ := Prod.mk.inj run₂
            exact absurd blocked free
          | cons z front =>
            obtain ⟨rfl, rfl⟩ := List.cons.inj split
            exact ⟨front, y, back, w₂, rfl, ⟨s₂, (first front).symm.trans run₂⟩, blocked⟩
        · rintro ⟨front, y, back, w₂, rfl, ⟨s₂, run₂⟩, blocked⟩
          exact ⟨x :: front, y, back, w₂, rfl, ⟨s₂, (first front).trans run₂⟩, blocked⟩
      unfold Settles
      rw [first, further]
      exact ih s₁ w₁ h₁
    · refine .inr ⟨⟨[], x, rest, w, rfl, ⟨s, rfl⟩, blocked⟩, e, w₁, ?_⟩
      rw [List.foldlM_cons]
      exact exec_bind_error run _

/-- A list is mapped if its items are: mapping is a fold that collects the results. -/
theorem settles_mapM {f : α → Action β} {obstructed : World → α → Prop} (items : List α)
    (settles : ∀ x ∈ items, ∀ w, S w → Settles S (f x) w (obstructed w x)) (w : World) (h : S w) :
    Settles S (items.mapM f) w (Blocked (·.mapM f) obstructed items w) := by
  have collected : ∀ front : List α, front.mapM f
      = (do return (← front.foldlM (fun ys x => do return (← f x) :: ys) []).reverse) := by
    intro front
    simp only [List.mapM_eq_reverse_foldlM_cons, map_eq_pure_bind]
  have same : Blocked (·.mapM f) obstructed items w
      ↔ Blocked (·.foldlM (fun ys x => do return (← f x) :: ys) []) obstructed items w := by
    unfold Blocked
    simp only [collected, leads_return]
  rw [same, collected]
  exact (settles_foldlM items (fun ys x there w h => (settles x there w h).bind_pure _) [] w
    h).bind_pure _

/-- What holds of the result for every item, each in a world of the kind, holds of all results. -/
theorem forall_of_mapM {f : α → Action β} {R : β → Prop} (items : List α)
    (each : ∀ x ∈ items, ∀ w y w', S w → exec (f x) w = (.ok y, w') → S w' ∧ R y) :
    ∀ {w : World} {ys : List β} {w' : World}, S w → exec (items.mapM f) w = (.ok ys, w') →
      ∀ y ∈ ys, R y := by
  induction items with
  | nil =>
    intro w ys w' _ run
    obtain ⟨rfl, -⟩ := exec_pure_eq_ok.mp run
    exact nofun
  | cons x rest ih =>
    intro w ys w' h run
    rw [List.mapM_cons] at run
    obtain ⟨y, w₁, first, run⟩ := exec_bind_eq_ok.mp run
    obtain ⟨ys', w₂, further, last⟩ := exec_bind_eq_ok.mp run
    obtain ⟨rfl, -⟩ := exec_pure_eq_ok.mp last
    obtain ⟨h₁, holds⟩ := each x List.mem_cons_self w y w₁ h first
    exact List.forall_mem_cons.mpr
      ⟨holds, ih (fun z there => each z (List.mem_cons_of_mem x there)) h₁ further⟩

/-- A fold that puts results behind each other collects results of which something holds. -/
theorem forall_of_foldlM {step : List β → α → Action (List β)} {R : β → Prop} (items : List α)
    (each : ∀ ys, ∀ x ∈ items, ∀ w ys' w', S w → exec (step ys x) w = (.ok ys', w') →
      S w' ∧ ∃ new, ys' = ys ++ new ∧ ∀ y ∈ new, R y) :
    ∀ {ys : List β} {w : World} {ys' : List β} {w' : World}, S w →
      exec (items.foldlM step ys) w = (.ok ys', w') →
      S w' ∧ ∃ new, ys' = ys ++ new ∧ ∀ y ∈ new, R y := by
  induction items with
  | nil =>
    intro ys w ys' w' h run
    obtain ⟨rfl, rfl⟩ := exec_pure_eq_ok.mp run
    exact ⟨h, [], by simp⟩
  | cons x rest ih =>
    intro ys w ys' w' h run
    rw [List.foldlM_cons] at run
    obtain ⟨ys₁, w₁, first, run⟩ := exec_bind_eq_ok.mp run
    obtain ⟨h₁, new, rfl, holds⟩ := each ys x List.mem_cons_self w ys₁ w₁ h first
    obtain ⟨h', new', rfl, holds'⟩ :=
      ih (fun ys y there => each ys y (List.mem_cons_of_mem x there)) h₁ run
    exact ⟨h', new ++ new', List.append_assoc .., List.forall_mem_append.mpr ⟨holds, holds'⟩⟩

end Settling

/-- Items that are mapped without effect have results, each of which goes with the partner of its
item. -/
theorem exec_mapM_forall₂ {α β γ : Type} {g : β → Action γ} {R : γ → α → Prop} {partners : List α}
    {items : List β} {w : World}
    (each : List.Forall₂ (fun a b => ∃ c, exec (g b) w = (.ok c, w) ∧ R c a) partners items) :
    ∃ cs, exec (items.mapM g) w = (.ok cs, w) ∧ List.Forall₂ R cs partners := by
  induction each with
  | nil => exact ⟨[], rfl, .nil⟩
  | cons head _ ih =>
    obtain ⟨c, first, holds⟩ := head
    obtain ⟨cs, further, all⟩ := ih
    refine ⟨c :: cs, ?_, .cons holds all⟩
    rw [List.mapM_cons, exec_bind_ok first, exec_bind_ok further]
    rfl

end DataShape
