import DataShape.Dispatch

/-! # Runs of actions

An action is run in a world; it gives a result or a fault and leaves a world behind. Most of what
the engine does only looks something up, and much of what it changes on the way (the log, the
identities given out) is of no account. Statements about the worlds that an action can leave are
therefore made for a relation between worlds, and are carried through an action step by step.

* `exec` — the result of an action in a world, with the world that it leaves.
* `Frame` — a relation between worlds that is a preorder and does not see the log and the counter
  of identities.
* `Along` — every run of an action leads along a relation. The instances say that this holds of a
  sequence, a branch or a loop if it holds of the steps. -/

namespace DataShape

/-! ## Running -/

/-- The result of an action in a world, with the world that it leaves. -/
def exec {α : Type} (a : Action α) (w : World) : Except Fault α × World := (ExceptT.run a).run w

section Equations

variable {α β : Type}

@[simp] theorem exec_pure (x : α) (w : World) : exec (pure x) w = (.ok x, w) := rfl

/-- The result of a result is the result, in the same world. -/
theorem exec_pure_eq_ok {x y : α} {w w' : World} :
    exec (pure x) w = (.ok y, w') ↔ x = y ∧ w = w' := by
  rw [exec_pure, Prod.mk.injEq, Except.ok.injEq]

@[simp] theorem exec_throw (e : Fault) (w : World) :
    exec (throw e : Action α) w = (.error e, w) := rfl

@[simp] theorem exec_get (w : World) : exec get w = (.ok w, w) := rfl

theorem exec_mappingOf? (v : Value) (w : World) :
    exec (mappingOf? v) w = (.ok (w.mapping? v), w) := rfl

@[simp] theorem exec_set (w w' : World) : exec (set w') w = (.ok ⟨⟩, w') := rfl

@[simp] theorem exec_modify (f : World → World) (w : World) :
    exec (modify f) w = (.ok ⟨⟩, f w) := rfl

/-- A sequence goes on with the result of its first step, in the world that the step leaves. -/
theorem exec_bind (a : Action α) (f : α → Action β) (w : World) :
    exec (a >>= f) w = match exec a w with
      | (.ok x, w') => exec (f x) w'
      | (.error e, w') => (.error e, w') := by
  unfold exec
  rw [ExceptT.run_bind, StateT.run_bind]
  rcases (ExceptT.run a).run w with ⟨_ | x, w'⟩ <;> rfl

/-- After a step that gives a result the sequence is what follows. -/
theorem exec_bind_ok {a : Action α} {x : α} {w w' : World} (h : exec a w = (.ok x, w'))
    (f : α → Action β) : exec (a >>= f) w = exec (f x) w' := by
  rw [exec_bind, h]

/-- A step that ends in a fault ends the sequence. -/
theorem exec_bind_error {a : Action α} {e : Fault} {w w' : World} (h : exec a w = (.error e, w'))
    (f : α → Action β) : exec (a >>= f) w = (.error e, w') := by
  rw [exec_bind, h]

/-- A sequence that gives a result is a first step that gives one and what follows it. -/
theorem exec_bind_eq_ok {a : Action α} {f : α → Action β} {y : β} {w w' : World} :
    exec (a >>= f) w = (.ok y, w')
      ↔ ∃ x w₁, exec a w = (.ok x, w₁) ∧ exec (f x) w₁ = (.ok y, w') := by
  rw [exec_bind]
  rcases run : exec a w with ⟨e | x, w₁⟩
  · simp
  · simp only [Prod.mk.injEq, Except.ok.injEq]
    constructor
    · exact fun h => ⟨x, w₁, ⟨rfl, rfl⟩, h⟩
    · rintro ⟨_, _, ⟨rfl, rfl⟩, h⟩
      exact h

/-- A sequence that ends in a fault does so in its first step, or in what follows it. -/
theorem exec_bind_eq_error {a : Action α} {f : α → Action β} {e : Fault} {w w' : World} :
    exec (a >>= f) w = (.error e, w')
      ↔ exec a w = (.error e, w') ∨
        ∃ x w₁, exec a w = (.ok x, w₁) ∧ exec (f x) w₁ = (.error e, w') := by
  rw [exec_bind]
  rcases run : exec a w with ⟨e' | x, w₁⟩
  · simp
  · simp only [Prod.mk.injEq, reduceCtorEq, false_and, false_or, Except.ok.injEq]
    constructor
    · exact fun h => ⟨x, w₁, ⟨rfl, rfl⟩, h⟩
    · rintro ⟨_, _, ⟨rfl, rfl⟩, h⟩
      exact h

/-- What only words a fault ends in a fault, in the world that the wording leaves. -/
theorem exec_bind_throw (a : Action α) (fault : α → Fault) (w : World) :
    ∃ e, exec (a >>= fun x => throw (fault x) : Action β) w = (.error e, (exec a w).2) := by
  rw [exec_bind]
  rcases exec a w with ⟨e | x, w'⟩
  · exact ⟨e, rfl⟩
  · exact ⟨fault x, rfl⟩

/-- The result of an action, with the world that it leaves. -/
theorem exec_of_fst {a : Action α} {w : World} {r : Except Fault α} (h : (exec a w).1 = r) :
    exec a w = (r, (exec a w).2) := by
  rw [← h]

/-- An action whose result was seen to be there gives it. -/
theorem exec_of_isOk {a : Action α} {w : World} (h : (exec a w).1.isOk = true) :
    ∃ x, exec a w = (.ok x, (exec a w).2) := by
  rcases run : exec a w with ⟨e | x, w'⟩ <;> rw [run] at h
  · cases h
  · exact ⟨x, rfl⟩

/-- So it does where something was seen of the result. -/
theorem exec_of_seen {a : Action α} {w : World} {f : α → Option β} {y : β}
    (h : (exec a w).1.toOption.bind f = some y) :
    ∃ x, exec a w = (.ok x, (exec a w).2) ∧ f x = some y := by
  rcases run : exec a w with ⟨e | x, w'⟩ <;> rw [run] at h
  · cases h
  · exact ⟨x, rfl, h⟩

/-- A function is applied to the result of an action. -/
theorem exec_map (f : α → β) (a : Action α) (w : World) :
    exec (f <$> a) w = match exec a w with
      | (.ok x, w') => (.ok (f x), w')
      | (.error e, w') => (.error e, w') := by
  rw [map_eq_pure_bind, exec_bind]
  rfl

/-- An action without its result fails and succeeds as the action does. -/
theorem exec_discard_eq (a : Action α) (w : World) : exec (discard a) w = match exec a w with
      | (.ok _, w') => (.ok ⟨⟩, w')
      | (.error e, w') => (.error e, w') := by
  show exec ((fun _ => PUnit.unit) <$> a) w = _
  rw [exec_map]

/-- It leaves the world that the action leaves. -/
theorem exec_discard (a : Action α) (w : World) : (exec (discard a) w).2 = (exec a w).2 := by
  rw [exec_discard_eq]
  rcases exec a w with ⟨_ | _, _⟩ <;> rfl

/-- A fault is handled in the world in which it arose. -/
theorem exec_tryCatch (a : Action α) (h : Fault → Action α) (w : World) :
    exec (tryCatch a h) w = match exec a w with
      | (.ok x, w') => (.ok x, w')
      | (.error e, w') => exec (h e) w' := by
  show (ExceptT.tryCatch a h).run.run w = _
  unfold ExceptT.tryCatch exec
  show ((ExceptT.run a) >>= _ : StateM World _).run w = _
  rw [StateT.run_bind]
  rcases (ExceptT.run a).run w with ⟨_ | x, w'⟩ <;> rfl

/-- An action that gives a result needs no second one. -/
theorem exec_orElseOn_ok {a : Action α} {x : α} {w w' : World} (h : exec a w = (.ok x, w'))
    (accept : Fault → Bool) (second : Fault → Action α) :
    exec (orElseOn accept a second) w = (.ok x, w') := by
  rw [orElseOn, exec_tryCatch, h]

/-- After a fault that is accepted the second action is run, in the world in which it arose. -/
theorem exec_orElseOn_error {a : Action α} {e : Fault} {w w' : World}
    (h : exec a w = (.error e, w')) {accept : Fault → Bool} (accepted : accept e = true)
    (second : Fault → Action α) : exec (orElseOn accept a second) w = exec (second e) w' := by
  rw [orElseOn, exec_tryCatch, h]
  dsimp only
  rw [if_pos accepted]

/-- A fault that is not accepted stays. -/
theorem exec_orElseOn_throw {a : Action α} {e : Fault} {w w' : World}
    (h : exec a w = (.error e, w')) {accept : Fault → Bool} (refused : accept e = false)
    (second : Fault → Action α) : exec (orElseOn accept a second) w = (.error e, w') := by
  rw [orElseOn, exec_tryCatch, h]
  dsimp only
  rw [refused]
  rfl

/-- Two sequences run alike if their first steps do and what follows does in the world after it. -/
theorem exec_bind_congr {α β : Type} {a b : Action α} {f g : α → Action β} {w : World}
    (first : exec a w = exec b w)
    (second : ∀ x w', exec b w = (.ok x, w') → exec (f x) w' = exec (g x) w') :
    exec (a >>= f) w = exec (b >>= g) w := by
  rw [exec_bind, exec_bind, first]
  rcases run : exec b w with ⟨e | x, w'⟩
  · rfl
  · exact second x w' run

/-- Only the run of the first action matters. -/
theorem exec_orElseOn_congr {a b : Action α} {w : World} (same : exec a w = exec b w)
    (accept : Fault → Bool) (second : Fault → Action α) :
    exec (orElseOn accept a second) w = exec (orElseOn accept b second) w := by
  rw [orElseOn, orElseOn, exec_tryCatch, exec_tryCatch, same]

/-- A branch is run where its condition holds. -/
@[simp] theorem exec_ite {c : Prop} [Decidable c] (a b : Action α) (w : World) :
    exec (if c then a else b) w = if c then exec a w else exec b w := by
  split <;> rfl

end Equations

/-! ## Following a relation -/

/-- A preorder between worlds that does not see the log and the counter of identities. -/
class Frame (R : World → World → Prop) : Prop where
  refl : ∀ w, R w w
  trans : ∀ {u v w}, R u v → R v w → R u w
  log : ∀ w l, R w { w with log := l }
  identity : ∀ w n, R w { w with nextIdentity := n }

/-- Every run of an action leads along a relation. -/
class Along {α : Type} (R : World → World → Prop) (a : Action α) : Prop where
  out : ∀ w, R w (exec a w).2

section Combinators

variable {α β : Type} {R : World → World → Prop}

/-- A run that gives a result leads along the relation. -/
theorem Along.of_ok {a : Action α} [h : Along R a] {w w' : World} {x : α}
    (run : exec a w = (.ok x, w')) : R w w' := by
  have follows := h.out w
  rw [run] at follows
  exact follows

/-- So does a run that ends in a fault. -/
theorem Along.of_error {a : Action α} [h : Along R a] {w w' : World} {e : Fault}
    (run : exec a w = (.error e, w')) : R w w' := by
  have follows := h.out w
  rw [run] at follows
  exact follows

variable [Frame R]

instance along_pure (x : α) : Along R (pure x) := ⟨Frame.refl⟩

instance along_throw (e : Fault) : Along R (throw e : Action α) := ⟨Frame.refl⟩

instance along_get : Along R (get : Action World) := ⟨Frame.refl⟩

/-- What a sequence does in one world: its first step follows the relation, and what comes after has
to follow it only where that step gave a result. -/
theorem Along.step {a : Action α} {f : α → Action β} [h : Along R a] {w : World}
    (rest : ∀ x w₁, exec a w = (.ok x, w₁) → R w₁ (exec (f x) w₁).2) :
    R w (exec (a >>= f) w).2 := by
  have first := h.out w
  rw [exec_bind]
  rcases run : exec a w with ⟨_ | x, w₁⟩ <;> rw [run] at first
  · exact first
  · exact Frame.trans first (rest x w₁ run)

/-- A sequence follows the relation if what comes after its first step does. -/
theorem Along.andThen {a : Action α} {f : α → Action β} [Along R a] (hf : ∀ x, Along R (f x)) :
    Along R (a >>= f) := ⟨fun _ => Along.step fun x w₁ _ => (hf x).out w₁⟩

instance along_bind {a : Action α} {f : α → Action β} [Along R a] [hf : ∀ x, Along R (f x)] :
    Along R (a >>= f) := .andThen hf

instance along_map {a : Action α} {f : α → β} [Along R a] : Along R (f <$> a) :=
  inferInstanceAs (Along R (a >>= fun x => pure (f x)))

omit [Frame R] in
instance along_ite {a b : Action α} {c : Prop} [Decidable c] [Along R a] [Along R b] :
    Along R (if c then a else b) := by
  split <;> assumption

instance along_tryCatch {a : Action α} {h : Fault → Action α} [ha : Along R a]
    [hh : ∀ e, Along R (h e)] : Along R (tryCatch a h) where
  out w := by
    have first := ha.out w
    rw [exec_tryCatch]
    rcases run : exec a w with ⟨e | x, w'⟩ <;> rw [run] at first
    · exact Frame.trans first ((hh e).out w')
    · exact first

instance along_orElseOn {accept : Fault → Bool} {a : Action α} {h : Fault → Action α}
    [Along R a] [∀ e, Along R (h e)] : Along R (orElseOn accept a h) := by
  unfold orElseOn
  infer_instance

instance along_discard {a : Action α} [Along R a] : Along R (discard a) := by
  show Along R ((fun _ => PUnit.unit) <$> a)
  infer_instance

instance along_newIdentity : Along R newIdentity := ⟨fun w => Frame.identity w _⟩

/-- To write to the log changes nothing else. -/
theorem exec_writeLog (origin : LogOrigin) (level : LogLevel) (text : String) (w : World) :
    ∃ l, exec (writeLog origin level text) w = (.ok ⟨⟩, { w with log := l }) := by
  unfold writeLog
  rw [exec_modify]
  split
  · split
    · exact ⟨_, rfl⟩
    · exact ⟨w.log, rfl⟩
  · exact ⟨w.log, rfl⟩

instance along_writeLog (origin : LogOrigin) (level : LogLevel) (text : String) :
    Along R (writeLog origin level text) where
  out w := by
    obtain ⟨l, run⟩ := exec_writeLog origin level text w
    rw [run]
    exact Frame.log w l

/-! ## Loops -/

instance along_mapM {f : α → Action β} [hf : ∀ x, Along R (f x)] :
    ∀ items : List α, Along R (items.mapM f)
  | [] => by rw [List.mapM_nil]; infer_instance
  | x :: rest => by
    have := along_mapM (f := f) rest
    rw [List.mapM_cons]
    infer_instance

instance along_forM {f : α → Action PUnit} [hf : ∀ x, Along R (f x)] :
    ∀ items : List α, Along R (items.forM f)
  | [] => along_pure _
  | x :: rest => by
    have := along_forM (f := f) rest
    show Along R (f x >>= fun _ => rest.forM f)
    infer_instance

instance along_foldlM {f : β → α → Action β} [hf : ∀ s x, Along R (f s x)] :
    ∀ (items : List α) (s : β), Along R (items.foldlM f s)
  | [], s => by rw [List.foldlM_nil]; infer_instance
  | x :: rest, s => by
    have := along_foldlM (f := f) rest
    rw [List.foldlM_cons]
    infer_instance

/-- What a filter does after it has met some items follows the relation. -/
theorem along_filterAuxM {f : α → Action Bool} [hf : ∀ x, Along R (f x)] (items : List α) :
    ∀ met : List α, Along R (List.filterAuxM f items met) := by
  induction items with
  | nil => intro met; exact along_pure _
  | cons x rest ih =>
    intro met
    have step : ∀ b : Bool, Along R (List.filterAuxM f rest (cond b (x :: met) met)) :=
      fun b => ih _
    exact .andThen step

instance along_filterM {f : α → Action Bool} [hf : ∀ x, Along R (f x)] (items : List α) :
    Along R (items.filterM f) := by
  have := along_filterAuxM (R := R) (f := f) items []
  unfold List.filterM
  infer_instance

end Combinators

/-! ## Filters -/

section Filters

variable {α : Type} {f : α → Action Bool}

/-- What a filter keeps is a sublist of what it was given, behind what it had met. -/
theorem sublist_of_filterAuxM (items : List α) : ∀ {met kept : List α} {w w' : World},
    exec (List.filterAuxM f items met) w = (.ok kept, w') →
      ∃ chosen : List α, chosen.Sublist items ∧ kept = chosen.reverse ++ met := by
  induction items with
  | nil =>
    intro met kept w w' run
    obtain ⟨rfl, -⟩ := exec_pure_eq_ok.mp run
    exact ⟨[], List.Sublist.refl _, rfl⟩
  | cons x rest ih =>
    intro met kept w w' run
    obtain ⟨b, w₁, -, run⟩ := exec_bind_eq_ok.mp run
    obtain ⟨chosen, sub, rfl⟩ := ih run
    cases b with
    | false => exact ⟨chosen, sub.cons x, rfl⟩
    | true => exact ⟨x :: chosen, sub.cons_cons x, by simp⟩

theorem sublist_of_filterM {items kept : List α} {w w' : World}
    (run : exec (items.filterM f) w = (.ok kept, w')) : kept.Sublist items := by
  unfold List.filterM at run
  obtain ⟨found, w₁, first, run⟩ := exec_bind_eq_ok.mp run
  obtain ⟨chosen, sub, rfl⟩ := sublist_of_filterAuxM items first
  obtain ⟨rfl, -⟩ := exec_pure_eq_ok.mp run
  simpa using sub

/-- A filter whose test leaves the world as it is keeps what passes the test. -/
theorem exec_filterM {test : α → Bool} {items : List α} {w : World}
    (still : ∀ x ∈ items, exec (f x) w = (.ok (test x), w)) :
    exec (items.filterM f) w = (.ok (items.filter test), w) := by
  have aux : ∀ items met : List α, (∀ x ∈ items, exec (f x) w = (.ok (test x), w)) →
      exec (List.filterAuxM f items met) w = (.ok ((items.filter test).reverse ++ met), w) := by
    intro items
    induction items with
    | nil => exact fun met _ => rfl
    | cons x rest ih =>
      intro met still
      have first := still x List.mem_cons_self
      show exec (f x >>= fun b => List.filterAuxM f rest (cond b (x :: met) met)) w = _
      rw [exec_bind_ok first, ih _ fun y hy => still y (List.mem_cons_of_mem x hy)]
      cases passes : test x <;> simp [passes]
  unfold List.filterM
  rw [exec_bind_ok (aux items [] still)]
  simp

/-- What a filter gives, where its test gives nothing but one answer, without effect. -/
theorem filterM_eq_ok {test : α → Bool} {items kept : List α} {w w' : World}
    (only : ∀ x ∈ items, ∀ b u, exec (f x) w = (.ok b, u) → b = test x ∧ u = w)
    (run : exec (items.filterM f) w = (.ok kept, w')) : kept = items.filter test ∧ w' = w := by
  -- The filter goes by an accumulator, which holds what was kept so far in reverse.
  have aux : ∀ items : List α,
      (∀ x ∈ items, ∀ b u, exec (f x) w = (.ok b, u) → b = test x ∧ u = w) →
      ∀ {met found : List α} {u : World}, exec (List.filterAuxM f items met) w = (.ok found, u) →
        found = (items.filter test).reverse ++ met ∧ u = w := by
    intro items
    induction items with
    | nil =>
      intro _ met found u run
      obtain ⟨rfl, rfl⟩ := exec_pure_eq_ok.mp run
      exact ⟨rfl, rfl⟩
    | cons x rest ih =>
      intro only met found u run
      obtain ⟨b, w₁, first, others⟩ := exec_bind_eq_ok.mp run
      obtain ⟨rfl, rfl⟩ := only x List.mem_cons_self b w₁ first
      obtain ⟨rfl, rfl⟩ := ih (fun y there => only y (List.mem_cons_of_mem x there)) others
      refine ⟨?_, rfl⟩
      cases passes : test x <;> simp [passes]
  unfold List.filterM at run
  obtain ⟨found, w₁, first, last⟩ := exec_bind_eq_ok.mp run
  obtain ⟨rfl, rfl⟩ := aux items only first
  obtain ⟨rfl, rfl⟩ := exec_pure_eq_ok.mp last
  simp

end Filters

end DataShape
