import DataShape.Proofs.Predicate.Meaning
import DataShape.Proofs.Registry.Invariant
import DataShape.Proofs.Schema.Uniform

/-! # Searching with match specifications

What a search finds follows from the meaning of its specification.

* `AskedFreely` — the types of a registry can be asked without side effects.
* `typesWhere_partition` — a specification and its negation share the types among them.
* `typesWhere_noneOf` — that none of some specifications is met, said in two ways, selects the same
  types by the same steps.
* `predicate_means_specification` — a compiled predicate means its specification. -/

namespace DataShape

/-- A specification is not met. -/
def notSpec (spec : Value) : Value := .ofFields [("$not", spec)]

/-- Some specification of a list is met. -/
def anySpec (specs : List Value) : Value := .ofFields [("$or", .fresh specs)]

/-- All specifications of a list are not met. -/
def allNotSpec (specs : List Value) : Value := .fresh (specs.map notSpec)

variable (d : Dispatch)

/-! ## Compiling negations -/

section Negations

variable (compileLive : Part → Bool → Action Predicate)

theorem compileSpec_notSpec (spec : Value) : compileSpec d compileLive (notSpec spec)
    = Predicate.negation <$> compileSpec d compileLive spec := by
  have operator : (Table.keys [(Value.str "$not", spec)]).any isOperatorKey = true := rfl
  have negation : (Value.str "$not" == Value.str "$not") = true := rfl
  rw [notSpec, Value.ofFields, List.map_singleton, compileSpec, compileMapping, if_pos operator,
    if_pos List.isEmpty_nil, compileEntry, if_pos negation]

theorem compileSpec_anySpec (specs : List Value) : compileSpec d compileLive (anySpec specs)
    = Predicate.any <$> compileParts d compileLive specs := by
  have operator : (Table.keys [(Value.str "$or", Value.fresh specs)]).any isOperatorKey = true :=
    rfl
  have disjunction : (Value.str "$or" == Value.str "$or") = true := rfl
  have other : ¬ (Value.str "$or" == Value.str "$not") = true := by decide
  rw [anySpec, Value.ofFields, List.map_singleton, compileSpec, compileMapping, if_pos operator,
    if_pos List.isEmpty_nil, compileEntry, if_neg other, Value.fresh, compileOperand]
  simp [disjunction]

/-- Negations are compiled one by one. By induction on what they negate. -/
theorem compileParts_notSpec (specs : List Value) :
    compileParts d compileLive (specs.map notSpec)
      = List.map Predicate.negation <$> compileParts d compileLive specs := by
  induction specs with
  | nil =>
    rw [List.map_nil, compileParts, map_pure, List.map_nil]
  | cons spec rest ih =>
    rw [List.map_cons, compileParts, compileParts, compileSpec_notSpec, ih]
    simp only [map_bind, bind_map_left, map_pure, List.map_cons]

theorem compileSpec_allNotSpec (specs : List Value) : compileSpec d compileLive (allNotSpec specs)
    = (fun ps => .all (ps.map .negation)) <$> compileParts d compileLive specs := by
  rw [allNotSpec, Value.fresh, compileSpec, compileParts_notSpec, ← comp_map]
  rfl

end Negations

theorem compilePredicate_notSpec (spec : Value) :
    compilePredicate d (notSpec spec) = Predicate.negation <$> compilePredicate d spec :=
  compileSpec_notSpec d _ spec

/-- A negation is evaluated once, and turns the answer round. -/
theorem holds_negation (p : Predicate) (obj : Value) :
    (Predicate.negation p).holds d obj = Bool.not <$> p.holds d obj := by
  rw [Predicate.holds, bind_pure_comp]

/-- That none of some predicates holds is found by the steps that find that the negation of each
holds. By induction on the predicates. -/
theorem allHold_negation (ps : List Predicate) (obj : Value) :
    allHold d (ps.map .negation) obj = Bool.not <$> anyHolds d ps obj := by
  induction ps with
  | nil => rw [List.map_nil, allHold, anyHolds, map_pure, Bool.not_false]
  | cons p rest ih =>
    rw [List.map_cons, allHold, anyHolds, holds_negation, bind_map_left, map_bind]
    refine bind_congr fun holds => ?_
    cases holds with
    | false => simpa using ih
    | true => simp

/-- **Not one, or each not.** Both ways to say that no specification of a list is met compile the
specifications in the same way, and then ask the same questions in the same order. -/
theorem compilePredicate_noneOf {α : Type} (specs : List Value)
    (use : (Value → Action Bool) → Action α) :
    (do use ((← compilePredicate d (notSpec (anySpec specs))).holds d))
      = (do use ((← compilePredicate d (allNotSpec specs)).holds d)) := by
  rw [compilePredicate_notSpec, compilePredicate, compilePredicate, compileSpec_anySpec,
    compileSpec_allNotSpec, ← comp_map, bind_map_left, bind_map_left]
  refine bind_congr fun ps => congrArg use (funext fun obj => ?_)
  rw [Function.comp_apply, holds_negation, Predicate.holds, Predicate.holds, allHold_negation]

theorem satisfies_noneOf (specs : List Value) (obj : Value) :
    satisfies d obj (notSpec (anySpec specs)) = satisfies d obj (allNotSpec specs) :=
  compilePredicate_noneOf d specs fun holds => holds obj

theorem typesWhere_noneOf (r : Nat) (specs : List Value) :
    typesWhere d r (notSpec (anySpec specs)) = typesWhere d r (allNotSpec specs) :=
  compilePredicate_noneOf d specs fun holds => do
    ((← get).typesOf r).filterM fun id => holds (.type id)

/-! ## Searching without side effects -/

section Filter

variable {α : Type} {ask : α → Action Bool} {S : World → Prop}

/-- The answer to a question in a world; a question without an answer is denied. -/
def answerIn (ask : α → Action Bool) (w : World) (x : α) : Bool :=
  (exec (ask x) w).1.toOption.getD false

/-- A filter by what becomes of uniform answers: it fails as the first question fails, and otherwise
keeps what the answers of one world say. By induction on the items, behind those met before. -/
theorem filterAuxM_of_uniform {w : World} (inside : S w) (change : Bool → Bool) (items : List α) :
    ∀ (met : List α) (u : World), S u → (∀ x ∈ items, Uniform S (ask x)) →
      (exec (List.filterAuxM (fun x => change <$> ask x) items met) u).1
        = (items.mapM fun x => (exec (ask x) w).1).map fun _ =>
            (items.filter fun x => change (answerIn ask w x)).reverse ++ met := by
  induction items with
  | nil => exact fun met u _ _ => rfl
  | cons x rest ih =>
    intro met u there each
    obtain ⟨outcome, uniform⟩ := each x List.mem_cons_self
    obtain ⟨w', here, -⟩ := uniform w inside
    obtain ⟨u', run, there'⟩ := uniform u there
    -- The question has the same outcome here as in the first world, whatever was asked before.
    have asked : exec (change <$> ask x) u = (outcome.map change, u') := by
      rw [exec_map, run]
      cases outcome <;> rfl
    rw [List.mapM_cons, here]
    cases outcome with
    | error e => exact congrArg Prod.fst (exec_bind_error asked _)
    | ok b =>
      have given : answerIn ask w x = b := by rw [answerIn, here]; rfl
      have others := ih (cond (change b) (x :: met) met) u' there'
        fun y later => each y (List.mem_cons_of_mem x later)
      refine (congrArg Prod.fst (exec_bind_ok asked _)).trans (others.trans ?_)
      rw [List.filter_cons, given]
      show _ = Except.map _ ((rest.mapM fun x => (exec (ask x) w).1) >>= fun bs => .ok (b :: bs))
      cases rest.mapM fun x => (exec (ask x) w).1 with
      | error e => rfl
      | ok bs => cases change b <;> simp [Except.map, bind, Except.bind]

theorem filterM_of_uniform {w : World} (inside : S w) (change : Bool → Bool) {items : List α}
    (each : ∀ x ∈ items, Uniform S (ask x)) {u : World} (there : S u) :
    (exec (items.filterM fun x => change <$> ask x) u).1
      = (items.mapM fun x => (exec (ask x) w).1).map fun _ =>
          items.filter fun x => change (answerIn ask w x) := by
  have run := filterAuxM_of_uniform inside change items [] u there each
  unfold List.filterM
  rw [exec_bind]
  cases found : items.mapM fun x => (exec (ask x) w).1 <;> rw [found] at run <;>
    rcases filtered : exec (List.filterAuxM (fun x => change <$> ask x) items []) u with ⟨o, u'⟩ <;>
    rw [filtered] at run <;> obtain rfl : o = _ := run
  · rfl
  · simp [Except.map]

end Filter

/-- What a sequence of results gives, every part of it gave. -/
theorem ok_of_mapM {α β ε : Type} {f : α → Except ε β} (items : List α) :
    ∀ {results : List β}, items.mapM f = .ok results → ∀ x ∈ items, ∃ y, f x = .ok y := by
  induction items with
  | nil => exact fun _ x there => absurd there List.not_mem_nil
  | cons x rest ih =>
    intro results run y there
    rw [List.mapM_cons] at run
    cases first : f x with
    | error e =>
      rw [first] at run
      cases run
    | ok b =>
      rw [first] at run
      cases others : rest.mapM f with
      | error e =>
        rw [others] at run
        cases run
      | ok bs =>
        rcases List.mem_cons.mp there with rfl | later
        · exact ⟨b, first⟩
        · exact ih others y later

/-- Items divided into two lists, each of which keeps their order. -/
structure Divides (items found others : List Nat) : Prop where
  kept : found.Sublist items
  left : others.Sublist items
  all : (found ++ others).Perm items

theorem divides_filter (items : List Nat) (test : Nat → Bool) :
    Divides items (items.filter test) (items.filter fun t => !test t) :=
  ⟨List.filter_sublist, List.filter_sublist, List.filter_append_perm test items⟩

/-- **The types of a registry are asked without side effects**: in a set of worlds, to which the
present one belongs whatever numbers its objects have, each of them is answered in one way, and the
answer leads to a world of the set. -/
def AskedFreely (w : World) (r : Nat) (spec : Value) : Prop :=
  ∃ S : World → Prop, (∀ u, w.Renumbered u → S u) ∧
    ∀ t ∈ w.typesOf r, Uniform S (meets d w spec (.type t))

/-- **A specification and its negation share the types among them**, each in the order of
registration: a type is found by the first if it meets the specification, and by the second if not.
Where the specification is refused, or a type cannot be asked, both searches fail alike. -/
theorem typesWhere_partition {w : World} {r : Nat} {spec : Value} (free : AskedFreely d w r spec) :
    (∃ e, (exec (typesWhere d r spec) w).1 = .error e ∧
      (exec (typesWhere d r (notSpec spec)) w).1 = .error e) ∨
    ∃ found others, (exec (typesWhere d r spec) w).1 = .ok found ∧
      (exec (typesWhere d r (notSpec spec)) w).1 = .ok others ∧
      Divides (w.typesOf r) found others ∧
      (∀ t ∈ found, (exec (meets d w spec (.type t)) w).1 = .ok true) ∧
      ∀ t ∈ others, (exec (meets d w spec (.type t)) w).1 = .ok false := by
  obtain ⟨S, renumbered, uniform⟩ := free
  unfold typesWhere
  rw [compilePredicate_notSpec, bind_map_left]
  rcases compiled : exec (compilePredicate d spec) w with ⟨e | p, w₁⟩
  · rw [exec_bind_error compiled, exec_bind_error compiled]
    exact .inl ⟨e, rfl, rfl⟩
  · obtain ⟨near, met⟩ := compilePredicate_means d compiled
    have types : w₁.typesOf r = w.typesOf r := by
      obtain ⟨n, rfl⟩ := near
      rfl
    rw [exec_bind_ok compiled, exec_bind_ok compiled, exec_bind_ok (exec_get w₁),
      exec_bind_ok (exec_get w₁), types]
    simp only [holds_negation, met]
    -- one search keeps the answers, the other one turns them round
    have inside := renumbered w (.refl w)
    have kept := filterM_of_uniform inside id uniform (renumbered w₁ near)
    have turned := filterM_of_uniform inside Bool.not uniform (renumbered w₁ near)
    simp only [id_map] at kept
    rw [kept, turned]
    cases asked : (w.typesOf r).mapM fun t => (exec (meets d w spec (.type t)) w).1 with
    | error e => exact .inl ⟨e, rfl, rfl⟩
    | ok _ =>
      have answers : ∀ t ∈ w.typesOf r, ∀ b,
          answerIn (fun t => meets d w spec (.type t)) w t = b →
            (exec (meets d w spec (.type t)) w).1 = .ok b := by
        rintro t there b rfl
        obtain ⟨b, given⟩ := ok_of_mapM _ asked t there
        rw [answerIn, given]
        rfl
      refine .inr ⟨_, _, rfl, rfl, divides_filter _ _, fun t there => ?_, fun t there => ?_⟩
      · obtain ⟨there, given⟩ := List.mem_filter.mp there
        exact answers t there true given
      · obtain ⟨there, given⟩ := List.mem_filter.mp there
        exact answers t there false (by simpa using given)

/-- **A compiled predicate means its specification.** Where a specification, nested to any depth, is
accepted, its predicate holds of an object by the very steps that read the specification from left
to right, no further than needed: with the same result or the same fault, after the same calls of
functions of providers in the same order, whatever these do. To compile it uses up numbers for new
objects and has no other effect.

So if a registry is asked without side effects, a search for a specification and one for its
negation find the types that meet it and those that do not, both in the order of registration. And
to say that it is not so that some specification of a list is met is to say that each of them is not
met: all steps are the same, of a match and of a search. -/
theorem predicate_means_specification (w : World) (spec : Value) :
    (∀ p w₁, exec (compilePredicate d spec) w = (.ok p, w₁) → w.Renumbered w₁ ∧
      ∀ obj, p.holds d obj = meets d w spec obj ∧
        exec (satisfies d obj spec) w = exec (meets d w spec obj) w₁) ∧
    (∀ r, AskedFreely d w r spec →
      (∃ e, (exec (typesWhere d r spec) w).1 = .error e ∧
        (exec (typesWhere d r (notSpec spec)) w).1 = .error e) ∨
      ∃ found others, (exec (typesWhere d r spec) w).1 = .ok found ∧
        (exec (typesWhere d r (notSpec spec)) w).1 = .ok others ∧
        Divides (w.typesOf r) found others ∧
        (∀ t ∈ found, (exec (meets d w spec (.type t)) w).1 = .ok true) ∧
        ∀ t ∈ others, (exec (meets d w spec (.type t)) w).1 = .ok false) ∧
    ∀ specs,
      (∀ obj, satisfies d obj (notSpec (anySpec specs)) = satisfies d obj (allNotSpec specs)) ∧
      ∀ r, typesWhere d r (notSpec (anySpec specs)) = typesWhere d r (allNotSpec specs) := by
  refine ⟨fun p w₁ accepted => ?_, fun r free => typesWhere_partition d free, fun specs =>
    ⟨fun obj => satisfies_noneOf d specs obj, fun r => typesWhere_noneOf d r specs⟩⟩
  obtain ⟨near, met⟩ := compilePredicate_means d accepted
  refine ⟨near, fun obj => ⟨met obj, ?_⟩⟩
  unfold satisfies
  rw [exec_bind_ok accepted, met]

/-- A provider whose functions tell whether they are given the first type. -/
def firstOnly : Provider := fun _ _ arguments _ =>
  match arguments with
  | [.type t] => pure (.bool (t == 0))
  | _ => throw .wrongType

/-- A function is true, and it is not so that something out of nothing is. -/
def nestedSpec : Value :=
  .ofFields [("$and", .fresh [.function 1 (some "first") .options [], notSpec (anySpec [])])]

/-- Of two types the first is found, and the second by the negation. -/
theorem predicate_means_nestedSpec :
    let d := firstOnly.dispatch 2
    let w := afterOperations d [(0, .define (bareDefinition "A" .null)),
      (0, .define (bareDefinition "B" .null))] .withRegistry
    exec (compilePredicate d nestedSpec) w
      = (.ok (.all [.test (.function 1 (some "first") .options []), .negation (.any [])]), w) ∧
    AskedFreely d w 0 nestedSpec ∧
    (exec (satisfies d (.type 0) nestedSpec) w).1 = .ok true ∧
    (∀ obj, exec (satisfies d obj nestedSpec) w = exec (meets d w nestedSpec obj) w) ∧
    (exec (typesWhere d 0 nestedSpec) w).1.toOption = some [0] ∧
    (exec (typesWhere d 0 (notSpec nestedSpec)) w).1.toOption = some [1] ∧
    Divides (w.typesOf 0) [0] [1] := by
  intro d w
  have accepted : exec (compilePredicate d nestedSpec) w
      = (.ok (.all [.test (.function 1 (some "first") .options []), .negation (.any [])]), w) := rfl
  have free : AskedFreely d w 0 nestedSpec :=
    ⟨fun _ => True, fun _ _ => trivial, fun t _ => ⟨.ok (t == 0), fun u _ => ⟨u, by
      cases t <;> rfl, trivial⟩⟩⟩
  have found : (exec (typesWhere d 0 nestedSpec) w).1.toOption = some [0] := by decide +kernel
  have others : (exec (typesWhere d 0 (notSpec nestedSpec)) w).1.toOption = some [1] := by
    decide +kernel
  obtain ⟨means, searches, -⟩ := predicate_means_specification d w nestedSpec
  obtain ⟨-, met⟩ := means _ w accepted
  refine ⟨accepted, free, by rfl, fun obj => (met obj).2, found, others, ?_⟩
  rcases searches 0 free with ⟨e, failed, -⟩ | ⟨ids, rest, kept, turned, divided, -⟩
  · rw [failed] at found
    cases found
  · rw [kept] at found
    rw [turned] at others
    obtain rfl := Option.some.inj found
    obtain rfl := Option.some.inj others
    exact divided

end DataShape
