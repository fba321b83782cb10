import DataShape.Predicate
import DataShape.Proofs.Execution

/-! # What a match specification means

`compilePredicate` turns a specification into a predicate, which is evaluated later. Here is what
the specification says of an object by itself: it is read from left to right, no further than the
answer needs, and nothing is compiled.

* `meetsSpec` — the reading of a specification, one case for each of its shapes.
* `meets` — the reading of the specification that a value is in a world.
* `World.Renumbered` — all that an accepted specification changes when it is compiled.
* `compilePredicate_means` — the predicate of an accepted specification holds where the
  specification is met, as one and the same action. -/

namespace DataShape

/-! ## The reading -/

variable (d : Dispatch)

/-- A dotted path leads to a defined value. -/
def hasPath (path : String) (obj : Value) : Action Bool := do
  return (← resolvePath d obj path .missing).isPresent

/-- An object has the expected entries, and the expected mappings inside them likewise. -/
def hasEntries (expected : Entries) (obj : Value) : Action Bool :=
  matchesEntries d (matchesPart d matchDepth) expected obj

section Reading

variable (meetsLive : Part → Value → Action Bool)

mutual

/-- An object meets a specification, given what it means to meet the live parts of objects. -/
def meetsSpec : Value → Value → Action Bool
  | .null, obj => hasPath d "py_type" obj
  | .missing, obj => hasPath d "py_type" obj
  | .str path, obj => hasPath d path obj
  | .list _ specs, obj => meetsAll specs obj
  | .tuple specs, obj => meetsAll specs obj
  | .dict _ entries, obj => meetsMapping entries obj
  | .live part _, obj => meetsLive part obj
  | .predicate p, obj => p.holds d obj
  | function, obj => do truthOf d (← d.call function [obj] [])
termination_by structural spec => spec

/-- An object meets all of some specifications; those behind the first one that it does not meet are
not read. -/
def meetsAll : List Value → Value → Action Bool
  | [], _ => pure true
  | spec :: rest, obj => do
      if ← meetsSpec spec obj then meetsAll rest obj else return false
termination_by structural specs => specs

/-- An object meets some specification; those behind the first one that it meets are not read. -/
def meetsAny : List Value → Value → Action Bool
  | [], _ => pure false
  | spec :: rest, obj => do
      if ← meetsSpec spec obj then return true else meetsAny rest obj
termination_by structural specs => specs

/-- A mapping is an operator with its operand, or the entries that an object should have. -/
def meetsMapping : List (Value × Value) → Value → Action Bool
  | [], obj => hasEntries d [] obj
  | entry :: rest, obj =>
      if isOperatorKey entry.1 then meetsOperator entry obj else hasEntries d (entry :: rest) obj
termination_by structural entries => entries

/-- The operand of an operator is one specification, or a sequence of them. -/
def meetsOperator : Value × Value → Value → Action Bool
  | (key, operand), obj =>
      if key == .str "$not" then do return !(← meetsSpec operand obj)
      else if key == .str "$or" then meetsSome operand obj
      else meetsEvery operand obj
termination_by structural entry => entry

/-- Some specification of a sequence is met. -/
def meetsSome : Value → Value → Action Bool
  | .list _ specs, obj => meetsAny specs obj
  | .tuple specs, obj => meetsAny specs obj
  | _, _ => throw .wrongType
termination_by structural operand => operand

/-- All specifications of a sequence are met. -/
def meetsEvery : Value → Value → Action Bool
  | .list _ specs, obj => meetsAll specs obj
  | .tuple specs, obj => meetsAll specs obj
  | _, _ => throw .wrongType
termination_by structural operand => operand

end

/-- To meet all specifications of a sequence is a conjunction that stops at the first failure. -/
theorem meetsAll_eq_allM (specs : List Value) (obj : Value) :
    meetsAll d meetsLive specs obj = specs.allM fun spec => meetsSpec d meetsLive spec obj := by
  induction specs with
  | nil => rw [meetsAll, List.allM]
  | cons spec rest ih =>
    rw [meetsAll, List.allM, ih]
    refine bind_congr fun met => ?_
    cases met <;> rfl

/-- To meet one of them is a disjunction that stops at the first success. -/
theorem meetsAny_eq_anyM (specs : List Value) (obj : Value) :
    meetsAny d meetsLive specs obj = specs.anyM fun spec => meetsSpec d meetsLive spec obj := by
  induction specs with
  | nil => rw [meetsAny, List.anyM]
  | cons spec rest ih =>
    rw [meetsAny, List.anyM, ih]
    refine bind_congr fun met => ?_
    cases met <;> rfl

end Reading

/-- An object meets the mapping that a live part is in a world, down to a depth of parts inside
parts. -/
def meetsPart (w : World) : Nat → Part → Value → Action Bool
  | 0, _, _ => throw .tooDeep
  | depth + 1, part, obj => meetsMapping d (meetsPart w depth) (w.partEntries part) obj

/-- An object meets the specification that a value is in a world: where the value is, or contains, a
live part of an object, it stands for the mapping that the part is there. -/
def meets (w : World) (spec obj : Value) : Action Bool :=
  meetsSpec d (meetsPart d w (w.partDepth + 1)) spec obj

/-! ## Compilation means the reading -/

/-- Worlds that differ in the number of the next new object only. -/
def World.Renumbered (w u : World) : Prop := ∃ n, u = { w with nextIdentity := n }

theorem World.Renumbered.refl (w : World) : w.Renumbered w := ⟨w.nextIdentity, rfl⟩

namespace World.Renumbered

variable {w u : World} (h : w.Renumbered u)

include h

theorem partEntries (part : Part) : u.partEntries part = w.partEntries part := by
  obtain ⟨n, rfl⟩ := h
  cases part with
  | tableEntries owner => cases owner <;> rfl
  | _ => rfl

theorem partDepth : u.partDepth = w.partDepth := by
  obtain ⟨n, rfl⟩ := h
  rfl

end World.Renumbered

/-- Whatever an action gives, from a world as it is up to numbers of objects, has a property, and
nothing but such numbers is used up. -/
structure Means {α : Type} (w : World) (compile : Action α) (good : α → Prop) : Prop where
  of_run : ∀ u, w.Renumbered u → ∀ x u', exec compile u = (.ok x, u') → w.Renumbered u' ∧ good x

section Means

variable {d} {α β : Type} {w : World} {good : α → Prop} {good' : β → Prop}

theorem means_pure {x : α} (holds : good x) : Means w (pure x) good := by
  refine ⟨fun u near x' u' run => ?_⟩
  obtain ⟨rfl, rfl⟩ := exec_pure_eq_ok.mp run
  exact ⟨near, holds⟩

/-- What is refused has no meaning to keep. -/
theorem means_refuse (cause : PredicateFault) (spec : Value) :
    Means w (refusePredicate d cause spec) good := by
  refine ⟨fun u _ x u' run => ?_⟩
  obtain ⟨e, failed⟩ := exec_bind_throw (β := α) (shown d spec) (fun t => .predicate cause t) u
  exact absurd (failed.symm.trans run) nofun

/-- A refusal that first looks for its words. -/
theorem means_refuse_after {γ : Type} (look : Action γ) (cause : γ → PredicateFault)
    (spec : Value) : Means w (look >>= fun x => refusePredicate d (cause x) spec) good := by
  refine ⟨fun u _ x u' run => ?_⟩
  obtain ⟨y, u₁, -, run⟩ := exec_bind_eq_ok.mp run
  obtain ⟨e, failed⟩ := exec_bind_throw (β := α) (shown d spec) (fun t => .predicate (cause y) t) u₁
  exact absurd (failed.symm.trans run) nofun

theorem Means.bind {a : Action α} {f : α → Action β} (first : Means w a good)
    (second : ∀ x, good x → Means w (f x) good') : Means w (a >>= f) good' := by
  refine ⟨fun u near y u' run => ?_⟩
  obtain ⟨x, u₁, ran, run⟩ := exec_bind_eq_ok.mp run
  obtain ⟨near₁, holds⟩ := first.of_run u near x u₁ ran
  exact (second x holds).of_run u₁ near₁ y u' run

theorem Means.mono {a : Action α} {good' : α → Prop} (means : Means w a good)
    (weaker : ∀ x, good x → good' x) : Means w a good' := by
  refine ⟨fun u near x u' run => ?_⟩
  obtain ⟨near', holds⟩ := means.of_run u near x u' run
  exact ⟨near', weaker x holds⟩

theorem Means.map {a : Action α} {f : α → β} (means : Means w a good)
    (carried : ∀ x, good x → good' (f x)) : Means w (f <$> a) good' := by
  rw [← bind_pure_comp]
  exact means.bind fun x holds => means_pure (carried x holds)

theorem means_throw (e : Fault) : Means w (throw e) good := ⟨fun _ _ _ _ run => nomatch run⟩

theorem means_newIdentity : Means w newIdentity fun _ => True := by
  refine ⟨?_⟩
  rintro u ⟨n, rfl⟩ x u' run
  obtain ⟨-, rfl⟩ := Prod.mk.inj run
  exact ⟨⟨n + 1, rfl⟩, trivial⟩

end Means

section Correctness

set_option linter.unusedSectionVars false

variable {w : World} {compileLive : Part → Bool → Action Predicate}
  {meetsLive : Part → Value → Action Bool}

/-- A mapping without operators asks for its entries. -/
theorem means_compileEntries (spec : Value) (entries : Entries) :
    Means w (compileEntries d spec entries) fun p => p.holds d = hasEntries d entries := by
  unfold compileEntries
  dsimp only
  split
  · refine means_newIdentity.bind fun n _ => means_pure ?_
    funext obj
    rw [Predicate.holds, hasEntries]
  · exact means_refuse_after _ _ spec

/-- A value of no other shape is a function that is asked. -/
theorem means_compileTest (spec : Value) : Means w (compileTest d spec) fun p =>
    p.holds d = fun obj => d.call spec [obj] [] >>= truthOf d := by
  unfold compileTest
  split
  · refine means_pure ?_
    funext obj
    rw [Predicate.holds]
  · exact means_refuse_after _ _ spec

theorem holds_present (path : String) : (Predicate.present path).holds d = hasPath d path := by
  funext obj
  rw [Predicate.holds, hasPath]

variable (live : ∀ part readOnly,
  Means w (compileLive part readOnly) fun p => p.holds d = meetsLive part)

include live

mutual

/-- **Compiling keeps the meaning.** By induction on the specification, together with its parts:
sequences of specifications, entries and operands. -/
theorem means_compileSpec : ∀ spec : Value,
    Means w (compileSpec d compileLive spec) fun p => p.holds d = meetsSpec d meetsLive spec
  | .null | .missing => by
    rw [compileSpec]
    refine means_pure (funext fun obj => ?_)
    rw [holds_present, meetsSpec]
  | .str path => by
    rw [compileSpec]
    split
    · exact means_refuse _ _
    · refine means_pure (funext fun obj => ?_)
      rw [holds_present, meetsSpec]
  | .list _ specs | .tuple specs => by
    rw [compileSpec]
    refine (means_compileParts specs).map fun ps met => funext fun obj => ?_
    rw [Predicate.holds, meetsSpec]
    exact (met obj).1
  | .dict share entries => by
    rw [compileSpec]
    have meaning : meetsSpec d meetsLive (.dict share entries) = meetsMapping d meetsLive entries :=
      funext fun obj => by rw [meetsSpec]
    rw [meaning]
    exact means_compileMapping (.dict share entries) entries
  | .live part readOnly => by
    have meaning : meetsSpec d meetsLive (.live part readOnly) = meetsLive part :=
      funext fun obj => by rw [meetsSpec]
    rw [compileSpec, meaning]
    exact live part readOnly
  | .predicate p => by
    rw [compileSpec]
    refine means_pure (funext fun obj => ?_)
    rw [meetsSpec]
  | .bool _ | .int _ | .float _ | .bytes _ | .date _ | .datetime _ | .time _ | .option _
  | .record .. | .native _ | .target _ | .type _ | .schema _ | .field _ | .registry _ | .table _
  | .function .. | .static .. | .bound .. | .method .. | .capability .. => by
    rw [compileSpec]
    · refine (means_compileTest d _).mono fun p met => met.trans (funext fun obj => ?_)
      rw [meetsSpec] <;> exact nofun
    all_goals exact nofun
termination_by structural spec => spec

/-- The parts of a conjunction and of a disjunction are compiled in the same way. -/
theorem means_compileParts : ∀ specs : List Value,
    Means w (compileParts d compileLive specs) fun ps => ∀ obj,
      allHold d ps obj = meetsAll d meetsLive specs obj ∧
      anyHolds d ps obj = meetsAny d meetsLive specs obj
  | [] => by
    rw [compileParts]
    refine means_pure fun obj => ?_
    rw [allHold, anyHolds, meetsAll, meetsAny]
    exact ⟨rfl, rfl⟩
  | spec :: rest => by
    rw [compileParts]
    refine (means_compileSpec spec).bind fun p first => ?_
    refine (means_compileParts rest).bind fun ps others => means_pure fun obj => ?_
    obtain ⟨all, any⟩ := others obj
    rw [allHold, anyHolds, meetsAll, meetsAny, first, all, any]
    exact ⟨rfl, rfl⟩
termination_by structural specs => specs

theorem means_compileMapping (spec : Value) : ∀ entries : List (Value × Value),
    Means w (compileMapping d compileLive spec entries) fun p =>
      p.holds d = meetsMapping d meetsLive entries
  | [] => by
    have meaning : meetsMapping d meetsLive [] = hasEntries d [] :=
      funext fun obj => by rw [meetsMapping]
    rw [compileMapping, meaning]
    exact means_compileEntries d spec []
  | entry :: rest => by
    rw [compileMapping]
    split
    next operator =>
      split
      next alone =>
        -- the only key is the operator
        obtain rfl : rest = [] := List.isEmpty_iff.mp alone
        have key : isOperatorKey entry.1 = true := by simpa [Table.keys] using operator
        have meaning : meetsMapping d meetsLive [entry] = meetsOperator d meetsLive entry :=
          funext fun obj => by rw [meetsMapping, if_pos key]
        rw [meaning]
        exact means_compileEntry spec entry key
      next =>
        unfold refuseMixed
        split
        · exact means_throw _
        · exact means_refuse_after _ _ spec
    next plain =>
      have key : ¬ isOperatorKey entry.1 = true := by
        intro operator
        exact plain (by simp [Table.keys, operator])
      have meaning : meetsMapping d meetsLive (entry :: rest) = hasEntries d (entry :: rest) :=
        funext fun obj => by rw [meetsMapping, if_neg key]
      rw [meaning]
      exact means_compileEntries d spec (entry :: rest)
termination_by structural entries => entries

theorem means_compileEntry (spec : Value) : ∀ entry : Value × Value,
    isOperatorKey entry.1 = true → Means w (compileEntry d compileLive spec entry) fun p =>
      p.holds d = meetsOperator d meetsLive entry
  | (key, operand), _ => by
    rw [compileEntry]
    split
    next negated =>
      refine (means_compileSpec operand).map fun p met => funext fun obj => ?_
      rw [Predicate.holds, met, meetsOperator, if_pos negated]
    next other =>
      refine (means_compileOperand operand).bind fun parts met => ?_
      cases parts with
      | none => exact means_refuse_after _ _ spec
      | some ps =>
        refine means_pure (funext fun obj => ?_)
        obtain ⟨all, any⟩ := met ps rfl obj
        rw [meetsOperator, if_neg other]
        split
        · rw [Predicate.holds, any]
        · rw [Predicate.holds, all]
termination_by structural entry => entry

theorem means_compileOperand : ∀ operand : Value,
    Means w (compileOperand d compileLive operand) fun parts => ∀ ps, parts = some ps → ∀ obj,
      allHold d ps obj = meetsEvery d meetsLive operand obj ∧
      anyHolds d ps obj = meetsSome d meetsLive operand obj
  | .list _ specs | .tuple specs => by
    rw [compileOperand]
    refine (means_compileParts specs).map fun qs met ps same obj => ?_
    obtain rfl := Option.some.inj same
    rw [meetsEvery, meetsSome]
    exact met obj
  | .null | .missing | .bool _ | .int _ | .float _ | .str _ | .bytes _ | .date _ | .datetime _
  | .time _ | .dict .. | .live .. | .option _ | .record .. | .native _ | .target _ | .type _
  | .schema _ | .field _ | .registry _ | .table _ | .function .. | .static .. | .bound ..
  | .method .. | .capability .. | .predicate _ => by
    rw [compileOperand]
    · exact means_pure nofun
    all_goals exact nofun
termination_by structural operand => operand

end

end Correctness

/-- Live parts are compiled as the mappings that they are. By induction on the depth. -/
theorem means_compilePart (w : World) (depth : Nat) : ∀ part readOnly,
    Means w (compilePart d depth part readOnly) fun p => p.holds d = meetsPart d w depth part := by
  induction depth with
  | zero =>
    intro part readOnly
    rw [compilePart]
    exact means_throw _
  | succ depth ih =>
    refine fun part readOnly => ⟨fun u near p u' run => ?_⟩
    rw [compilePart, exec_bind_ok (exec_get u), near.partEntries part] at run
    obtain ⟨near', met⟩ :=
      (means_compileMapping d ih (.live part readOnly) (w.partEntries part)).of_run u near p u' run
    refine ⟨near', met.trans (funext fun obj => ?_)⟩
    rw [meetsPart]

/-- **An accepted specification is compiled to its meaning.** The predicate is evaluated by the very
action that reads the specification. Nothing but a number for it is used up. -/
theorem compilePredicate_means {w w₁ : World} {spec : Value} {p : Predicate}
    (accepted : exec (compilePredicate d spec) w = (.ok p, w₁)) :
    w.Renumbered w₁ ∧ ∀ obj, p.holds d obj = meets d w spec obj := by
  have live : ∀ part readOnly, Means w
      (do compilePart d ((← get).partDepth + 1) part readOnly) fun p =>
        p.holds d = meetsPart d w (w.partDepth + 1) part := by
    refine fun part readOnly => ⟨fun u near p u' run => ?_⟩
    rw [exec_bind_ok (exec_get u), near.partDepth] at run
    exact (means_compilePart d w _ part readOnly).of_run u near p u' run
  obtain ⟨near, met⟩ := (means_compileSpec d live spec).of_run w (.refl w) p w₁ accepted
  exact ⟨near, fun obj => by rw [met, meets]⟩

end DataShape
