import DataShape.Proofs.Predicate.Meaning
import DataShape.Proofs.Schema.Quiet
import DataShape.Proofs.Schema.Run
import DataShape.Proofs.Wording
import Mathlib.Data.Finset.Card
import Mathlib.Logic.Relation

/-! # The grammar of match specifications

Which values are match specifications is said here without a run: by the shape of a value and of its
parts. A live part of an object stands for the mapping that it is. Compilation accepts just these
values, if they are finite, and refuses others at some malformed part.

* `World.Accepted` — the grammar.
* `World.IsPart`, `World.reach` — the specifications inside a specification, and the live parts
  among them, which are left one by one on the way inwards.
* `World.Malformed`, `World.Faults` — what the grammar has no place for, and the faults that it
  ends in.
* `Value.Inert.finite` — data is finite.
* `decides_compileSpec` — one case for each shape of a specification.
* `compilePredicate_grammar` — compilation decides the grammar, and which faults it ends in. -/

namespace DataShape

open Relation (ReflTransGen TransGen)

/-! ## The grammar -/

namespace World

variable (w : World)

/-- A value is a match specification. -/
inductive Accepted : Value → Prop where
  | compiled (p : Predicate) : Accepted (.predicate p)
  | null : Accepted .null
  | missing : Accepted .missing
  | path {s : String} (given : s ≠ "") : Accepted (.str s)
  | sequence {v : Value} {specs : List Value} (items : v.sequence? = some specs)
      (parts : ∀ s ∈ specs, Accepted s) : Accepted v
  | negation {v s : Value} (mapping : w.mapping? v = some [(.str "$not", s)])
      (part : Accepted s) : Accepted v
  | combination {v operand : Value} {op : String} {specs : List Value}
      (mapping : w.mapping? v = some [(.str op, operand)]) (operator : op = "$or" ∨ op = "$and")
      (items : operand.sequence? = some specs) (parts : ∀ s ∈ specs, Accepted s) : Accepted v
  | entries {v : Value} {entries : Entries} (mapping : w.mapping? v = some entries)
      (plain : ∀ s, .str s ∈ Table.keys entries → s.toList.head? ≠ some '$') : Accepted v
  | test {v : Value} (single : w.mapping? v = none) (callable : v.isCallable = true) : Accepted v

/-- A specification is a direct part of another one. -/
inductive IsPart : Value → Value → Prop where
  | item {v s : Value} {specs : List Value} (items : v.sequence? = some specs)
      (there : s ∈ specs) : IsPart s v
  | negated {v s : Value} (mapping : w.mapping? v = some [(.str "$not", s)]) : IsPart s v
  | combined {v s operand : Value} {op : String} {specs : List Value}
      (mapping : w.mapping? v = some [(.str op, operand)]) (operator : op = "$or" ∨ op = "$and")
      (items : operand.sequence? = some specs) (there : s ∈ specs) : IsPart s v

/-- A value is a mapping in which an operator is not the only key. -/
structure Mixes (v : Value) (entries : Entries) : Prop where
  mapping : w.mapping? v = some entries
  operator : (Table.keys entries).any isOperatorKey = true
  others : entries.length ≠ 1

/-- A value that the grammar has no place for, whatever its parts are, with the values that the
message about it shows before it shows the value itself, and what the message says. -/
inductive Malformed : Value → List Value → (List String → PredicateFault) → Prop where
  | path : Malformed (.str "") [] fun _ => .emptyPath
  | mixed {v : Value} {entries : Entries} {sorted : List Value} (mixes : w.Mixes v entries)
      (order : sorted? (Table.keys entries) = some sorted) :
      Malformed v [.fresh sorted] fun texts =>
        .mixedOperator (firstOperator (Table.keys entries)) (texts.headD "")
  | operand {v operand : Value} {op : String}
      (mapping : w.mapping? v = some [(.str op, operand)]) (operator : op = "$or" ∨ op = "$and")
      (single : operand.sequence? = none) :
      Malformed v [operand] fun texts => .operandNotSequence op (texts.headD "")
  | unknown {v : Value} {entries : Entries} (mapping : w.mapping? v = some entries)
      (plain : (Table.keys entries).any isOperatorKey = false)
      (unknown : operatorLike (Table.keys entries) ≠ []) :
      Malformed v [.fresh (operatorLike (Table.keys entries))] fun texts =>
        .unknownOperators (texts.headD "")
  | shapeless {v : Value} (compiled : ∀ p, v ≠ .predicate p) (present : v.isPresent = true)
      (text : v.text? = none) (sequence : v.sequence? = none) (mapping : w.mapping? v = none)
      (callable : v.isCallable = false) :
      Malformed v [v] fun texts => .unsupported (texts.headD "")

/-- The faults that a malformed value ends in. Its message shows values in a world that differs from
the present one in the number of the next new object. -/
inductive Faults (d : Dispatch) (v : Value) : Fault → Prop where
  /-- The message would show the keys in order, but they have none. -/
  | unordered {entries : Entries} (mixes : w.Mixes v entries)
      (unordered : sorted? (Table.keys entries) = none) : Faults d v .wrongType
  /-- A value that the message shows has no text. -/
  | unshown {named : List Value} {cause : List String → PredicateFault} {u : World} {e : Fault}
      (malformed : w.Malformed v named cause) (near : w.Renumbered u)
      (run : (exec (shownItems d (named ++ [v])) u).1 = .error e) : Faults d v e
  | refused {named : List Value} {cause : List String → PredicateFault} {u : World}
      {texts : List String} (malformed : w.Malformed v named cause) (near : w.Renumbered u)
      (run : (exec (shownItems d (named ++ [v])) u).1 = .ok texts) :
      Faults d v (.predicate (cause texts) (texts.getLastD ""))

/-- The faults that a specification ends in by a malformed value in it. -/
def Refuses (d : Dispatch) (spec : Value) (e : Fault) : Prop :=
  ∃ v, ReflTransGen w.IsPart v spec ∧ w.Faults d v e

end World

/-! ## Operators -/

/-- There are three operators, all of them texts. -/
theorem isOperatorKey_iff (key : Value) :
    isOperatorKey key = true ↔ key = .str "$or" ∨ key = .str "$and" ∨ key = .str "$not" := by
  have same : ∀ s : String, (Value.str s).same key = true ↔ key = .str s := by
    intro s
    cases key with
    | str t =>
      simp only [Value.same, Value.identical, Value.eq, Bool.or_self, beq_iff_eq, Value.str.injEq]
      exact eq_comm
    | _ => simp [Value.same, Value.identical, Value.eq]
  simp [isOperatorKey, Value.isIn, predicateOperators, same]

/-- Operators look like operators. -/
theorem isOperatorKey_of_plain {keys : List Value}
    (plain : ∀ s, .str s ∈ keys → s.toList.head? ≠ some '$') : keys.any isOperatorKey = false := by
  rw [List.any_eq_false]
  intro key there operator
  rcases (isOperatorKey_iff key).mp operator with rfl | rfl | rfl <;>
    exact plain _ there (by decide)

theorem operatorLike_eq_nil_iff (keys : List Value) :
    operatorLike keys = [] ↔ ∀ s, .str s ∈ keys → s.toList.head? ≠ some '$' := by
  rw [operatorLike, List.filter_eq_nil_iff]
  constructor
  · intro none s there
    simpa [Value.text?] using none _ there
  · intro plain key there
    cases key with
    | str s => simpa [Value.text?] using plain s there
    | _ => simp [Value.text?]

namespace World

variable {w : World}

/-! ## What is not accepted -/

/-- A sequence is neither a mapping nor a function. -/
theorem mapping?_of_sequence {v : Value} {specs : List Value} (items : v.sequence? = some specs) :
    w.mapping? v = none := by
  cases v <;> first
    | rfl
    | cases items

theorem isCallable_of_sequence {v : Value} {specs : List Value}
    (items : v.sequence? = some specs) : v.isCallable = false := by
  cases v <;> first
    | rfl
    | cases items

/-- A mapping is an operator with its operand, or it has no key that looks like an operator. -/
theorem Accepted.of_mapping {v : Value} {entries : Entries} (accepted : w.Accepted v)
    (mapping : w.mapping? v = some entries) :
    (∃ s, entries = [(.str "$not", s)] ∧ w.Accepted s) ∨
    (∃ op operand specs, entries = [(.str op, operand)] ∧ (op = "$or" ∨ op = "$and") ∧
      operand.sequence? = some specs ∧ ∀ s ∈ specs, w.Accepted s) ∨
    ∀ s, .str s ∈ Table.keys entries → s.toList.head? ≠ some '$' := by
  cases accepted with
  | compiled | null | missing | path => cases mapping
  | sequence items => cases (mapping?_of_sequence items).symm.trans mapping
  | negation mapping' part =>
    obtain rfl := Option.some.inj (mapping.symm.trans mapping')
    exact .inl ⟨_, rfl, part⟩
  | combination mapping' operator items parts =>
    obtain rfl := Option.some.inj (mapping.symm.trans mapping')
    exact .inr (.inl ⟨_, _, _, rfl, operator, items, parts⟩)
  | entries mapping' plain =>
    obtain rfl := Option.some.inj (mapping.symm.trans mapping')
    exact .inr (.inr plain)
  | test single => cases single.symm.trans mapping

/-- The items of a sequence are accepted with it. -/
theorem Accepted.of_sequence {v : Value} {specs : List Value} (accepted : w.Accepted v)
    (items : v.sequence? = some specs) : ∀ s ∈ specs, w.Accepted s := by
  have single : w.mapping? v = none := mapping?_of_sequence items
  cases accepted with
  | compiled | null | missing | path => cases items
  | sequence items' parts =>
    obtain rfl := Option.some.inj (items.symm.trans items')
    exact parts
  | negation mapping | combination mapping | entries mapping => cases single.symm.trans mapping
  | test _ callable => cases (isCallable_of_sequence items).symm.trans callable

/-- The operand of a negation is accepted with it. -/
theorem Accepted.of_negation {v s : Value} (accepted : w.Accepted v)
    (mapping : w.mapping? v = some [(.str "$not", s)]) : w.Accepted s := by
  rcases accepted.of_mapping mapping with ⟨s', same, part⟩ | ⟨op, x, -, same, operator, -⟩ | plain
  · obtain rfl : s = s' := by simpa using same
    exact part
  · obtain ⟨rfl, -⟩ : "$not" = op ∧ s = x := by simpa using same
    simp at operator
  · exact absurd (by decide) (plain "$not" List.mem_cons_self)

/-- So are the parts of a combination. -/
theorem Accepted.of_combination {v operand : Value} {op : String} {specs : List Value}
    (accepted : w.Accepted v) (mapping : w.mapping? v = some [(.str op, operand)])
    (operator : op = "$or" ∨ op = "$and") (items : operand.sequence? = some specs) :
    ∀ s ∈ specs, w.Accepted s := by
  rcases accepted.of_mapping mapping with
    ⟨s, same, -⟩ | ⟨op', x, specs', same, -, items', parts⟩ | plain
  · obtain ⟨rfl, -⟩ : op = "$not" ∧ operand = s := by simpa using same
    simp at operator
  · obtain ⟨-, rfl⟩ : op = op' ∧ operand = x := by simpa using same
    obtain rfl := Option.some.inj (items.symm.trans items')
    exact parts
  · rcases operator with rfl | rfl <;> exact absurd (by decide) (plain _ List.mem_cons_self)

/-- Nor is it accepted if an operator is not its only key. -/
theorem Mixes.not_accepted {v : Value} {entries : Entries} (mixes : w.Mixes v entries) :
    ¬ w.Accepted v := by
  intro accepted
  rcases accepted.of_mapping mixes.mapping with ⟨s, rfl, -⟩ | ⟨op, operand, specs, rfl, -⟩ | plain
  · exact mixes.others rfl
  · exact mixes.others rfl
  · exact Bool.false_ne_true ((isOperatorKey_of_plain plain).symm.trans mixes.operator)

/-- What is malformed is not accepted. -/
theorem Malformed.not_accepted {v : Value} {named : List Value}
    {cause : List String → PredicateFault} (malformed : w.Malformed v named cause) :
    ¬ w.Accepted v := by
  intro accepted
  cases malformed with
  | mixed mixes => exact mixes.not_accepted accepted
  | path =>
    cases accepted with
    | path given => exact given rfl
    | sequence items => cases items
    | negation mapping | combination mapping | entries mapping => cases mapping
    | test single callable => cases callable
  | @operand v x op mapping operator single =>
    rcases accepted.of_mapping mapping with
      ⟨s, same, -⟩ | ⟨op', y, specs, same, -, items, -⟩ | plain
    · obtain rfl : op = "$not" := by simpa using congrArg (fun es => (Table.keys es)) same
      simp at operator
    · obtain ⟨⟨rfl, rfl⟩, -⟩ : (op = op' ∧ x = y) ∧ True := by simpa using same
      cases single.symm.trans items
    · rcases operator with rfl | rfl <;> exact plain _ List.mem_cons_self (by decide)
  | unknown mapping plain unknown =>
    rcases accepted.of_mapping mapping with
      ⟨s, rfl, -⟩ | ⟨op, operand, specs, rfl, operator, -⟩ | free
    · exact absurd plain (by simp [isOperatorKey_iff])
    · rcases operator with rfl | rfl <;> exact absurd plain (by simp [isOperatorKey_iff])
    · exact unknown ((operatorLike_eq_nil_iff _).mpr free)
  | shapeless compiled present text sequence mapping callable =>
    cases accepted with
    | compiled p => exact compiled p rfl
    | null | missing => cases present
    | path => cases text
    | sequence items => cases sequence.symm.trans items
    | negation mapping' | combination mapping' | entries mapping' =>
      cases mapping.symm.trans mapping'
    | test _ callable' => cases callable.symm.trans callable'

/-! ## Live parts on the way inwards -/

/-- The parts of all objects. -/
def parts (w : World) : List Part :=
  (List.range w.types.size).flatMap (fun n => [.typeAttributes n, .tableEntries (.type n)])
    ++ (List.range w.fields.size).map .fieldAttributes
    ++ (List.range w.schemas.size).flatMap (fun n => [.schemaFields n, .fieldLists n])
    ++ (List.range w.registries.size).flatMap fun n =>
      [.registryTypes n, .tableEntries (.registrySchemas n), .tableEntries (.registryFields n)]

theorem length_parts (w : World) : w.parts.length = w.partDepth := by
  simp [parts, partDepth, List.length_flatMap]
  omega

/-- There is an object of a number if something can be seen of it. -/
theorem lt_size_of_getD {α β : Type} {objects : Array α} {n : Nat} {x : α} {f : α → List β}
    (seen : f (objects.getD n x) ≠ []) (empty : f x = []) : n < objects.size := by
  by_contra outside
  rw [Array.getD_eq_getD_getElem?, Array.getElem?_eq_none (by omega)] at seen
  exact seen empty

/-- What has an entry is a part of an object. -/
theorem mem_parts {part : Part} (seen : w.partEntries part ≠ []) : part ∈ w.parts := by
  cases part with
  | typeAttributes n =>
    have lt : n < w.types.size := lt_size_of_getD (f := (·.attributes)) seen rfl
    simp [parts, lt]
  | fieldAttributes n =>
    have lt : n < w.fields.size := lt_size_of_getD (f := (·.attributes)) seen rfl
    simp [parts, lt]
  | schemaFields n =>
    have lt : n < w.schemas.size := lt_size_of_getD (f := (·.fields)) seen rfl
    simp [parts, lt]
  | fieldLists n =>
    have lt : n < w.schemas.size :=
      lt_size_of_getD (f := (·.fieldLists)) (fun none => seen (List.map_eq_nil_iff.mpr none)) rfl
    simp [parts, lt]
  | registryTypes n =>
    have lt : n < w.registries.size :=
      lt_size_of_getD (f := (·.types)) (fun none => seen (List.map_eq_nil_iff.mpr none)) rfl
    simp [parts, lt]
  | tableEntries owner =>
    cases owner with
    | type n =>
      have lt : n < w.types.size := lt_size_of_getD (f := (·.capabilities)) seen rfl
      simp [parts, lt]
    | registrySchemas n =>
      have lt : n < w.registries.size := lt_size_of_getD (f := (·.schemaCapabilities)) seen rfl
      simp [parts, lt]
    | registryFields n =>
      have lt : n < w.registries.size := lt_size_of_getD (f := (·.fieldCapabilities)) seen rfl
      simp [parts, lt]

open Classical in
/-- The parts of objects that lie in a specification, at any depth. -/
noncomputable def reach (w : World) (spec : Value) : Finset Part :=
  w.parts.toFinset.filter fun p => ∃ readOnly, ReflTransGen w.IsPart (.live p readOnly) spec

theorem mem_reach {spec : Value} {p : Part} : p ∈ w.reach spec ↔
    p ∈ w.parts ∧ ∃ readOnly, ReflTransGen w.IsPart (.live p readOnly) spec := by
  classical
  rw [reach, Finset.mem_filter, List.mem_toFinset]

theorem card_reach_le (w : World) (spec : Value) : (w.reach spec).card ≤ w.partDepth := by
  classical
  calc (w.reach spec).card ≤ w.parts.toFinset.card := Finset.card_filter_le _ _
    _ ≤ w.parts.length := w.parts.toFinset_card_le
    _ = w.partDepth := w.length_parts

/-- A part reaches no further than the whole. -/
theorem reach_subset {s spec : Value} (part : w.IsPart s spec) : w.reach s ⊆ w.reach spec := by
  intro p there
  obtain ⟨real, readOnly, inside⟩ := mem_reach.mp there
  exact mem_reach.mpr ⟨real, readOnly, inside.tail part⟩

/-- A live part and a view of it have the same parts. -/
theorem IsPart.view {s : Value} {p : Part} {readOnly : Bool} (part : w.IsPart s (.live p readOnly))
    (readOnly' : Bool) : w.IsPart s (.live p readOnly') := by
  cases part with
  | item items => cases items
  | negated mapping => exact .negated mapping
  | combined mapping operator items there => exact .combined mapping operator items there

/-- A live part with a specification in it has an entry. -/
theorem IsPart.partEntries_ne_nil {s : Value} {p : Part} {readOnly : Bool}
    (part : w.IsPart s (.live p readOnly)) : w.partEntries p ≠ [] := by
  intro empty
  cases part with
  | item items => cases items
  | negated mapping | combined mapping =>
    cases (congrArg some empty).symm.trans mapping

/-- A finite specification does not lie in itself. -/
theorem not_transGen_of_acc {v : Value} (finite : Acc w.IsPart v) : ¬ TransGen w.IsPart v v := by
  have founded := finite.transGen
  clear finite
  induction founded with
  | intro v _ ih => exact fun cycle => ih v cycle cycle

/-- On the way from a live part inwards the part itself is left. -/
theorem card_reach_lt {s : Value} {p : Part} {readOnly : Bool} (finite : Acc w.IsPart s)
    (part : w.IsPart s (.live p readOnly)) :
    (w.reach s).card < (w.reach (.live p readOnly)).card := by
  refine Finset.card_lt_card ⟨reach_subset part, fun all => ?_⟩
  have here : p ∈ w.reach (.live p readOnly) :=
    mem_reach.mpr ⟨mem_parts part.partEntries_ne_nil, readOnly, .refl⟩
  obtain ⟨-, readOnly', inside⟩ := mem_reach.mp (all here)
  exact not_transGen_of_acc finite (.head' (part.view readOnly') inside)

end World

/-! ## Finite specifications -/

namespace World

variable {w : World}

theorem finite_of_sequence {v : Value} {specs : List Value} (items : v.sequence? = some specs)
    (parts : ∀ s ∈ specs, Acc w.IsPart s) : Acc w.IsPart v := by
  have single : w.mapping? v = none := mapping?_of_sequence items
  refine .intro v fun s part => ?_
  cases part with
  | item items' there =>
    obtain rfl := Option.some.inj (items.symm.trans items')
    exact parts s there
  | negated mapping | combined mapping => cases single.symm.trans mapping

theorem finite_of_mapping {v : Value} {entries : Entries} (mapping : w.mapping? v = some entries)
    (values : ∀ x ∈ Table.values entries, Acc w.IsPart x) : Acc w.IsPart v := by
  refine .intro v fun s part => ?_
  cases part with
  | item items => cases (mapping?_of_sequence items).symm.trans mapping
  | negated mapping' =>
    obtain rfl := Option.some.inj (mapping.symm.trans mapping')
    exact values s List.mem_cons_self
  | combined mapping' operator items there =>
    obtain rfl := Option.some.inj (mapping.symm.trans mapping')
    exact (values _ List.mem_cons_self).inv (.item items there)

theorem finite_of_single {v : Value} (sequence : v.sequence? = none)
    (mapping : w.mapping? v = none) : Acc w.IsPart v := by
  refine .intro v fun s part => ?_
  cases part with
  | item items => cases sequence.symm.trans items
  | negated mapping' | combined mapping' => cases mapping.symm.trans mapping'

end World

/-- Data is finite. -/
theorem Value.Inert.finite {w : World} {v : Value} (inert : v.Inert) : Acc w.IsPart v := by
  induction inert with
  | @atom v h =>
    cases v <;> first
      | exact World.finite_of_single rfl rfl
      | cases h
  | list share _ ih => exact World.finite_of_sequence rfl ih
  | tuple _ ih => exact World.finite_of_sequence rfl ih
  | dict share _ ih => exact World.finite_of_mapping rfl ih
  | record | method => exact World.finite_of_single rfl rfl

/-! ## Decisions -/

/-- In a world, up to the numbers of new objects, an action gives a result where a condition holds,
and where it does not the action fails in one of some ways. -/
def Decides {α : Type} (w : World) (a : Action α) (accepted : Prop) (refused : Fault → Prop) :
    Prop :=
  ∀ u, w.Renumbered u →
    (accepted ∧ ∃ x u', exec a u = (.ok x, u') ∧ w.Renumbered u') ∨
    (¬ accepted ∧ ∃ e u', exec a u = (.error e, u') ∧ refused e)

section Decisions

variable {α β : Type} {w : World} {a : Action α} {accepted accepted' : Prop}
  {refused refused' : Fault → Prop}

theorem decides_pure (x : α) (holds : accepted) : Decides w (pure x) accepted refused :=
  fun u near => .inl ⟨holds, x, u, rfl, near⟩

theorem decides_throw {e : Fault} (fails : ¬ accepted) (told : refused e) :
    Decides w (throw e : Action α) accepted refused :=
  fun u _ => .inr ⟨fails, e, u, rfl, told⟩

theorem Decides.mono (decides : Decides w a accepted refused) (same : accepted ↔ accepted')
    (weaker : ∀ e, refused e → refused' e) : Decides w a accepted' refused' := by
  intro u near
  rcases decides u near with ⟨holds, given⟩ | ⟨fails, e, u', run, told⟩
  · exact .inl ⟨same.mp holds, given⟩
  · exact .inr ⟨mt same.mpr fails, e, u', run, weaker e told⟩

theorem Decides.of_iff (decides : Decides w a accepted refused) (same : accepted ↔ accepted') :
    Decides w a accepted' refused := decides.mono same fun _ => id

/-- A sequence gives a result where both conditions hold, and the first step that does not fails. -/
theorem Decides.bind {f : α → Action β} (first : Decides w a accepted refused)
    (second : ∀ x, Decides w (f x) accepted' refused) :
    Decides w (a >>= f) (accepted ∧ accepted') refused := by
  intro u near
  rcases first u near with ⟨holds, x, u₁, run, near₁⟩ | ⟨fails, e, u', run, told⟩
  · rw [exec_bind_ok run]
    rcases second x u₁ near₁ with ⟨holds', given⟩ | ⟨fails, failed⟩
    · exact .inl ⟨⟨holds, holds'⟩, given⟩
    · exact .inr ⟨fun both => fails both.2, failed⟩
  · exact .inr ⟨fun both => fails both.1, e, u', exec_bind_error run f, told⟩

theorem Decides.map {f : α → β} (decides : Decides w a accepted refused) :
    Decides w (f <$> a) accepted refused := by
  rw [← bind_pure_comp]
  exact (decides.bind fun x => decides_pure (f x) trivial).of_iff (by rw [and_true])

/-- Only the runs in worlds that differ in numbers matter. -/
theorem Decides.congr {b : Action α} (decides : Decides w b accepted refused)
    (same : ∀ u, w.Renumbered u → exec a u = exec b u) : Decides w a accepted refused := by
  intro u near
  rw [same u near]
  exact decides u near

end Decisions

/-! ## Refusals -/

section Refusals

variable {d : Dispatch} {w : World} {α : Type} {v : Value}

/-- A message is put together from the texts of the values in it. -/
theorem refusePredicate_eq (cause : PredicateFault) : (refusePredicate d cause v : Action α)
    = shownItems d [v] >>= fun texts => throw (.predicate cause (texts.getLastD "")) := by
  simp [refusePredicate, shownItems]

theorem refusePredicate_after (x : Value) (cause : String → PredicateFault) :
    (shown d x >>= fun text => refusePredicate d (cause text) v : Action α)
      = shownItems d [x, v] >>= fun texts =>
        throw (.predicate (cause (texts.headD "")) (texts.getLastD "")) := by
  simp [refusePredicate, shownItems]

/-- What is malformed is refused. -/
theorem decides_complaint {named : List Value} {cause : List String → PredicateFault}
    (malformed : w.Malformed v named cause) :
    Decides w (shownItems d (named ++ [v]) >>= fun texts =>
      (throw (.predicate (cause texts) (texts.getLastD "")) : Action α))
      (w.Accepted v) (w.Faults d v) := by
  intro u near
  refine .inr ⟨malformed.not_accepted, ?_⟩
  rw [exec_bind]
  rcases run : exec (shownItems d (named ++ [v])) u with ⟨e | texts, u'⟩
  · exact ⟨e, u', rfl, .unshown malformed near (congrArg Prod.fst run)⟩
  · exact ⟨_, u', rfl, .refused malformed near (congrArg Prod.fst run)⟩

theorem decides_refuseMixed {entries : Entries} (mixes : w.Mixes v entries) :
    Decides w (refuseMixed d (Table.keys entries) v : Action α) (w.Accepted v) (w.Faults d v) := by
  unfold refuseMixed
  cases order : sorted? (Table.keys entries) with
  | none => exact decides_throw mixes.not_accepted (.unordered mixes order)
  | some sorted =>
    dsimp only
    rw [refusePredicate_after]
    exact decides_complaint (.mixed mixes order)

/-- A mapping without operators is accepted unless a key looks like one. -/
theorem decides_compileEntries {entries : Entries} (mapping : w.mapping? v = some entries)
    (plain : (Table.keys entries).any isOperatorKey = false) :
    Decides w (compileEntries d v entries) (w.Accepted v) (w.Faults d v) := by
  unfold compileEntries
  dsimp only
  split
  next none =>
    have free := (operatorLike_eq_nil_iff _).mp (List.isEmpty_iff.mp none)
    rintro u ⟨n, rfl⟩
    exact .inl ⟨.entries mapping free, _, _, rfl, ⟨n + 1, rfl⟩⟩
  next some =>
    rw [refusePredicate_after]
    exact decides_complaint (.unknown mapping plain fun none => some (List.isEmpty_iff.mpr none))

/-- A value of no other shape is accepted if it can be called. -/
theorem decides_compileTest (compiled : ∀ p, v ≠ .predicate p) (present : v.isPresent = true)
    (text : v.text? = none) (sequence : v.sequence? = none) (mapping : w.mapping? v = none) :
    Decides w (compileTest d v) (w.Accepted v) (w.Faults d v) := by
  unfold compileTest
  split
  next callable => exact decides_pure _ (.test mapping callable)
  next other =>
    rw [refusePredicate_after]
    have silent : v.isCallable = false := by simpa using other
    exact decides_complaint (.shapeless compiled present text sequence mapping silent)

/-- In a plain world what is malformed is refused as a specification, unless its keys have no order
where they should be shown in order, or a value in the message is too long or too deep for it. -/
theorem World.Faults.of_plain {call : Provider} {depth : Nat} {e : Fault} (plain : w.Plain)
    (faults : w.Faults (call.dispatch depth) v e) : (∃ cause text, e = .predicate cause text) ∨
      (e = .wrongType ∧ ∃ entries, w.Mixes v entries ∧ sorted? (Table.keys entries) = none) ∨
      e.IsWording := by
  cases faults with
  | refused => exact .inl ⟨_, _, rfl⟩
  | unordered mixes unordered => exact .inr (.inl ⟨rfl, _, mixes, unordered⟩)
  | @unshown named cause u e _ near run =>
    obtain ⟨n, rfl⟩ := near
    have plain' : World.Plain { w with nextIdentity := n } :=
      ⟨plain.types, plain.fields, plain.schemas⟩
    exact .inr (.inr ((words_shownItems (call.words_display depth) _ plain').2 e run))

end Refusals

/-! ## Compilation -/

section Compilation

variable {d : Dispatch} {w : World} {live : Part → Bool → Action Predicate}

/-- What is malformed is refused for itself. -/
theorem Decides.refuses {α : Type} {a : Action α} {accepted : Prop} {v : Value}
    (decides : Decides w a accepted (w.Faults d v)) : Decides w a accepted (w.Refuses d v) :=
  decides.mono Iff.rfl fun _ faults => ⟨v, .refl, faults⟩

/-- What a part is refused for is what the whole is refused for. -/
theorem World.Refuses.of_part {s spec : Value} {e : Fault} (refuses : w.Refuses d s e)
    (part : w.IsPart s spec) : w.Refuses d spec e := by
  obtain ⟨v, inside, faults⟩ := refuses
  exact ⟨v, inside.tail part, faults⟩

/-- Specifications are compiled one after the other, up to the first that is refused. -/
theorem decides_compileParts {refused : Fault → Prop} {specs : List Value}
    (each : ∀ s ∈ specs, Decides w (compileSpec d live s) (w.Accepted s) refused) :
    Decides w (compileParts d live specs) (∀ s ∈ specs, w.Accepted s) refused := by
  induction specs with
  | nil =>
    rw [compileParts]
    exact decides_pure [] (List.forall_mem_nil _)
  | cons s rest ih =>
    have first := each s List.mem_cons_self
    have others := ih fun r there => each r (List.mem_cons_of_mem s there)
    rw [compileParts]
    refine (first.bind fun p => others.bind fun ps => decides_pure (p :: ps) trivial).of_iff ?_
    rw [List.forall_mem_cons, and_true]

/-- An operand has parts if it is a sequence. -/
theorem compileOperand_eq (operand : Value) : compileOperand d live operand =
    match operand.sequence? with
    | some specs => some <$> compileParts d live specs
    | none => pure none := by
  cases operand <;> (rw [compileOperand] <;> first | rfl | (intros; contradiction))

section Shapes

variable {v : Value}
  (inside : ∀ s, w.IsPart s v → Decides w (compileSpec d live s) (w.Accepted s) (w.Refuses d v))

include inside

/-- A sequence is accepted if its items are. -/
theorem decides_compileSequence {specs : List Value} (items : v.sequence? = some specs) :
    Decides w (Predicate.all <$> compileParts d live specs) (w.Accepted v) (w.Refuses d v) := by
  have parts := decides_compileParts fun s there => inside s (.item items there)
  exact parts.map.of_iff ⟨.sequence items, fun accepted => accepted.of_sequence items⟩

/-- A mapping with one key, which is an operator, is accepted if its operand is. -/
theorem decides_compileEntry {key operand : Value} (mapping : w.mapping? v = some [(key, operand)])
    (operator : isOperatorKey key = true) :
    Decides w (compileEntry d live v (key, operand)) (w.Accepted v) (w.Refuses d v) := by
  have which : key = .str "$not" ∨ ∃ op, key = .str op ∧ (op = "$or" ∨ op = "$and") := by
    rcases (isOperatorKey_iff key).mp operator with rfl | rfl | rfl <;> simp
  rw [compileEntry]
  rcases which with rfl | ⟨op, rfl, combines⟩
  · rw [if_pos (by simp)]
    exact (inside operand (.negated mapping)).map.of_iff
      ⟨.negation mapping, fun accepted => accepted.of_negation mapping⟩
  · have other : ¬ (Value.str op == .str "$not") = true := by
      rcases combines with rfl | rfl <;> simp
    rw [if_neg other, compileOperand_eq]
    cases items : operand.sequence? with
    | none =>
      have named : firstOperator [.str op] = op := by
        rcases combines with rfl | rfl <;> decide
      rw [pure_bind, named, refusePredicate_after]
      exact (decides_complaint (.operand mapping combines items)).refuses
    | some specs =>
      have parts := decides_compileParts fun s there =>
        inside s (.combined mapping combines items there)
      rw [bind_map_left]
      refine (parts.bind fun ps => decides_pure _ trivial).of_iff ?_
      rw [and_true]
      exact ⟨.combination mapping combines items, fun accepted =>
        accepted.of_combination mapping combines items⟩

/-- A mapping is decided by its keys and its operand. -/
theorem decides_compileMapping {entries : Entries} (mapping : w.mapping? v = some entries) :
    Decides w (compileMapping d live v entries) (w.Accepted v) (w.Refuses d v) := by
  cases entries with
  | nil =>
    rw [compileMapping]
    exact (decides_compileEntries mapping rfl).refuses
  | cons entry rest =>
    rw [compileMapping]
    split
    next operator =>
      split
      next alone =>
        obtain rfl : rest = [] := List.isEmpty_iff.mp alone
        exact decides_compileEntry inside mapping (by simpa [Table.keys] using operator)
      next others =>
        have mixes : w.Mixes v (entry :: rest) := ⟨mapping, operator, by simpa using others⟩
        exact (decides_refuseMixed mixes).refuses
    next plain =>
      exact (decides_compileEntries mapping (by simpa using plain)).refuses

end Shapes

/-- **Compilation decides the grammar.** By induction on a finite specification. Where a live part
is looked up, fewer of them are reached from there on, so they can be looked up to the end. -/
theorem decides_compileSpec {spec : Value} (finite : Acc w.IsPart spec) :
    ∀ depth live, (∀ part readOnly u, w.Renumbered u →
        exec (live part readOnly) u = exec (compilePart d depth part readOnly) u) →
      (w.reach spec).card < depth →
      Decides w (compileSpec d live spec) (w.Accepted spec) (w.Refuses d spec) := by
  induction finite with
  | intro spec finite ih =>
    intro depth live lives room
    have inside : ∀ s, w.IsPart s spec →
        Decides w (compileSpec d live s) (w.Accepted s) (w.Refuses d spec) := fun s part =>
      (ih s part depth live lives
        (lt_of_le_of_lt (Finset.card_le_card (World.reach_subset part)) room)).mono Iff.rfl
        fun _ refuses => refuses.of_part part
    cases spec with
    | predicate p =>
      rw [compileSpec]
      exact decides_pure p (.compiled p)
    | null =>
      rw [compileSpec]
      exact decides_pure _ .null
    | missing =>
      rw [compileSpec]
      exact decides_pure _ .missing
    | str path =>
      rw [compileSpec]
      split
      next empty =>
        obtain rfl : path = "" := by simpa using empty
        rw [refusePredicate_eq]
        exact (decides_complaint .path).refuses
      next given => exact decides_pure _ (.path (by simpa using given))
    | list share specs =>
      rw [compileSpec]
      exact decides_compileSequence inside rfl
    | tuple specs =>
      rw [compileSpec]
      exact decides_compileSequence inside rfl
    | dict share entries =>
      rw [compileSpec]
      exact decides_compileMapping inside rfl
    | live part readOnly =>
      obtain ⟨depth, rfl⟩ : ∃ n, depth = n + 1 := ⟨depth - 1, by omega⟩
      -- what is in the part is compiled with one step less, and reaches one part less
      have further : ∀ s, w.IsPart s (.live part readOnly) →
          Decides w (compileSpec d (compilePart d depth) s) (w.Accepted s)
            (w.Refuses d (.live part readOnly)) := fun s inner =>
        (ih s inner depth _ (fun _ _ _ _ => rfl) (Nat.lt_of_lt_of_le
          (World.card_reach_lt (finite s inner) inner) (Nat.le_of_lt_succ room))).mono Iff.rfl
          fun _ refuses => refuses.of_part inner
      refine (decides_compileMapping further rfl).congr fun u near => ?_
      rw [compileSpec, lives part readOnly u near, compilePart, exec_bind_ok (exec_get u),
        near.partEntries part]
    | _ =>
      rw [compileSpec]
      · exact (decides_compileTest (fun _ same => by cases same) rfl rfl rfl rfl).refuses
      all_goals (intros; contradiction)

end Compilation

/-- **Compilation accepts just its grammar.** A finite value is compiled if it is a match
specification. Otherwise there is a malformed value in it, for which it is refused, unless an
operator stands beside keys without an order, or a value that the message shows has no text. -/
theorem compilePredicate_grammar (d : Dispatch) {w : World} {spec : Value}
    (finite : Acc w.IsPart spec) :
    ((∃ p w', exec (compilePredicate d spec) w = (.ok p, w')) ↔ w.Accepted spec) ∧
    ∀ e w', exec (compilePredicate d spec) w = (.error e, w') →
      ∃ v, ReflTransGen w.IsPart v spec ∧ w.Faults d v e := by
  have decides : Decides w (compilePredicate d spec) (w.Accepted spec) (w.Refuses d spec) := by
    refine decides_compileSpec finite (w.partDepth + 1) _ (fun part readOnly u near => ?_)
      (Nat.lt_succ_of_le (w.card_reach_le spec))
    rw [exec_bind_ok (exec_get u), near.partDepth]
  rcases decides w (.refl w) with ⟨accepted, p, w', run, -⟩ | ⟨rejected, e, w', run, refuses⟩
  · refine ⟨iff_of_true ⟨p, w', run⟩ accepted, fun e w'' run' => ?_⟩
    cases run.symm.trans run'
  · refine ⟨iff_of_false ?_ rejected, fun e' w'' run' => ?_⟩
    · rintro ⟨p, w'', run'⟩
      cases run.symm.trans run'
    · cases run.symm.trans run'
      exact refuses

/-- A negation of a mapping in which an operator stands beside a number. -/
def unorderedSpec : Value :=
  .fresh [.ofFields [("$not", .freshDict [(.str "$or", .fresh []), (.int 1, .int 2)])]]

/-- It is not accepted, and it fails for the order of a text and a number. -/
theorem compilePredicate_grammar_unordered :
    let d := answering.dispatch 2
    let w := World.empty "" []
    Acc w.IsPart unorderedSpec ∧ ¬ w.Accepted unorderedSpec ∧
      ∃ w', exec (compilePredicate d unorderedSpec) w = (.error .wrongType, w') := by
  intro d w
  have finite : Acc w.IsPart unorderedSpec := (Value.inert_of_isInert unorderedSpec rfl).finite
  have run : exec (compilePredicate d unorderedSpec) w = (.error .wrongType, w) := by rfl
  refine ⟨finite, fun accepted => ?_, w, run⟩
  obtain ⟨p, w', run'⟩ := (compilePredicate_grammar d finite).1.mpr accepted
  cases run.symm.trans run'

end DataShape
