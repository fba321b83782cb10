import DataShape.Proofs.Sorting.Run
import DataShape.Sorting.Basic
import Mathlib.Order.Nat

/-! # Sorting by an order

Where items are compared by an order, two runs are merged into one run of their items, in whatever
turns of single steps and jumps and from whichever end, and a list is sorted without fail: what is
given has the items of the list in order.

* `Merge.Ordered` — a merge on its way to an ordered list, and what keeps it there.
* `Side.Sound` — an end to merge from at which the order is told.
* `mergeRuns?_spec` — two runs become one.
* `sort?_spec` — a list is sorted. -/

namespace DataShape.Sorting

universe u

variable {α : Type u}

/-! ## A merge on its way -/

namespace Merge

/-- What was merged is in order, before what remains of each run; and the run that was set aside
ends behind the other one. -/
structure Ordered (R : α → α → Prop) (all : List α) (m : Merge α) : Prop where
  perm : (m.merged.reverse ++ (m.kept ++ m.other)).Perm all
  kept : (m.merged.reverse ++ m.kept).Pairwise R
  other : (m.merged.reverse ++ m.other).Pairwise R
  last : ∀ z ∈ m.kept.getLast?, ∀ y ∈ m.other, R y z

namespace Ordered

variable {R : α → α → Prop} {all : List α} {m : Merge α} (h : m.Ordered R all)

include h

theorem withPatience (patience : Nat) : { m with patience := patience : Merge α }.Ordered R all :=
  ⟨h.perm, h.kept, h.other, h.last⟩

theorem isRun_kept {P : α → Prop} (kind : ∀ a ∈ all, P a) : IsRun P R m.kept where
  kind a there := kind a (h.perm.subset (List.mem_append_right _ (List.mem_append_left _ there)))
  sorted := (List.pairwise_append.mp h.kept).2.1

theorem isRun_other {P : α → Prop} (kind : ∀ a ∈ all, P a) : IsRun P R m.other where
  kind a there := kind a (h.perm.subset (List.mem_append_right _ (List.mem_append_right _ there)))
  sorted := (List.pairwise_append.mp h.other).2.1

/-- Items of the run set aside are taken if they go before all of the other run. -/
theorem takeKept {count : Nat} (ahead : ∀ x ∈ m.kept.take count, ∀ y ∈ m.other, R x y) :
    (m.takeKept count).Ordered R all := by
  have whole : (m.takeKept count).merged.reverse ++ (m.takeKept count).kept
      = m.merged.reverse ++ m.kept := by
    simp [Merge.takeKept]
  have merged : (m.takeKept count).merged.reverse = m.merged.reverse ++ m.kept.take count := by
    simp [Merge.takeKept]
  refine ⟨?_, whole ▸ h.kept, ?_, fun z there y => h.last z ?_ y⟩
  · rw [← List.append_assoc, whole, List.append_assoc]
    exact h.perm
  · obtain ⟨-, sorted, before⟩ := List.pairwise_append.mp h.other
    rw [merged]
    refine List.pairwise_append.mpr ⟨?_, sorted, fun a there y => ?_⟩
    · exact h.kept.sublist ((List.take_sublist count m.kept).append_left _)
    · rcases List.mem_append.mp there with old | new
      · exact before a old y
      · exact ahead a new y
  · rw [Merge.takeKept, List.getLast?_drop] at there
    split at there
    · cases there
    · exact there

/-- Items of the other run are taken if they go before all of the run set aside. -/
theorem takeOther {count : Nat} (ahead : ∀ y ∈ m.other.take count, ∀ x ∈ m.kept, R y x) :
    (m.takeOther count).Ordered R all := by
  have whole : (m.takeOther count).merged.reverse ++ (m.takeOther count).other
      = m.merged.reverse ++ m.other := by
    simp [Merge.takeOther]
  have merged : (m.takeOther count).merged.reverse = m.merged.reverse ++ m.other.take count := by
    simp [Merge.takeOther]
  refine ⟨?_, ?_, whole ▸ h.other,
    fun z there y back => h.last z there y (List.mem_of_mem_drop back)⟩
  · refine List.Perm.trans ?_ h.perm
    refine (List.perm_append_comm.append_left _).trans ?_
    rw [← List.append_assoc, whole, List.append_assoc]
    exact List.perm_append_comm.append_left _
  · obtain ⟨-, sorted, before⟩ := List.pairwise_append.mp h.kept
    rw [merged]
    refine List.pairwise_append.mpr ⟨?_, sorted, fun a there x => ?_⟩
    · exact h.other.sublist ((List.take_sublist count m.other).append_left _)
    · rcases List.mem_append.mp there with old | new
      · exact before a old x
      · exact ahead a new x

/-- It is enough to compare them with the next item of the other run. -/
theorem takeKept_of_head (trans : ∀ {a b c}, R a b → R b c → R a c) {y : α} {other : List α}
    (next : m.other = y :: other) {count : Nat} (ahead : ∀ x ∈ m.kept.take count, R x y) :
    (m.takeKept count).Ordered R all := by
  have sorted := (List.pairwise_append.mp h.other).2.1
  rw [next] at sorted
  refine h.takeKept fun x there b inOther => ?_
  rcases List.mem_cons.mp (next ▸ inOther) with rfl | later
  · exact ahead x there
  · exact trans (ahead x there) ((List.pairwise_cons.mp sorted).1 b later)

theorem takeOther_of_head (trans : ∀ {a b c}, R a b → R b c → R a c) {x : α} {kept : List α}
    (next : m.kept = x :: kept) {count : Nat} (ahead : ∀ y ∈ m.other.take count, R y x) :
    (m.takeOther count).Ordered R all := by
  have sorted := (List.pairwise_append.mp h.kept).2.1
  rw [next] at sorted
  refine h.takeOther fun y there a inKept => ?_
  rcases List.mem_cons.mp (next ▸ inKept) with rfl | later
  · exact ahead y there
  · exact trans (ahead y there) ((List.pairwise_cons.mp sorted).1 a later)

/-- When no comparison is left, the rest falls into place. -/
theorem result (done : m.isDone = true) : m.result.Pairwise R ∧ m.result.Perm all := by
  obtain ⟨kept, other, merged, patience⟩ := m
  obtain ⟨perm, inKept, inOther, last⟩ := h
  match kept, other with
  | [], other => exact ⟨inOther, perm⟩
  | [z], other =>
    obtain ⟨-, -, before⟩ := List.pairwise_append.mp inKept
    refine ⟨?_, (List.perm_append_comm.append_left _).trans perm⟩
    show (merged.reverse ++ (other ++ [z])).Pairwise R
    rw [← List.append_assoc]
    refine List.pairwise_append.mpr ⟨inOther, List.pairwise_singleton R z,
      fun a there b single => ?_⟩
    obtain rfl := List.mem_singleton.mp single
    rcases List.mem_append.mp there with old | new
    · exact before a old b List.mem_cons_self
    · exact last b rfl a new
  | x :: y :: rest, [] =>
    show (merged.reverse ++ (x :: y :: rest ++ [])).Pairwise R ∧ _
    rw [List.append_nil]
    exact ⟨inKept, perm⟩
  | x :: y :: rest, b :: other => cases done

end Ordered

/-- A merge that is not done has items of both runs. -/
theorem exists_of_not_isDone {m : Merge α} (h : ¬ m.isDone = true) :
    ∃ x kept y other, m.kept = x :: kept ∧ m.other = y :: other := by
  obtain ⟨kept, other, merged, patience⟩ := m
  match kept, other with
  | [], _ => exact absurd rfl h
  | [_], _ => exact absurd rfl h
  | x :: z :: kept, [] => exact absurd rfl h
  | x :: z :: kept, y :: other => exact ⟨x, z :: kept, y, other, rfl, rfl⟩

theorem remaining_takeKept_le (m : Merge α) (count : Nat) :
    (m.takeKept count).remaining ≤ m.remaining := by
  simp only [remaining, takeKept, List.length_drop]
  omega

theorem remaining_takeOther_le (m : Merge α) (count : Nat) :
    (m.takeOther count).remaining ≤ m.remaining := by
  simp only [remaining, takeOther, List.length_drop]
  omega

end Merge

/-! ## The ends to merge from -/

/-- A search that tells how many items of a run go before an item. -/
def Finds (P : α → Prop) (R : α → α → Prop) (ahead? : α → List α → Option Nat) : Prop :=
  ∀ {key : α} {run : List α}, P key → IsRun P R run → run ≠ [] →
    ∃ n, ahead? key run = some n ∧ (∀ x ∈ run.take n, R x key) ∧ ∀ x ∈ run.drop n, R key x

/-- From an end of two runs the order is told. -/
structure Side.Sound (s : Side α) (P : α → Prop) (R : α → α → Prop) : Prop where
  trans : ∀ {a b c}, R a b → R b c → R a c
  wins : ∀ {y x}, P y → P x → ∃ wins, s.otherWins? y x = some wins ∧
    (wins = true → R y x) ∧ (wins = false → R x y)
  keptAhead : Finds P R s.keptAhead?
  otherAhead : Finds P R s.otherAhead?

section Order

variable {less? : α → α → Option Bool} {P : α → Prop} {le : α → α → Prop}
  (o : Orders less? P le)

include o

theorem Orders.refl (a : α) : le a a := (o.total a a).elim id id

theorem Orders.of_not {a b : α} (h : ¬ le a b) : le b a := (o.total a b).resolve_left h

theorem Side.sound_front : (Side.front less?).Sound P le where
  trans := o.trans
  wins kindY kindX := (o.decides kindY kindX).imp fun less ⟨compared, is⟩ =>
    ⟨compared, fun wins => o.of_not (is.mp wins),
      fun loses => by_contra fun not => absurd (is.mpr not) (by simp [loses])⟩
  keptAhead keyed run given := by
    obtain ⟨n, found, cuts⟩ := notAbove?_cuts o keyed run (List.length_pos_iff.mpr given)
    exact ⟨n, found, cuts.front, fun x there => o.of_not (cuts.back x there)⟩
  otherAhead keyed run given := by
    obtain ⟨n, found, cuts⟩ := below?_cuts o keyed run (List.length_pos_iff.mpr given)
    exact ⟨n, found, fun x there => o.of_not (cuts.front x there),
      fun x there => not_not.mp (cuts.back x there)⟩

omit o in
/-- A place in a list, counted from the end. -/
theorem Cuts.of_reverse {p : α → Prop} {l : List α} {n : Nat} (h : Cuts p l.reverse n) :
    (∀ x ∈ l.take (l.length - n), ¬ p x) ∧ ∀ x ∈ l.drop (l.length - n), p x := by
  constructor
  · intro x there
    refine h.back x ?_
    rw [List.drop_reverse]
    exact List.mem_reverse.mpr there
  · intro x there
    refine h.front x ?_
    rw [List.take_reverse]
    exact List.mem_reverse.mpr there

omit o in
theorem IsRun.reverse {l : List α} (h : IsRun P (fun a b => le b a) l) : IsRun P le l.reverse where
  kind a there := h.kind a (List.mem_reverse.mp there)
  sorted := List.pairwise_reverse.mpr h.sorted

theorem Side.sound_back : (Side.back less?).Sound P fun a b => le b a where
  trans first second := o.trans second first
  wins kindY kindX := (o.decides kindX kindY).imp fun less ⟨compared, is⟩ =>
    ⟨compared, fun wins => o.of_not (is.mp wins),
      fun loses => by_contra fun not => absurd (is.mpr not) (by simp [loses])⟩
  keptAhead := by
    intro key run keyed sorted given
    have near : run.length - 1 < run.reverse.length := by
      have := List.length_pos_iff.mpr given
      rw [List.length_reverse]
      omega
    obtain ⟨n, found, cuts⟩ := below?_cuts o keyed sorted.reverse near
    refine ⟨run.length - n, ?_, fun x there => not_not.mp (cuts.of_reverse.1 x there),
      fun x there => o.of_not (cuts.of_reverse.2 x there)⟩
    show (below? less? key run.reverse.toArray (run.length - 1)).map (run.length - ·) = _
    rw [found, Option.map_some]
  otherAhead := by
    intro key run keyed sorted given
    have near : run.length - 1 < run.reverse.length := by
      have := List.length_pos_iff.mpr given
      rw [List.length_reverse]
      omega
    obtain ⟨n, found, cuts⟩ := notAbove?_cuts o keyed sorted.reverse near
    refine ⟨run.length - n, ?_, fun x there => o.of_not (cuts.of_reverse.1 x there),
      cuts.of_reverse.2⟩
    show (notAbove? less? key run.reverse.toArray (run.length - 1)).map (run.length - ·) = _
    rw [found, Option.map_some]

end Order

/-! ## Steps of a merge -/

section Steps

variable {s : Side α} {P : α → Prop} {R : α → α → Prop} (sound : s.Sound P R) {all : List α}
  (kind : ∀ a ∈ all, P a)

/-- A merge that goes on from another one: it is on its way to the same list, and no more items are
left. -/
structure Merge.Advances (R : α → α → Prop) (all : List α) (m m' : Merge α) : Prop where
  ordered : m'.Ordered R all
  fewer : m'.remaining ≤ m.remaining

theorem Merge.Ordered.advances {m : Merge α} (h : m.Ordered R all) : m.Advances R all m :=
  ⟨h, Nat.le_refl _⟩

theorem Merge.Advances.trans {m m' m'' : Merge α} (first : m.Advances R all m')
    (second : m'.Advances R all m'') : m.Advances R all m'' :=
  ⟨second.ordered, second.fewer.trans first.fewer⟩

include sound kind

/-- Single steps go on, and if there is something to do at least one step is made. -/
theorem singleSteps?_spec : ∀ (fuel keptWins otherWins : Nat) {m : Merge α}, m.Ordered R all →
    ∃ m', singleSteps? s fuel keptWins otherWins m = some m' ∧ m.Advances R all m' ∧
      (fuel ≠ 0 → ¬ m.isDone = true → m'.remaining < m.remaining) := by
  intro fuel
  induction fuel with
  | zero => exact fun _ _ m h => ⟨m, rfl, h.advances, fun given => absurd rfl given⟩
  | succ fuel ih =>
    intro keptWins otherWins m h
    by_cases both : ∃ x kept y other, m.kept = x :: kept ∧ m.other = y :: other
    · obtain ⟨x, kept, y, other, keptIs, otherIs⟩ := both
      have kindX := (h.isRun_kept kind).kind x (keptIs ▸ List.mem_cons_self)
      have kindY := (h.isRun_other kind).kind y (otherIs ▸ List.mem_cons_self)
      obtain ⟨wins, compared, won, lost⟩ := sound.wins kindY kindX
      simp only [singleSteps?, keptIs, otherIs, compared, Option.bind_some]
      cases wins with
      | true =>
        have step : (m.takeOther 1).Ordered R all :=
          h.takeOther_of_head sound.trans keptIs fun b there => by
            obtain rfl := List.mem_singleton.mp (otherIs ▸ there)
            exact won rfl
        have less : (m.takeOther 1).remaining < m.remaining := by
          simp [Merge.remaining, Merge.takeOther, otherIs]
        rw [if_pos rfl]
        split
        · exact ⟨_, rfl, ⟨step, less.le⟩, fun _ _ => less⟩
        · obtain ⟨m', run, advances, -⟩ := ih 0 (otherWins + 1) step
          exact ⟨m', run, ⟨advances.ordered, advances.fewer.trans less.le⟩,
            fun _ _ => advances.fewer.trans_lt less⟩
      | false =>
        have step : (m.takeKept 1).Ordered R all :=
          h.takeKept_of_head sound.trans otherIs fun a there => by
            obtain rfl := List.mem_singleton.mp (keptIs ▸ there)
            exact lost rfl
        have less : (m.takeKept 1).remaining < m.remaining := by
          simp [Merge.remaining, Merge.takeKept, keptIs]
        rw [if_neg Bool.false_ne_true]
        split
        · exact ⟨_, rfl, ⟨step, less.le⟩, fun _ _ => less⟩
        · obtain ⟨m', run, advances, -⟩ := ih (keptWins + 1) 0 step
          exact ⟨m', run, ⟨advances.ordered, advances.fewer.trans less.le⟩,
            fun _ _ => advances.fewer.trans_lt less⟩
    · refine ⟨m, ?_, h.advances,
        fun _ undone => absurd (Merge.exists_of_not_isDone undone) both⟩
      rw [singleSteps?]
      split
      · next x kept y other keptIs otherIs => exact absurd ⟨x, kept, y, other, keptIs, otherIs⟩ both
      · rfl

theorem jumpKept?_spec {m : Merge α} (h : m.Ordered R all) (undone : ¬ m.isDone = true) :
    ∃ r, jumpKept? s m = some r ∧ m.Advances R all r.2 := by
  obtain ⟨x, kept, y, other, keptIs, otherIs⟩ := Merge.exists_of_not_isDone undone
  have kindY := (h.isRun_other kind).kind y (otherIs ▸ List.mem_cons_self)
  obtain ⟨n, found, front, back⟩ :=
    sound.keptAhead kindY (h.isRun_kept kind) (keptIs ▸ List.cons_ne_nil x kept)
  have step := h.takeKept_of_head sound.trans otherIs front
  simp only [jumpKept?, otherIs, found, Option.map_some]
  refine ⟨_, rfl, ?_⟩
  dsimp only
  split
  · exact ⟨step, m.remaining_takeKept_le n⟩
  · refine ⟨step.takeOther fun b there a later => ?_,
      ((m.takeKept n).remaining_takeOther_le 1).trans (m.remaining_takeKept_le n)⟩
    have only : b ∈ m.other.take 1 := there
    obtain rfl := List.mem_singleton.mp (otherIs ▸ only)
    exact back a later

theorem jumpOther?_spec {m : Merge α} (h : m.Ordered R all) (undone : ¬ m.isDone = true) :
    ∃ r, jumpOther? s m = some r ∧ m.Advances R all r.2 := by
  obtain ⟨x, kept, y, other, keptIs, otherIs⟩ := Merge.exists_of_not_isDone undone
  have kindX := (h.isRun_kept kind).kind x (keptIs ▸ List.mem_cons_self)
  obtain ⟨n, found, front, back⟩ :=
    sound.otherAhead kindX (h.isRun_other kind) (otherIs ▸ List.cons_ne_nil y other)
  have step := h.takeOther_of_head sound.trans keptIs front
  simp only [jumpOther?, keptIs, found, Option.map_some]
  refine ⟨_, rfl, ?_⟩
  dsimp only
  split
  · exact ⟨step, m.remaining_takeOther_le n⟩
  · refine ⟨step.takeKept fun a there b later => ?_,
      ((m.takeOther n).remaining_takeKept_le 1).trans (m.remaining_takeOther_le n)⟩
    have only : a ∈ m.kept.take 1 := there
    obtain rfl := List.mem_singleton.mp (keptIs ▸ only)
    exact back b later

/-- One jump in each run, in either order. -/
theorem jumpRound?_spec {m : Merge α} (h : m.Ordered R all) (undone : ¬ m.isDone = true) :
    ∃ r, jumpRound? s m = some r ∧ m.Advances R all r.2 := by
  have start := h.withPatience (max 1 (m.patience - 1))
  have first : ∀ keptFirst : Bool, ∃ r, (if keptFirst then
      jumpKept? s { m with patience := max 1 (m.patience - 1) }
      else jumpOther? s { m with patience := max 1 (m.patience - 1) }) = some r ∧
      m.Advances R all r.2
    | true => (jumpKept?_spec sound kind start undone).imp fun _ ⟨run, ordered, fewer⟩ =>
        ⟨run, ordered, fewer⟩
    | false => (jumpOther?_spec sound kind start undone).imp fun _ ⟨run, ordered, fewer⟩ =>
        ⟨run, ordered, fewer⟩
  obtain ⟨r, run, advances⟩ := first s.keptFirst
  simp only [jumpRound?, run, Option.bind_some]
  split
  · exact ⟨_, rfl, advances⟩
  · next going =>
    have second : ∀ keptFirst : Bool, ∃ q, (if keptFirst then jumpOther? s r.2
        else jumpKept? s r.2) = some q ∧ r.2.Advances R all q.2
      | true => jumpOther?_spec sound kind advances.ordered going
      | false => jumpKept?_spec sound kind advances.ordered going
    obtain ⟨q, run', advances'⟩ := second s.keptFirst
    rw [run', Option.map_some]
    exact ⟨_, rfl, advances.trans advances'⟩

theorem jumps?_spec : ∀ (fuel : Nat) {m : Merge α}, m.Ordered R all → ¬ m.isDone = true →
    ∃ m', jumps? s fuel m = some m' ∧ m.Advances R all m' := by
  intro fuel
  induction fuel with
  | zero => exact fun {m} h _ => ⟨m, rfl, h.advances⟩
  | succ fuel ih =>
    intro m h undone
    obtain ⟨r, run, advances⟩ := jumpRound?_spec sound kind h undone
    simp only [jumps?, run, Option.bind_some]
    split
    · exact ⟨_, rfl, advances⟩
    · next going =>
      split
      · obtain ⟨m', run', advances'⟩ := ih advances.ordered going
        exact ⟨m', run', advances.trans advances'⟩
      · exact ⟨_, rfl, advances.ordered.withPatience _, advances.fewer⟩

/-- A merge comes to its end: each round takes an item. -/
theorem mergeWithin?_spec : ∀ (fuel : Nat) {m : Merge α}, m.Ordered R all → m.remaining ≤ fuel →
    ∃ m', mergeWithin? s fuel m = some m' ∧ m'.Ordered R all ∧ m'.isDone = true := by
  intro fuel
  induction fuel with
  | zero =>
    intro m h enough
    refine ⟨m, rfl, h, by_contra fun undone => ?_⟩
    obtain ⟨x, kept, y, other, keptIs, -⟩ := Merge.exists_of_not_isDone undone
    rw [Merge.remaining, keptIs, List.length_cons] at enough
    omega
  | succ fuel ih =>
    intro m h enough
    rw [mergeWithin?]
    by_cases done : m.isDone = true
    · rw [if_pos done]
      exact ⟨m, rfl, h, done⟩
    · obtain ⟨x, kept, y, other, keptIs, -⟩ := Merge.exists_of_not_isDone done
      have given : m.remaining ≠ 0 := by
        rw [Merge.remaining, keptIs, List.length_cons]
        omega
      obtain ⟨m₁, stepped, advances, less⟩ := singleSteps?_spec sound kind m.remaining 0 0 h
      have less := less given done
      rw [if_neg done, stepped, Option.bind_some]
      split
      · next done' => exact ⟨m₁, rfl, advances.ordered, done'⟩
      · next going =>
        obtain ⟨m₂, jumped, advances'⟩ := jumps?_spec sound kind m₁.remaining
          (advances.ordered.withPatience (m₁.patience + 1)) going
        have fewer : m₂.remaining ≤ m₁.remaining := advances'.fewer
        rw [jumped, Option.bind_some]
        exact ih advances'.ordered (by omega)

/-- Two runs are merged from an end if the other one has the first item, and the run set aside the
last. -/
theorem mergeFrom?_spec {kept other : List α} (patience : Nat) (runKept : kept.Pairwise R)
    (runOther : other.Pairwise R) (perm : (kept ++ other).Perm all)
    (first : ∀ y ∈ other.head?, ∀ x ∈ kept, R y x)
    (last : ∀ z ∈ kept.getLast?, ∀ y ∈ other, R y z) :
    ∃ r, mergeFrom? s kept other patience = some r ∧ r.1.Pairwise R ∧ r.1.Perm all := by
  have start : (Merge.mk kept other [] patience).Ordered R all := ⟨perm, runKept, runOther, last⟩
  have step : ((Merge.mk kept other [] patience).takeOther 1).Ordered R all :=
    start.takeOther fun y there x inKept => by
      cases other with
      | nil => cases there
      | cons b other =>
        obtain rfl := List.mem_singleton.mp there
        exact first y rfl x inKept
  obtain ⟨m, run, ordered, done⟩ := mergeWithin?_spec sound kind _ step (Nat.le_refl _)
  obtain ⟨sorted, perm'⟩ := ordered.result done
  rw [mergeFrom?, run, Option.map_some]
  exact ⟨_, rfl, sorted, perm'⟩

end Steps

/-! ## Whole runs -/

section Order

variable {less? : α → α → Option Bool} {P : α → Prop} {le : α → α → Prop}
  (o : Orders less? P le) {first second : List α} (runFirst : IsRun P le first)
  (runSecond : IsRun P le second)

include o runFirst runSecond

theorem mergeOverlap?_spec (patience : Nat)
    (head : ∀ y ∈ second.head?, ∀ x ∈ first, le y x)
    (last : ∀ z ∈ first.getLast?, ∀ y ∈ second, le y z) :
    ∃ r, mergeOverlap? less? first second patience = some r ∧ IsRun P le r.1 ∧
      r.1.Perm (first ++ second) := by
  have kind : ∀ a ∈ first ++ second, P a :=
    List.forall_mem_append.mpr ⟨runFirst.kind, runSecond.kind⟩
  rw [mergeOverlap?]
  split
  · obtain ⟨r, run, sorted, perm⟩ := mergeFrom?_spec (Side.sound_front o) kind patience
      runFirst.sorted runSecond.sorted (.refl _) head last
    exact ⟨r, run, ⟨fun a there => kind a (perm.subset there), sorted⟩, perm⟩
  · have turned : (second.reverse ++ first.reverse).Perm (first ++ second) := by
      rw [← List.reverse_append]
      exact List.reverse_perm _
    obtain ⟨r, run, sorted, perm⟩ := mergeFrom?_spec (Side.sound_back o) kind patience
      (List.pairwise_reverse.mpr runSecond.sorted) (List.pairwise_reverse.mpr runFirst.sorted)
      turned
      (fun y there x back => last y (List.head?_reverse ▸ there) x (List.mem_reverse.mp back))
      (fun z there y back => head z (List.getLast?_reverse ▸ there) y (List.mem_reverse.mp back))
    have perm' : r.1.reverse.Perm (first ++ second) := (List.reverse_perm _).trans perm
    rw [run, Option.map_some]
    exact ⟨_, rfl, ⟨fun a there => kind a (perm'.subset there), List.pairwise_reverse.mpr sorted⟩,
      perm'⟩

omit runFirst runSecond in
/-- The last item of an ordered list goes behind all of them. -/
theorem le_getLast {l : List α} (sorted : l.Pairwise le) {z : α} (last : z ∈ l.getLast?) {a : α}
    (there : a ∈ l) : le a z := by
  obtain ⟨front, rfl⟩ := List.getLast?_eq_some_iff.mp last
  rcases List.mem_append.mp there with before | single
  · exact (List.pairwise_append.mp sorted).2.2 a before z List.mem_cons_self
  · rw [List.mem_singleton.mp single]
    exact o.refl z

/-- Two runs become one. -/
theorem mergeRuns?_spec (given : first ≠ []) (patience : Nat) :
    ∃ r, mergeRuns? less? first second patience = some r ∧ IsRun P le r.1 ∧
      r.1.Perm (first ++ second) := by
  have kind : ∀ a ∈ first ++ second, P a :=
    List.forall_mem_append.mpr ⟨runFirst.kind, runSecond.kind⟩
  cases second with
  | nil => exact ⟨_, rfl, runFirst, by rw [List.append_nil]⟩
  | cons head rest =>
    have least : ∀ b ∈ head :: rest, le head b :=
      List.forall_mem_cons.mpr ⟨o.refl head, (List.pairwise_cons.mp runSecond.sorted).1⟩
    obtain ⟨placed, found, cuts⟩ := notAbove?_cuts o (runSecond.kind head List.mem_cons_self)
      runFirst (List.length_pos_iff.mpr given)
    simp only [mergeRuns?, found, Option.bind_some]
    have early : ∀ a ∈ first.take placed, ∀ b ∈ head :: rest, le a b :=
      fun a there b inSecond => o.trans (cuts.front a there) (least b inSecond)
    cases ends : (first.drop placed).getLast? with
    | none =>
      have all : first.take placed = first :=
        List.take_of_length_le (List.drop_eq_nil_iff.mp (List.getLast?_eq_none_iff.mp ends))
      exact ⟨_, rfl, ⟨kind, List.pairwise_append.mpr
        ⟨runFirst.sorted, runSecond.sorted, all ▸ early⟩⟩, .refl _⟩
    | some last =>
      have lastThere : last ∈ first.drop placed := List.mem_of_getLast? ends
      obtain ⟨count, found', cuts'⟩ := below?_cuts o
        (runFirst.kind last (List.mem_of_mem_drop lastThere)) runSecond
        (show (head :: rest).length - 1 < (head :: rest).length by simp)
      dsimp only
      rw [found', Option.bind_some]
      by_cases none : count = 0
      · -- The head of the second run goes before the last of the first.
        subst none
        exact absurd (not_not.mp (cuts'.back head List.mem_cons_self)) (cuts.back last lastThere)
      · rw [if_neg none]
        have runLate := runFirst.sublist (List.drop_sublist placed first)
        have runEarly := runSecond.sublist (List.take_sublist count (head :: rest))
        obtain ⟨r, run, merged, perm⟩ := mergeOverlap?_spec o runLate runEarly patience
          (fun y there x late => by
            obtain ⟨n, rfl⟩ := Nat.exists_eq_succ_of_ne_zero none
            obtain rfl : head = y := Option.some.inj there
            exact o.of_not (cuts.back x late))
          (fun z there y early => by
            obtain rfl : last = z := Option.some.inj (ends.symm.trans there)
            exact o.of_not (cuts'.front y early))
        have perm' : (first.take placed ++ r.1 ++ (head :: rest).drop count).Perm
            (first ++ (head :: rest)) := by
          refine ((perm.append_left _).append_right _).trans (.of_eq ?_)
          rw [← List.append_assoc, List.take_append_drop, List.append_assoc, List.take_append_drop]
        rw [run, Option.map_some]
        refine ⟨_, rfl, ⟨fun a there => kind a (perm'.subset there), ?_⟩, perm'⟩
        refine List.pairwise_append.mpr ⟨List.pairwise_append.mpr
          ⟨runFirst.sorted.sublist (List.take_sublist _ _), merged.sorted,
            fun a front b there => ?_⟩,
          runSecond.sorted.sublist (List.drop_sublist _ _), fun a there b back => ?_⟩
        · rcases List.mem_append.mp (perm.subset there) with late | early'
          · have sorted := runFirst.sorted
            rw [← List.take_append_drop placed first] at sorted
            exact (List.pairwise_append.mp sorted).2.2 a front b late
          · exact early a front b (List.mem_of_mem_take early')
        · rcases List.mem_append.mp there with front | mid
          · exact early a front b (List.mem_of_mem_drop back)
          · rcases List.mem_append.mp (perm.subset mid) with late | early'
            · exact o.trans (le_getLast o runLate.sorted ends late)
                (not_not.mp (cuts'.back b back))
            · have sorted := runSecond.sorted
              rw [← List.take_append_drop count (head :: rest)] at sorted
              exact (List.pairwise_append.mp sorted).2.2 a early' b back

end Order

/-! ## Whole lists -/

/-- The runs found so far are in order, none of them is empty, and together they have the items. -/
structure Progress.Holds (P : α → Prop) (le : α → α → Prop) (items : List α) (p : Progress α) :
    Prop where
  runs : ∀ r ∈ p.runs, IsRun P le r.items ∧ r.items ≠ []
  perm : (p.runs.flatMap Pending.items).Perm items

section Order

variable {less? : α → α → Option Bool} {P : α → Prop} {le : α → α → Prop}
  (o : Orders less? P le) {items : List α}

include o

/-- Two neighbours among the runs become one. -/
theorem mergePending?_spec (later : List (Pending α)) {rest : List (Pending α)}
    {first second : Pending α} {patience : Nat}
    (h : Progress.Holds P le items ⟨later ++ second :: first :: rest, patience⟩) :
    ∃ r, mergePending? less? first second patience = some r ∧
      Progress.Holds P le items ⟨later ++ r.1 :: rest, r.2⟩ := by
  obtain ⟨runFirst, given⟩ := h.runs first (by simp)
  obtain ⟨runSecond, -⟩ := h.runs second (by simp)
  obtain ⟨r, run, merged, perm⟩ := mergeRuns?_spec o runFirst runSecond given patience
  rw [mergePending?, run, Option.map_some]
  refine ⟨_, rfl, ⟨fun q there => ?_, ?_⟩⟩
  · rcases List.mem_append.mp there with front | back
    · exact h.runs q (List.mem_append_left _ front)
    · rcases List.mem_cons.mp back with rfl | back
      · refine ⟨merged, ?_⟩
        rintro empty
        have nothing : r.1 = [] := empty
        rw [nothing] at perm
        exact given (List.append_eq_nil_iff.mp perm.nil_eq.symm).1
      · exact h.runs q (List.mem_append_right _
          (List.mem_cons_of_mem _ (List.mem_cons_of_mem _ back)))
  · refine List.Perm.trans ?_ h.perm
    simp only [List.flatMap_append, List.flatMap_cons]
    rw [← List.append_assoc second.items]
    exact ((perm.trans List.perm_append_comm).append_right _).append_left _

theorem collapse?_spec (power : Nat) : ∀ (fuel : Nat) {p : Progress α}, p.Holds P le items →
    ∃ p', collapse? less? power fuel p = some p' ∧ p'.Holds P le items := by
  intro fuel
  induction fuel with
  | zero => exact fun {p} h => ⟨p, rfl, h⟩
  | succ fuel ih =>
    intro p h
    obtain ⟨runs, patience⟩ := p
    match runs with
    | [] => exact ⟨_, rfl, h⟩
    | [last] => exact ⟨_, rfl, h⟩
    | second :: first :: rest =>
      simp only [collapse?]
      split
      · obtain ⟨r, run, h'⟩ := mergePending?_spec o [] h
        rw [run, Option.bind_some]
        exact ih h'
      · exact ⟨_, rfl, h⟩

theorem makeReady?_spec (count length : Nat) {p : Progress α} (h : p.Holds P le items) :
    ∃ p', makeReady? less? count length p = some p' ∧ p'.Holds P le items := by
  unfold makeReady?
  split
  · exact ⟨p, rfl, h⟩
  · next last rest runsAre =>
    obtain ⟨q, run, h'⟩ :=
      collapse?_spec o (boundaryPower count last.start last.items.length length) _ h
    dsimp only
    rw [run, Option.map_some]
    split
    · exact ⟨q, rfl, h'⟩
    · next newest older runsAre' =>
      obtain ⟨runs, perm⟩ := h'
      rw [runsAre'] at runs perm
      refine ⟨_, rfl, ⟨fun r there => ?_, perm⟩⟩
      rcases List.mem_cons.mp there with rfl | old
      · exact runs newest List.mem_cons_self
      · exact runs r (List.mem_cons_of_mem _ old)

/-- All runs of a list are found. -/
theorem collect?_spec (count : Nat) : ∀ (fuel start : Nat) {rest done : List α} {p : Progress α},
    (∀ a ∈ rest, P a) → rest.length ≤ fuel → (rest ++ done).Perm items → p.Holds P le done →
    ∃ p', collect? less? count fuel start rest p = some p' ∧ p'.Holds P le items := by
  intro fuel
  induction fuel with
  | zero =>
    intro start rest done p _ enough perm h
    obtain rfl := List.length_eq_zero_iff.mp (Nat.le_zero.mp enough)
    exact ⟨p, rfl, h.runs, h.perm.trans perm⟩
  | succ fuel ih =>
    intro start rest done p kind enough perm h
    cases rest with
    | nil => exact ⟨p, rfl, h.runs, h.perm.trans perm⟩
    | cons a rest =>
      obtain ⟨r, found, run, given, same⟩ :=
        nextRun?_spec o (leastRun count) kind (List.cons_ne_nil a rest)
      obtain ⟨p₁, ready, h₁⟩ := makeReady?_spec o count r.1.length h
      simp only [collect?, found, Option.bind_some, ready]
      refine ih (start + r.1.length) (fun b there => ?_) ?_ ?_
        ⟨fun q there => ?_, h₁.perm.append_left r.1⟩
      · exact kind b (same.subset (List.mem_append_right _ there))
      · have size := same.length_eq
        have positive := List.length_pos_iff.mpr given
        rw [List.length_append] at size
        omega
      · rw [← List.append_assoc]
        exact ((List.perm_append_comm.trans same).append_right done).trans perm
      · rcases List.mem_cons.mp there with rfl | old
        · exact ⟨run, given⟩
        · exact h₁.runs q old

/-- The runs that are left become one. -/
theorem finish?_spec : ∀ (fuel : Nat) {p : Progress α}, p.runs.length ≤ fuel → p.Holds P le items →
    ∃ p', finish? less? fuel p = some p' ∧ p'.Holds P le items ∧ p'.runs.length ≤ 1 := by
  intro fuel
  induction fuel with
  | zero => exact fun {p} enough h => ⟨p, rfl, h, enough.trans (Nat.zero_le 1)⟩
  | succ fuel ih =>
    intro p enough h
    obtain ⟨runs, patience⟩ := p
    match runs with
    | [] => exact ⟨_, rfl, h, Nat.zero_le 1⟩
    | [last] => exact ⟨_, rfl, h, Nat.le_refl 1⟩
    | [second, first] =>
      obtain ⟨r, run, h'⟩ := mergePending?_spec o [] h
      simp only [finish?, run, Option.map_some]
      exact ⟨_, rfl, h', Nat.le_refl 1⟩
    | third :: second :: first :: rest =>
      simp only [List.length_cons] at enough
      simp only [finish?]
      split
      · obtain ⟨r, run, h'⟩ := mergePending?_spec o [third] h
        rw [run, Option.bind_some]
        exact ih (by simp only [List.length_cons]; omega) h'
      · obtain ⟨r, run, h'⟩ := mergePending?_spec o [] h
        rw [run, Option.bind_some]
        exact ih (by simp only [List.length_cons]; omega) h'

/-- **Sorting sorts.** Items of a kind that is ordered are sorted without fail: what is given has
the same items in order. -/
theorem sort?_spec (kind : ∀ a ∈ items, P a) :
    ∃ sorted, sort? less? items = some sorted ∧ sorted.Pairwise le ∧ sorted.Perm items := by
  obtain ⟨p, collected, h⟩ := collect?_spec o items.length items.length 0 (p := ⟨[], longJump⟩) kind
    (Nat.le_refl _) (.of_eq (List.append_nil items)) ⟨nofun, .refl _⟩
  obtain ⟨q, finished, h', single⟩ := finish?_spec o p.runs.length (Nat.le_refl _) h
  rw [sort?, collected, Option.bind_some, finished, Option.map_some]
  refine ⟨_, rfl, ?_, h'.perm⟩
  cases none : q.runs with
  | nil => exact .nil
  | cons last rest =>
    obtain rfl : rest = [] := by
      rw [none, List.length_cons] at single
      exact List.length_eq_zero_iff.mp (by omega)
    rw [List.flatMap_singleton]
    exact (h'.runs last (none ▸ List.mem_cons_self)).1.sorted

end Order

end DataShape.Sorting
