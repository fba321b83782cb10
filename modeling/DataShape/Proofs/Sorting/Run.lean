import DataShape.Sorting.Run
import Mathlib.Data.List.Basic

/-! # Places and runs in ordered lists

Where items are compared by an order, the search for a place ends at the one place that the order
allows, from wherever it sets out, and the runs that a list is cut into are in order. Items may be
of a kind; only those are then compared.

* `Orders` — items of a kind are compared by an order, and without fail.
* `Cuts` — a place in a list: a property holds in front of it and not behind.
* `below?_cuts`, `notAbove?_cuts` — a place that is sought is found.
* `nextRun?_spec` — a run is in order, and with the rest it is the list. -/

namespace DataShape.Sorting

universe u

variable {α : Type u}

/-- Items of a kind are compared without fail, by an order of all items. -/
structure Orders (less? : α → α → Option Bool) (P : α → Prop) (le : α → α → Prop) : Prop where
  total : ∀ a b, le a b ∨ le b a
  trans : ∀ {a b c}, le a b → le b c → le a c
  decides : ∀ {a b}, P a → P b → ∃ less, less? a b = some less ∧ (less = true ↔ ¬ le b a)

/-- A list of items of a kind that is in order. -/
structure IsRun (P : α → Prop) (le : α → α → Prop) (l : List α) : Prop where
  kind : ∀ a ∈ l, P a
  sorted : l.Pairwise le

theorem IsRun.sublist {P : α → Prop} {le : α → α → Prop} {l m : List α} (h : IsRun P le l)
    (part : m.Sublist l) : IsRun P le m :=
  ⟨fun a there => h.kind a (part.subset there), h.sorted.sublist part⟩

/-! ## Places -/

/-- A test that holds of the places below a cut, and is told of those below a limit. -/
def Marks (ahead? : Nat → Option Bool) (limit cut : Nat) : Prop :=
  ∀ i < limit, ahead? i = some (decide (i < cut))

/-- Halving ends at the cut. -/
theorem halve?_eq {ahead? : Nat → Option Bool} {limit cut : Nat} (marks : Marks ahead? limit cut) :
    ∀ {fuel low high : Nat}, low ≤ cut → cut ≤ high → high ≤ limit → high ≤ low + fuel →
      halve? ahead? fuel low high = some cut
  | 0, low, high, above, below, _, enough => by
    have same : low = cut := by omega
    rw [halve?, same]
  | fuel + 1, low, high, above, below, within, enough => by
    rw [halve?]
    by_cases apart : low < high
    · rw [if_pos apart]
      dsimp only
      rw [marks (low + (high - low) / 2) (by omega), Option.bind_some]
      by_cases ahead : low + (high - low) / 2 < cut
      · rw [if_pos (decide_eq_true ahead)]
        exact halve?_eq marks ahead below within (by omega)
      · rw [if_neg (by simpa using ahead)]
        exact halve?_eq marks above (by omega) (by omega) (by omega)
    · have same : low = cut := by omega
      rw [if_neg apart, same]

/-- Widening steps end on both sides of the cut. -/
theorem widen?_spec {holds? : Nat → Option Bool} {limit cut : Nat} (marks : Marks holds? limit cut)
    (inside : cut ≤ limit) : ∀ fuel near step : Nat, near < cut → near < step →
      limit ≤ step + fuel → ∃ r, widen? holds? limit fuel near step = some r ∧
        r.1 < cut ∧ cut ≤ r.2 ∧ r.2 ≤ limit
  | 0, _, _, ahead, _, _ => ⟨_, rfl, ahead, by omega, by omega⟩
  | fuel + 1, near, step, ahead, further, enough => by
    rw [widen?]
    by_cases short : step < limit
    · rw [if_pos short, marks _ short, Option.bind_some]
      by_cases holds : step < cut
      · rw [if_pos (decide_eq_true holds)]
        exact widen?_spec marks inside fuel step _ holds (by omega) (by omega)
      · rw [if_neg (by simpa using holds)]
        exact ⟨_, rfl, ahead, by omega, by omega⟩
    · rw [if_neg short]
      exact ⟨_, rfl, ahead, by omega, by omega⟩

/-- The cut is found from any place nearby. -/
theorem placeNear?_eq {ahead? : Nat → Option Bool} {length cut hint : Nat}
    (marks : Marks ahead? length cut) (inside : cut ≤ length) (near : hint < length) :
    placeNear? ahead? length hint = some cut := by
  rw [placeNear?, marks hint near, Option.bind_some]
  by_cases ahead : hint < cut
  · -- The cut lies behind the place, and is sought forwards.
    have forwards : Marks (fun step => ahead? (hint + step)) (length - hint) (cut - hint) := by
      intro i short
      refine (marks (hint + i) (by omega)).trans ?_
      exact congrArg some (decide_eq_decide.mpr (by omega))
    obtain ⟨r, run, low, high, within⟩ := widen?_spec forwards (by omega) length 0 1
      (by omega) (by omega) (by omega)
    rw [if_pos (decide_eq_true ahead), run, Option.bind_some]
    exact halve?_eq marks (by omega) (by omega) (by omega) (by omega)
  · -- It lies in front of the place, and is sought backwards.
    have backwards : Marks (fun step => (ahead? (hint - step)).map not) (hint + 1)
        (hint + 1 - cut) := by
      intro i short
      show (ahead? (hint - i)).map not = _
      rw [marks (hint - i) (by omega), Option.map_some, ← decide_not]
      refine congrArg some ?_
      exact decide_eq_decide.mpr (by omega)
    obtain ⟨r, run, low, high, within⟩ := widen?_spec backwards (by omega) length 0 1
      (by omega) (by omega) (by omega)
    rw [if_neg (by simpa using ahead), run, Option.bind_some]
    exact halve?_eq marks (by omega) (by omega) (by omega) (by omega)

/-- A place in a list, in front of which a property holds of all items and behind which of none. -/
structure Cuts (p : α → Prop) (l : List α) (n : Nat) : Prop where
  inside : n ≤ l.length
  front : ∀ x ∈ l.take n, p x
  back : ∀ x ∈ l.drop n, ¬ p x

/-- Where a property of an item is one of all items in front of it, there is such a place. -/
theorem exists_cuts {p : α → Prop} {l : List α} (closed : l.Pairwise fun a b => p b → p a) :
    ∃ n, Cuts p l n := by
  induction l with
  | nil => exact ⟨0, Nat.le_refl 0, by simp, by simp⟩
  | cons a l ih =>
    rw [List.pairwise_cons] at closed
    by_cases first : p a
    · obtain ⟨n, inside, front, back⟩ := ih closed.2
      refine ⟨n + 1, Nat.succ_le_succ inside, ?_, back⟩
      rw [List.take_succ_cons]
      exact List.forall_mem_cons.mpr ⟨first, front⟩
    · exact ⟨0, Nat.zero_le _, by simp, List.forall_mem_cons.mpr
        ⟨first, fun x there later => first (closed.1 x there later)⟩⟩

/-- The items with the property are those in front. -/
theorem Cuts.iff {p : α → Prop} {l : List α} {n : Nat} (h : Cuts p l n) {i : Nat}
    (inside : i < l.length) : p l[i] ↔ i < n := by
  constructor
  · intro holds
    by_contra behind
    have there : l[i] ∈ l.drop n := by
      rw [List.mem_drop_iff_getElem]
      exact ⟨i - n, by omega, by congr 1; omega⟩
    exact h.back _ there holds
  · intro front
    refine h.front _ ?_
    rw [List.mem_take_iff_getElem]
    exact ⟨i, by omega, rfl⟩

section Order

variable {less? : α → α → Option Bool} {P : α → Prop} {le : α → α → Prop}
  (o : Orders less? P le) {key : α} (keyed : P key) {l : List α} (run : IsRun P le l)

include o keyed run

theorem exists_marks_isBelow? : ∃ n, Cuts (fun x => ¬ le key x) l n ∧
    Marks (isBelow? less? key l.toArray) l.length n := by
  obtain ⟨n, cuts⟩ := exists_cuts (p := fun x => ¬ le key x)
    (run.sorted.imp fun first below above => below (o.trans above first))
  refine ⟨n, cuts, fun i inside => ?_⟩
  obtain ⟨less, compared, is⟩ := o.decides (run.kind _ (List.getElem_mem inside)) keyed
  rw [isBelow?, List.getElem?_toArray, List.getElem?_eq_getElem inside, Option.bind_some, compared]
  exact congrArg some (Bool.eq_iff_iff.mpr
    (is.trans ((cuts.iff inside).trans decide_eq_true_iff.symm)))

theorem exists_marks_isNotAbove? : ∃ n, Cuts (fun x => le x key) l n ∧
    Marks (isNotAbove? less? key l.toArray) l.length n := by
  obtain ⟨n, cuts⟩ := exists_cuts (p := fun x => le x key)
    (run.sorted.imp fun first later => o.trans first later)
  refine ⟨n, cuts, fun i inside => ?_⟩
  obtain ⟨less, compared, is⟩ := o.decides keyed (run.kind _ (List.getElem_mem inside))
  rw [isNotAbove?, List.getElem?_toArray, List.getElem?_eq_getElem inside, Option.bind_some,
    compared, Option.map_some]
  refine congrArg some (Bool.eq_iff_iff.mpr ?_)
  rw [Bool.not_eq_true', Bool.eq_false_iff, ne_eq, is, not_not, cuts.iff inside, decide_eq_true_iff]

/-- The items that come before a key are counted. -/
theorem below?_cuts {hint : Nat} (near : hint < l.length) :
    ∃ n, below? less? key l.toArray hint = some n ∧ Cuts (fun x => ¬ le key x) l n := by
  obtain ⟨n, cuts, marks⟩ := exists_marks_isBelow? o keyed run
  exact ⟨n, placeNear?_eq marks cuts.inside near, cuts⟩

/-- The items that a key does not come before are counted. -/
theorem notAbove?_cuts {hint : Nat} (near : hint < l.length) :
    ∃ n, notAbove? less? key l.toArray hint = some n ∧ Cuts (fun x => le x key) l n := by
  obtain ⟨n, cuts, marks⟩ := exists_marks_isNotAbove? o keyed run
  exact ⟨n, placeNear?_eq marks cuts.inside near, cuts⟩

/-! ## Runs -/

/-- An item is put into its place. -/
theorem insertSorted?_spec : ∃ l', insertSorted? less? key l = some l' ∧ IsRun P le l' ∧
    l'.Perm (key :: l) := by
  obtain ⟨n, cuts, marks⟩ := exists_marks_isNotAbove? o keyed run
  have place : halve? (isNotAbove? less? key l.toArray) (l.toArray.size + 1) 0 l.toArray.size
      = some n := halve?_eq marks (Nat.zero_le n) cuts.inside (Nat.le_refl _) (by simp)
  have perm : (l.take n ++ key :: l.drop n).Perm (key :: l) :=
    List.perm_middle.trans ((List.take_append_drop n l).symm ▸ List.Perm.refl _)
  refine ⟨l.take n ++ key :: l.drop n, ?_, ⟨fun a there => ?_, ?_⟩, perm⟩
  · rw [insertSorted?, place, Option.map_some]
  · rcases List.mem_cons.mp (perm.mem_iff.mp there) with rfl | old
    · exact keyed
    · exact run.kind a old
  · have behind : ∀ x ∈ l.drop n, le key x :=
      fun x there => (o.total key x).resolve_right (cuts.back x there)
    rw [List.pairwise_append, List.pairwise_cons]
    refine ⟨run.sorted.sublist (List.take_sublist n l),
      ⟨behind, run.sorted.sublist (List.drop_sublist n l)⟩, fun a front => ?_⟩
    exact List.forall_mem_cons.mpr ⟨cuts.front a front,
      fun b back => o.trans (cuts.front a front) (behind b back)⟩

omit keyed run

/-- Items are put into their places one after the other. -/
theorem insertAll_spec {items : List α} (kind : ∀ a ∈ items, P a) : ∀ {l : List α}, IsRun P le l →
    ∃ l', items.foldl (fun run item => run.bind (insertSorted? less? item)) (some l) = some l' ∧
      IsRun P le l' ∧ l'.Perm (l ++ items) := by
  induction items with
  | nil => exact fun {l} run => ⟨l, rfl, run, by rw [List.append_nil]⟩
  | cons a items ih =>
    intro l run
    rw [List.forall_mem_cons] at kind
    obtain ⟨l₁, inserted, run₁, perm₁⟩ := insertSorted?_spec o kind.1 run
    obtain ⟨l₂, folded, run₂, perm₂⟩ := ih kind.2 run₁
    refine ⟨l₂, ?_, run₂, perm₂.trans ?_⟩
    · rw [List.foldl_cons, Option.bind_some, inserted, folded]
    · exact (perm₁.append_right items).trans List.perm_middle.symm

omit o in
/-- A stretch goes on as long as each item stands to the one before it as the direction says; it is
gathered with the last item first. -/
theorem runOf?_spec (descending : Bool) {R : α → α → Prop}
    (trans : ∀ {a b c}, R a b → R b c → R a c)
    (goes : ∀ {a b}, P a → P b → ∃ less, less? a b = some less ∧ (less = descending → R a b)) :
    ∀ {rest run : List α} {last : α}, (∀ a ∈ last :: rest, P a) → (last :: run).Pairwise R →
      ∃ r, runOf? less? descending run last rest = some r ∧ r.1.Pairwise R ∧ r.1 ≠ [] ∧
        r.1.reverse ++ r.2 = (last :: run).reverse ++ rest := by
  intro rest
  induction rest with
  | nil => exact fun {run last} _ sorted => ⟨_, rfl, sorted, List.cons_ne_nil _ _, rfl⟩
  | cons a rest ih =>
    intro run last kind sorted
    rw [List.forall_mem_cons, List.forall_mem_cons] at kind
    obtain ⟨kindLast, kindNext, kindRest⟩ := kind
    obtain ⟨less, compared, is⟩ := goes kindNext kindLast
    rw [runOf?, compared, Option.bind_some]
    by_cases goesOn : less = descending
    · rw [if_pos (by simpa using goesOn)]
      have longer : (a :: last :: run).Pairwise R := by
        refine List.pairwise_cons.mpr ⟨List.forall_mem_cons.mpr ⟨is goesOn, fun b there => ?_⟩,
          sorted⟩
        exact trans (is goesOn) ((List.pairwise_cons.mp sorted).1 b there)
      obtain ⟨r, found, sorted', given, same⟩ :=
        ih (List.forall_mem_cons.mpr ⟨kindNext, kindRest⟩) longer
      refine ⟨r, found, sorted', given, same.trans ?_⟩
      rw [List.reverse_cons (a := a), List.append_assoc, List.singleton_append]
    · rw [if_neg (by simpa using goesOn)]
      exact ⟨_, rfl, sorted, List.cons_ne_nil _ _, rfl⟩

/-- The first run of a list is in order, whichever way it went. -/
theorem firstRun?_spec {items : List α} (kind : ∀ a ∈ items, P a) (given : items ≠ []) :
    ∃ r, firstRun? less? items = some r ∧ IsRun P le r.1 ∧ r.1 ≠ [] ∧
      (r.1 ++ r.2).Perm items := by
  match items, kind with
  | [a], kind => exact ⟨_, rfl, ⟨kind, List.pairwise_singleton _ a⟩, List.cons_ne_nil _ _, .refl _⟩
  | a :: b :: rest, kind =>
    have kindRest : ∀ x ∈ b :: rest, P x := fun x there => kind x (List.mem_cons_of_mem a there)
    have kindA := kind a List.mem_cons_self
    have kindB := kindRest b List.mem_cons_self
    obtain ⟨descending, compared, is⟩ := o.decides kindB kindA
    rw [firstRun?, compared, Option.bind_some]
    cases descending with
    | true =>
      obtain ⟨r, found, sorted, nonempty, same⟩ := runOf?_spec (R := le) true o.trans
        (fun {x y} kindX kindY => (o.decides kindX kindY).imp fun less told =>
          ⟨told.1, fun goes => (o.total x y).resolve_right (told.2.mp goes)⟩) kindRest
        (List.pairwise_pair.mpr ((o.total b a).resolve_right (is.mp rfl)))
      have perm : (r.1 ++ r.2).Perm (a :: b :: rest) :=
        ((List.reverse_perm r.1).symm.append_right r.2).trans (.of_eq same)
      refine ⟨r, by rw [found, Option.map_some, if_pos rfl], ⟨fun x there => ?_, sorted⟩,
        nonempty, perm⟩
      exact kind x (perm.subset (List.mem_append_left _ there))
    | false =>
      obtain ⟨r, found, sorted, nonempty, same⟩ := runOf?_spec (R := fun x y => le y x) false
        (fun first second => o.trans second first)
        (fun {x y} kindX kindY => (o.decides kindX kindY).imp fun less told =>
          ⟨told.1, fun goes => by_contra fun not => absurd (told.2.mpr not) (by simp [goes])⟩)
        kindRest (List.pairwise_pair.mpr (by_contra fun not => absurd (is.mpr not) (by decide)))
      have perm : (r.1.reverse ++ r.2).Perm (a :: b :: rest) := .of_eq same
      refine ⟨_, by rw [found, Option.map_some], ⟨fun x there => ?_,
        List.pairwise_reverse.mpr sorted⟩, by simpa using nonempty, perm⟩
      exact kind x (perm.subset (List.mem_append_left _ there))

/-- The next run of a list is in order, and with the rest it is the list. -/
theorem nextRun?_spec (least : Nat) {items : List α} (kind : ∀ a ∈ items, P a)
    (given : items ≠ []) : ∃ r, nextRun? less? least items = some r ∧ IsRun P le r.1 ∧ r.1 ≠ [] ∧
      (r.1 ++ r.2).Perm items := by
  obtain ⟨⟨first, rest⟩, found, run, nonempty, perm⟩ := firstRun?_spec o kind given
  have kindRest : ∀ a ∈ rest.take (least - first.length), P a := fun a there =>
    kind a (perm.subset (List.mem_append_right _ (List.mem_of_mem_take there)))
  obtain ⟨longer, folded, run', perm'⟩ := insertAll_spec o kindRest run
  refine ⟨(longer, rest.drop (least - first.length)), ?_, run', ?_, ?_⟩
  · rw [nextRun?, found, Option.bind_some]
    dsimp only
    rw [folded, Option.map_some]
  · rintro rfl
    exact nonempty (List.append_eq_nil_iff.mp perm'.nil_eq.symm).1
  · refine (perm'.append_right _).trans ?_
    rwa [List.append_assoc, List.take_append_drop]

end Order

end DataShape.Sorting
