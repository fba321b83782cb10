import DataShape.Proofs.Predicate.Meaning
import DataShape.Proofs.Schema.Quiet
import DataShape.Proofs.Schema.Run
import DataShape.Proofs.Text
import DataShape.Proofs.Walk

/-! # Structural matches and dotted paths

An object matches the entries of a mapping by a recursion over the mapping, and a dotted path is
followed by a loop over its keys. Where look-ups have no effect both say the same: an object matches
a mapping if the path to each of its leaves leads to an equal value, and the path to each empty
mapping in it to a value that is there.

* `World.At`, `World.Keyed` — what lies in a mapping behind keys, and mappings with such keys.
* `World.SteadySet` — values in which keys are looked up without effect.
* `exec_matchesValue` — one case for each shape of an expected value.
* `structural_iff_paths` — an object matches a mapping if its paths lead to what is expected. -/

namespace DataShape

/-! ## Actions that change nothing -/

section Still

variable {w : World} {check : Value × Value → Action Bool}

/-- Checks without effect that are made one after the other, up to the first that does not pass. -/
theorem exec_allM_still {good : Value × Value → Prop} {entries : Entries}
    (each : ∀ e ∈ entries, ∃ r, exec (check e) w = (r, w) ∧ (r = .ok true ↔ good e)) :
    ∃ r, exec (entries.allM check) w = (r, w) ∧ (r = .ok true ↔ ∀ e ∈ entries, good e) := by
  induction entries with
  | nil => exact ⟨.ok true, rfl, iff_of_true rfl nofun⟩
  | cons e rest ih =>
    obtain ⟨r, first, told⟩ := each e List.mem_cons_self
    obtain ⟨r', others, told'⟩ := ih fun e there => each e (List.mem_cons_of_mem _ there)
    rw [List.allM, List.forall_mem_cons, ← told, ← told']
    cases r with
    | error fault => exact ⟨.error fault, exec_bind_error first _, by simp⟩
    | ok passed =>
      rw [exec_bind_ok first]
      cases passed with
      | false => exact ⟨.ok false, rfl, by simp⟩
      | true => exact ⟨r', others, by simp⟩

end Still

/-! ## Values inside mappings -/

/-- A value is present if it is neither missing nor empty. -/
theorem Value.isPresent_iff (v : Value) :
    v.isPresent = true ↔ v.isMissing = false ∧ v.isNull = false := by
  cases v <;> simp [isPresent, isMissing, isNull]

namespace World

/-- What lies inside a value behind keys, each of which is a text that a mapping has as a key. -/
inductive At (w : World) : Value → List String → Value → Prop where
  | here (v : Value) : At w v [] v
  | inside {v y x : Value} {entries : Entries} {k : String} {ks : List String}
      (mapping : w.mapping? v = some entries) (there : (.str k, y) ∈ entries)
      (deeper : At w y ks x) : At w v (k :: ks) x

/-- A key is a text without dots. -/
def IsDotless (key : Value) : Prop := ∃ k, key = .str k ∧ '.' ∉ k.toList

/-- A value in which the keys of all mappings are texts without dots, with so many live parts of
objects inside each other at most. -/
inductive Keyed (w : World) : Nat → Value → Prop where
  | single {n : Nat} {v : Value} (h : w.mapping? v = none) : Keyed w n v
  | dict {n share : Nat} {entries : Entries} (keys : ∀ e ∈ entries, IsDotless e.1)
      (values : ∀ e ∈ entries, Keyed w n e.2) : Keyed w n (.dict share entries)
  | live {n : Nat} {part : Part} {readOnly : Bool}
      (keys : ∀ e ∈ w.partEntries part, IsDotless e.1)
      (values : ∀ e ∈ w.partEntries part, Keyed w n e.2) : Keyed w (n + 1) (.live part readOnly)

/-- In a world keys are looked up in the values of a set without effect, and what is found is a
value of the set. -/
def SteadySet (d : Dispatch) (w : World) (P : Value → Prop) : Prop :=
  ∀ v, P v → ∀ name : String,
    ∃ r, exec (lookupKey d v (.str name)) w = (r, w) ∧ ∀ x, r = .ok x → P x

/-- Keys are followed from a value to another one, without effect. -/
def Finds (d : Dispatch) (w : World) (obj : Value) (keys : List String) (x : Value) : Prop :=
  exec (followKeys d .missing obj (keys.map .str)) w = (.ok x, w)

variable {w : World}

/-- What has no mapping has nothing behind a key. -/
theorem At.eq_of_single {v x : Value} {ks : List String} (single : w.mapping? v = none)
    (at' : w.At v ks x) : ks = [] ∧ x = v := by
  cases at' with
  | here => exact ⟨rfl, rfl⟩
  | inside mapping =>
    rw [single] at mapping
    cases mapping

/-- So it is inside such a value. -/
theorem Keyed.of_mapping {n : Nat} {v : Value} {entries : Entries} (keyed : w.Keyed n v)
    (mapping : w.mapping? v = some entries) :
    ∃ m, ∀ e ∈ entries, IsDotless e.1 ∧ w.Keyed m e.2 := by
  cases keyed with
  | single h => cases h.symm.trans mapping
  | dict keys values =>
    obtain rfl := Option.some.inj mapping
    exact ⟨_, fun e there => ⟨keys e there, values e there⟩⟩
  | live keys values =>
    obtain rfl := Option.some.inj mapping
    exact ⟨_, fun e there => ⟨keys e there, values e there⟩⟩

/-- A mapping of named values is such a value if these are and the names have no dots. -/
theorem Keyed.ofFields {n : Nat} {fields : List (String × Value)}
    (names : ∀ f ∈ fields, '.' ∉ f.1.toList) (values : ∀ f ∈ fields, w.Keyed n f.2) :
    w.Keyed n (.ofFields fields) := by
  refine .dict (fun e there => ?_) fun e there => ?_ <;>
    obtain ⟨f, inside, rfl⟩ := List.mem_map.mp there
  · exact ⟨f.1, rfl, names f inside⟩
  · exact values f inside

/-- The keys behind which something lies in it have no dots. -/
theorem At.dotless {v x : Value} {ks : List String} (at' : w.At v ks x) :
    ∀ {n : Nat}, w.Keyed n v → ∀ k ∈ ks, '.' ∉ k.toList := by
  induction at' with
  | here => exact nofun
  | inside mapping there _ ih =>
    intro n keyed
    obtain ⟨m, inner⟩ := keyed.of_mapping mapping
    obtain ⟨⟨k, same, clean⟩, value⟩ := inner _ there
    obtain rfl := Value.str.inj same
    exact List.forall_mem_cons.mpr ⟨clean, ih value⟩

/-- Behind some keys, or none, there is a leaf or an empty mapping. -/
def HasEnd (w : World) (v : Value) : Prop :=
  ∃ ks x, w.At v ks x ∧ ∀ es, w.mapping? x = some es → es = []

/-- A mapping whose values have ends has one. -/
theorem hasEnd_of_mapping {v : Value} {entries : Entries} (mapping : w.mapping? v = some entries)
    (keys : ∀ e ∈ entries, IsDotless e.1) (values : ∀ e ∈ entries, w.HasEnd e.2) :
    w.HasEnd v := by
  cases entries with
  | nil => exact ⟨[], v, .here v, fun es same => Option.some.inj (same.symm.trans mapping)⟩
  | cons e rest =>
    obtain ⟨k, key, -⟩ := keys e List.mem_cons_self
    obtain ⟨ks, x, deeper, last⟩ := values e List.mem_cons_self
    exact ⟨k :: ks, x, .inside mapping (key ▸ List.mem_cons_self) deeper, last⟩

theorem Keyed.hasEnd {n : Nat} {v : Value} (keyed : w.Keyed n v) : w.HasEnd v := by
  induction keyed with
  | single h => exact ⟨[], _, .here _, fun es same => nomatch h.symm.trans same⟩
  | dict keys _ ih => exact hasEnd_of_mapping rfl keys ih
  | live keys _ ih => exact hasEnd_of_mapping rfl keys ih

end World

/-! ## Expected values -/

namespace World

variable (d : Dispatch) (w : World)

/-- What is expected at the end of some keys is found there: a value that is no mapping is equal to
what is found, and where an empty mapping is expected a value is there. -/
def EndsWell (obj : Value) (keys : List String) (want : Value) : Prop :=
  match w.mapping? want with
  | none => ∃ x, w.Finds d obj keys x ∧ x.isMissing = false ∧ w.equal x want = true
  | some [] => ∃ x, w.Finds d obj keys x ∧ x.isPresent = true
  | some (_ :: _) => True

/-- All that is expected inside a value is found on an object. -/
def Suits (want obj : Value) : Prop := ∀ ks x, w.At want ks x → w.EndsWell d obj ks x

/-- A key leads to a value on which all is found that is expected under the key. -/
def SuitsUnder (k : String) (want obj : Value) : Prop :=
  ∃ x, exec (lookupKey d obj (.str k)) w = (.ok x, w) ∧ x.isMissing = false ∧ w.Suits d want x

variable {d} {w}

/-- Behind a key that leads to a value the other keys are followed from there. -/
theorem endsWell_cons {obj y : Value} {k : String}
    (found : exec (lookupKey d obj (.str k)) w = (.ok y, w)) (given : y.isMissing = false)
    (ks : List String) (want : Value) :
    w.EndsWell d obj (k :: ks) want ↔ w.EndsWell d y ks want := by
  have same : ∀ x, w.Finds d obj (k :: ks) x ↔ w.Finds d y ks x := by
    intro x
    unfold Finds
    rw [List.map_cons, followKeys, exec_bind_ok found, given]
    rfl
  unfold EndsWell
  simp only [same]

/-- Where something is expected behind a key, and found, the key leads to a value. -/
theorem exists_of_endsWell {P : Value → Prop} (steady : w.SteadySet d P) {obj : Value}
    (member : P obj) {k : String} {ks : List String} {want : Value}
    (last : ∀ es, w.mapping? want = some es → es = [])
    (well : w.EndsWell d obj (k :: ks) want) :
    ∃ y, exec (lookupKey d obj (.str k)) w = (.ok y, w) ∧ y.isMissing = false := by
  obtain ⟨x, finds, given⟩ : ∃ x, w.Finds d obj (k :: ks) x ∧ x.isMissing = false := by
    unfold EndsWell at well
    split at well
    · obtain ⟨x, finds, given, -⟩ := well
      exact ⟨x, finds, given⟩
    · obtain ⟨x, finds, present⟩ := well
      exact ⟨x, finds, ((Value.isPresent_iff x).mp present).1⟩
    · next mapping => cases last _ mapping
  obtain ⟨r, found, -⟩ := steady obj member k
  unfold Finds at finds
  rw [List.map_cons, followKeys] at finds
  cases r with
  | error e =>
    rw [exec_bind_error found] at finds
    cases finds
  | ok y =>
    refine ⟨y, found, ?_⟩
    rw [exec_bind_ok found] at finds
    by_contra missing
    rw [if_pos (by simpa using missing)] at finds
    obtain ⟨rfl, -⟩ := exec_pure_eq_ok.mp finds
    cases given

/-- What is expected behind the keys of a mapping is expected under each of them. -/
theorem suitsUnder_iff {P : Value → Prop} (steady : w.SteadySet d P) {obj : Value}
    (member : P obj) {want : Value} {entries : Entries} (mapping : w.mapping? want = some entries)
    (ends : ∀ e ∈ entries, w.HasEnd e.2) :
    (∀ k ks x, w.At want (k :: ks) x → w.EndsWell d obj (k :: ks) x) ↔
      ∀ e ∈ entries, ∀ k, e.1 = .str k → w.SuitsUnder d k e.2 obj := by
  constructor
  · rintro all ⟨_, y⟩ there k rfl
    obtain ⟨ks, x, deeper, last⟩ := ends _ there
    obtain ⟨z, found, given⟩ :=
      exists_of_endsWell steady member last (all k ks x (.inside mapping there deeper))
    refine ⟨z, found, given, fun ks' x' deeper' => ?_⟩
    exact (endsWell_cons found given ks' x').mp (all k ks' x' (.inside mapping there deeper'))
  · intro each k ks x at'
    cases at' with
    | inside mapping' there deeper =>
      obtain rfl := Option.some.inj (mapping.symm.trans mapping')
      obtain ⟨z, found, given, suits⟩ := each _ there k rfl
      exact (endsWell_cons found given ks x).mpr (suits ks x deeper)

/-- What is expected in a mapping is found on a value if something is there, and what is expected
under each of its keys. -/
theorem suits_iff {P : Value → Prop} (steady : w.SteadySet d P) {obj : Value}
    (member : P obj) (given : obj.isMissing = false) {want : Value} {entries : Entries}
    (mapping : w.mapping? want = some entries) (keys : ∀ e ∈ entries, IsDotless e.1)
    (ends : ∀ e ∈ entries, w.HasEnd e.2) : w.Suits d want obj ↔ obj.isNull = false ∧
      ∀ e ∈ entries, ∀ k, e.1 = .str k → w.SuitsUnder d k e.2 obj := by
  rw [← suitsUnder_iff steady member mapping ends]
  constructor
  · refine fun suits => ⟨?_, fun k ks x at' => suits _ x at'⟩
    cases entries with
    | nil =>
      have here := suits [] want (.here want)
      rw [EndsWell, mapping] at here
      obtain ⟨x, finds, present⟩ := here
      obtain ⟨rfl, -⟩ := exec_pure_eq_ok.mp finds
      exact ((Value.isPresent_iff obj).mp present).2
    | cons e rest =>
      -- nothing is found in an empty value, and something is expected under the first key
      obtain ⟨k, key, -⟩ := keys e List.mem_cons_self
      obtain ⟨ks, x, deeper, last⟩ := ends e List.mem_cons_self
      obtain ⟨y, found, there⟩ := exists_of_endsWell steady member last
        (suits (k :: ks) x (.inside mapping (key ▸ List.mem_cons_self) deeper))
      cases obj <;> first | rfl | skip
      obtain ⟨rfl, -⟩ := exec_pure_eq_ok.mp found
      cases there
  · rintro ⟨something, below⟩ ks x at'
    cases at' with
    | here =>
      unfold EndsWell
      rw [mapping]
      cases entries with
      | cons => trivial
      | nil => exact ⟨obj, rfl, (Value.isPresent_iff obj).mpr ⟨given, something⟩⟩
    | inside mapping' there deeper => exact below _ _ x (.inside mapping' there deeper)

/-- What is expected of a single value is that it is equal. -/
theorem suits_single {want obj : Value} (single : w.mapping? want = none)
    (given : obj.isMissing = false) : w.Suits d want obj ↔ w.equal obj want = true := by
  constructor
  · intro suits
    have here := suits [] want (.here want)
    rw [EndsWell, single] at here
    obtain ⟨x, finds, -, equal⟩ := here
    obtain ⟨rfl, -⟩ := exec_pure_eq_ok.mp finds
    exact equal
  · intro equal ks x at'
    obtain ⟨rfl, rfl⟩ := at'.eq_of_single single
    rw [EndsWell, single]
    exact ⟨obj, rfl, given, equal⟩

end World

/-! ## Evaluation -/

/-- The expected entries are checked one after the other. -/
theorem matchesEntries_eq_allM (d : Dispatch) (matchesLive : Part → Value → Action Bool)
    (entries : Entries) (obj : Value) : matchesEntries d matchesLive entries obj
      = entries.allM fun entry => matchesEntry d matchesLive entry obj := by
  induction entries with
  | nil => rw [matchesEntries, List.allM]
  | cons entry rest ih =>
    rw [matchesEntries, List.allM, ih]
    refine bind_congr fun found => ?_
    cases found <;> rfl

/-- A value that is no mapping is compared. -/
theorem matchesValue_single {d : Dispatch} {matchesLive : Part → Value → Action Bool} {w : World}
    {want : Value} (single : w.mapping? want = none) (x : Value) :
    matchesValue d matchesLive want x = areEqual x want := by
  cases want <;> first
    | (cases single; done)
    | (rw [matchesValue] <;> (intros; contradiction))

section Evaluation

variable {d : Dispatch} {w : World} {P : Value → Prop} (steady : w.SteadySet d P)

include steady

/-- An entry is checked without effect, if its value is where the key leads. -/
theorem exec_matchesEntry {matchesLive : Part → Value → Action Bool} {obj : Value} (member : P obj)
    {e : Value × Value} (key : World.IsDotless e.1)
    (value : ∀ x, P x → x.isMissing = false → ∃ r,
      exec (matchesValue d matchesLive e.2 x) w = (r, w) ∧ (r = .ok true ↔ w.Suits d e.2 x)) :
    ∃ r, exec (matchesEntry d matchesLive e obj) w = (r, w) ∧
      (r = .ok true ↔ ∀ k, e.1 = .str k → w.SuitsUnder d k e.2 obj) := by
  obtain ⟨k, want⟩ := e
  obtain ⟨k, rfl, -⟩ := key
  have only : (∀ m, Value.str k = .str m → w.SuitsUnder d m want obj)
      ↔ w.SuitsUnder d k want obj :=
    ⟨fun h => h k rfl, fun h m same => Value.str.inj same ▸ h⟩
  rw [matchesEntry, only]
  obtain ⟨r, found, inside⟩ := steady obj member k
  cases r with
  | error fault =>
    refine ⟨.error fault, exec_bind_error found _, iff_of_false nofun ?_⟩
    rintro ⟨x, found', -⟩
    rw [found] at found'
    cases found'
  | ok x =>
    rw [exec_bind_ok found]
    have only' : w.SuitsUnder d k want obj ↔ x.isMissing = false ∧ w.Suits d want x := by
      constructor
      · rintro ⟨y, found', rest⟩
        rw [found] at found'
        obtain ⟨same, -⟩ := Prod.mk.inj found'
        exact Except.ok.inj same ▸ rest
      · exact fun rest => ⟨x, found, rest⟩
    rw [only']
    cases given : x.isMissing with
    | true => exact ⟨.ok false, rfl, iff_of_false nofun nofun⟩
    | false =>
      obtain ⟨r, run, told⟩ := value x (inside x rfl) given
      exact ⟨r, run, by simpa using told⟩

/-- **Matching is finding what is expected.** A value is matched with an expected one without
effect, and it is a match if all that is expected is found. By induction on the expected value: a
mapping is matched entry by entry, and any other value is compared. -/
theorem exec_matchesValue {n : Nat} {want : Value} (keyed : w.Keyed n want) :
    ∀ depth, n ≤ depth → ∀ x, P x → x.isMissing = false → ∃ r,
      exec (matchesValue d (matchesPart d depth) want x) w = (r, w) ∧
        (r = .ok true ↔ w.Suits d want x) := by
  induction keyed with
  | @single n v single =>
    intro depth _ x member given
    rw [matchesValue_single single, World.suits_single single given]
    exact ⟨.ok (w.equal x v), rfl, by simp⟩
  | @dict n share entries keys values ih =>
    intro depth enough x member given
    have mapping : w.mapping? (.dict share entries) = some entries := rfl
    rw [World.suits_iff steady member given mapping keys fun e there => (values e there).hasEnd]
    obtain ⟨r, run, told⟩ := exec_allM_still fun e there =>
      exec_matchesEntry steady member (keys e there) (ih e there depth enough)
    rw [matchesValue, matchesEntries_eq_allM]
    cases null : x.isNull with
    | true => exact ⟨.ok false, rfl, iff_of_false nofun nofun⟩
    | false => exact ⟨r, run, by simpa using told⟩
  | @live n part readOnly keys values ih =>
    intro depth enough x member given
    have mapping : w.mapping? (.live part readOnly) = some (w.partEntries part) := rfl
    rw [World.suits_iff steady member given mapping keys fun e there => (values e there).hasEnd]
    obtain ⟨depth, rfl⟩ : ∃ k, depth = k + 1 := ⟨depth - 1, by omega⟩
    have each := fun e there =>
      exec_matchesEntry steady member (keys e there) (ih e there depth (by omega))
    obtain ⟨r, run, told⟩ := exec_allM_still each
    rw [matchesValue, matchesPart]
    cases null : x.isNull with
    | true => exact ⟨.ok false, rfl, iff_of_false nofun nofun⟩
    | false =>
      -- no check changes the world, so the part stays as it is
      have still : ∀ e ∈ w.partEntries part, ∀ (_ : Bool) u, u = w → (exec (do
          let found ← matchesEntry d (matchesPart d depth) e x
          return (found, found)) u).2 = w := by
        rintro e there _ _ rfl
        obtain ⟨r, checked, -⟩ := each e there
        rw [exec_bind, checked]
        cases r <;> rfl
      have same : ∀ u, u = w → u.partEntries part = w.partEntries part :=
        fun _ same => congrArg (World.partEntries · part) same
      have walk := exec_walkPart_still same still true rfl
      rw [visitEntries_eq_allM] at walk
      exact ⟨r, walk.trans run, by simpa using told⟩

/-- The entries of a mapping are matched without effect, if all is found that is expected under its
keys. -/
theorem exec_holds_structural {obj : Value} (member : P obj) (id : Nat) {entries : Entries}
    (keyed : w.Keyed matchDepth (.freshDict entries)) : ∃ r,
      exec ((Predicate.structural id entries).holds d obj) w = (r, w) ∧
        (r = .ok true ↔ ∀ k ks x, w.At (.freshDict entries) (k :: ks) x →
          w.EndsWell d obj (k :: ks) x) := by
  cases keyed with
  | single h => cases h
  | dict keys values =>
    have mapping : w.mapping? (.freshDict entries) = some entries := rfl
    rw [World.suitsUnder_iff steady member mapping fun e there => (values e there).hasEnd,
      Predicate.holds, matchesEntries_eq_allM]
    exact exec_allM_still fun e there => exec_matchesEntry steady member (keys e there)
      (exec_matchesValue steady (values e there) matchDepth le_rfl)

end Evaluation

/-- **Structural matches follow dotted paths.** Where keys are looked up without effect, an object
matches a mapping whose keys are texts without dots, at all depths, just if the dotted path to each
leaf of the mapping leads to an equal value on the object, and the path to each empty mapping inside
it to a value that is neither absent nor empty. -/
theorem structural_iff_paths {d : Dispatch} {w : World} {P : Value → Prop}
    (steady : w.SteadySet d P) {obj : Value} (member : P obj) (id : Nat) {entries : Entries}
    (keyed : w.Keyed matchDepth (.freshDict entries)) :
    (exec ((Predicate.structural id entries).holds d obj) w).1 = .ok true ↔
      (∀ keys want, w.At (.freshDict entries) keys want → w.mapping? want = none →
        ∃ x, exec (resolvePath d obj (".".intercalate keys) .missing) w = (.ok x, w) ∧
          x.isMissing = false ∧ w.equal x want = true) ∧
      ∀ keys want, keys ≠ [] → w.At (.freshDict entries) keys want → w.mapping? want = some [] →
        ∃ x, exec (resolvePath d obj (".".intercalate keys) .missing) w = (.ok x, w) ∧
          x.isMissing = false ∧ x.isNull = false := by
  obtain ⟨r, run, told⟩ := exec_holds_structural steady member id keyed
  rw [run, told]
  have path : ∀ {k ks x}, w.At (.freshDict entries) (k :: ks) x → ∀ y,
      exec (resolvePath d obj (".".intercalate (k :: ks)) .missing) w = (.ok y, w)
        ↔ w.Finds d obj (k :: ks) y := by
    intro k ks x at' y
    rw [resolvePath, Text.splitText_intercalate (List.cons_ne_nil k ks) (at'.dotless keyed)]
    rfl
  constructor
  · refine fun all => ⟨fun keys want at' single => ?_, fun keys want inside at' empty => ?_⟩
    · cases keys with
      | nil =>
        cases at'
        cases single
      | cons k ks =>
        have well := all k ks want at'
        rw [World.EndsWell, single] at well
        simpa only [path at'] using well
    · obtain ⟨k, ks, rfl⟩ := List.exists_cons_of_ne_nil inside
      have well := all k ks want at'
      rw [World.EndsWell, empty] at well
      simpa only [path at', Value.isPresent_iff] using well
  · rintro ⟨leaves, empties⟩ k ks want at'
    unfold World.EndsWell
    split
    · next single => simpa only [path at'] using leaves _ want at' single
    · next empty =>
      simpa only [path at', Value.isPresent_iff] using
        empties _ want (List.cons_ne_nil k ks) at' empty
    · trivial

/-- Keys are looked up in inert values without effect. -/
theorem World.steadySet_inert (call : Provider) (depth : Nat) (w : World) :
    w.SteadySet (call.dispatch (depth + 1)) Value.Inert := by
  intro v inert name
  obtain ⟨x, inert', run⟩ := inert.exec_lookupKey call depth name
  exact ⟨.ok x, run w, fun y same => Except.ok.inj same ▸ inert'⟩

/-- An object with a mapping of limits, of which one is not given, and a mapping without entries. -/
def limitedObject : Value :=
  .record 0 [(.str "limits", .ofFields [("min", .int 0), ("max", .null)]),
    (.str "notes", .ofFields [])]

/-- It matches a mapping with one of the limits, as zero is equal to false. -/
theorem structural_iff_paths_limits :
    let d := answering.dispatch 2
    let w := World.empty "" []
    let expected : Entries :=
      [(.str "limits", .ofFields [("min", .bool false)]), (.str "notes", .ofFields [])]
    w.SteadySet d Value.Inert ∧ limitedObject.Inert ∧ w.Keyed matchDepth (.freshDict expected) ∧
    (exec ((Predicate.structural 0 expected).holds d limitedObject) w).1 = .ok true ∧
    (∃ x, exec (resolvePath d limitedObject "limits.min" .missing) w = (.ok x, w) ∧
      x.isMissing = false ∧ w.equal x (.bool false) = true) ∧
    ∃ x, exec (resolvePath d limitedObject "notes" .missing) w = (.ok x, w) ∧
      x.isMissing = false ∧ x.isNull = false := by
  intro d w expected
  have steady : w.SteadySet d Value.Inert := w.steadySet_inert answering 1
  have inert : limitedObject.Inert := Value.inert_of_isInert limitedObject rfl
  have keyed : w.Keyed matchDepth (.freshDict expected) := by
    show w.Keyed matchDepth (.ofFields [("limits", .ofFields [("min", .bool false)]),
      ("notes", .ofFields [])])
    refine .ofFields (by decide) fun f there => ?_
    simp only [List.mem_cons, List.not_mem_nil, or_false] at there
    rcases there with rfl | rfl
    · refine .ofFields (by decide) fun f there => ?_
      obtain rfl := List.mem_singleton.mp there
      exact .single rfl
    · exact .ofFields nofun nofun
  have holds : (exec ((Predicate.structural 0 expected).holds d limitedObject) w).1 = .ok true := by
    rfl
  obtain ⟨leaves, empties⟩ := (structural_iff_paths steady inert 0 keyed).mp holds
  refine ⟨steady, inert, keyed, holds, ?_, ?_⟩
  · exact leaves ["limits", "min"] (.bool false)
      (.inside rfl List.mem_cons_self (.inside rfl List.mem_cons_self (.here _))) rfl
  · exact empties ["notes"] (.ofFields []) (List.cons_ne_nil _ _)
      (.inside rfl (List.mem_cons_of_mem _ List.mem_cons_self) (.here _)) rfl

end DataShape
