import DataShape.Proofs.Schema.Producing
import DataShape.Proofs.Schema.Run

/-! # Filling a record of defaults

A record of defaults is filled field by field, in the order of the list for its flag: each field is
asked anew whether it is left out, and if not, what it gives is put behind the other entries. Each
step finds the world that the last one left, so what was declared at first may have changed when a
field comes to its turn.

* `Filled` — how a record is filled for some names, and the worlds on the way.
* `Filled.run` — what is filled for some names is where the walk goes on.
* `exec_defaultRecord_eq_ok`, `exec_defaultRecord_eq_error` — a record that was filled for all names
  is the result; anything that stops on the way is the fault.
* `World.Consults`, `producer_faults` — functions that fail when a default is made. -/

namespace DataShape

/-! ## Walks -/

/-- Whether a walk over fields passes over one. -/
def passesOver (d : Dispatch) (uiOnly : Bool) (f : Nat) : Action Bool :=
  if uiOnly then uiExclude d f else pure false

/-- The names for which a record of defaults is filled, and whether fields are passed over. -/
def defaultNames (d : Dispatch) (s : Nat) (flag : Value) : Action (List Value × Bool) := do
  let names ← fieldNames d s (bothFlags [flag])
  return (names, (← Projection.ofFlags d [flag]).uiOnly)

section Walks

variable (d : Dispatch) (uiOnly : Bool) (field : Value → Nat)

/-- The entries that fields under some names give, one after the other, each in the world that it
finds; `G` says what a field gives. -/
inductive Filled (G : Nat → World → Option Value → World → Prop) :
    World → List Value → Entries → World → Prop where
  | done (w : World) : Filled G w [] [] w
  | hidden {n : Value} {rest : List Value} {es : Entries} {w w₁ w' : World}
      (flag : exec (passesOver d uiOnly (field n)) w = (.ok true, w₁))
      (others : Filled G w₁ rest es w') : Filled G w (n :: rest) es w'
  | entered {n : Value} {rest : List Value} {es : Entries} {o : Option Value}
      {w w₁ w₂ w' : World} (flag : exec (passesOver d uiOnly (field n)) w = (.ok false, w₁))
      (gives : G (field n) w₁ o w₂) (others : Filled G w₂ rest es w') :
      Filled G w (n :: rest) ((o.map (Prod.mk n)).toList ++ es) w'

/-- What stops at a field: its flag cannot be read, or its default breaks. -/
inductive Stops (f : Nat) (w : World) : Fault → World → Prop where
  | flag {e : Fault} {w' : World} (fails : exec (passesOver d uiOnly f) w = (.error e, w')) :
      Stops f w e w'
  | breaks {e : Fault} {w₁ w' : World} (flag : exec (passesOver d uiOnly f) w = (.ok false, w₁))
      (breaks : Fails d f w₁ e w') : Stops f w e w'

variable {d uiOnly field} {G G' : Nat → World → Option Value → World → Prop} {w w' : World}

theorem Filled.mono {names : List Value} {es : Entries}
    (sub : ∀ f w o w', G f w o w' → G' f w o w') (h : Filled d uiOnly field G w names es w') :
    Filled d uiOnly field G' w names es w' := by
  induction h with
  | done w => exact .done w
  | hidden flag _ ih => exact .hidden flag ih
  | entered flag gives _ ih => exact .entered flag (sub _ _ _ _ gives) ih

/-- Entries have the names as keys, in the order of the names. -/
theorem Filled.keys {names : List Value} {es : Entries}
    (h : Filled d uiOnly field G w names es w') : (Table.keys es).Sublist names := by
  induction h with
  | done => exact List.Sublist.refl _
  | hidden _ _ ih => exact ih.cons _
  | @entered n _ es o _ _ _ _ _ _ _ ih =>
    cases o with
    | none => exact ih.cons _
    | some x => exact ih.cons_cons n

theorem Filled.append {u : World} {pre rest : List Value} {es fs : Entries}
    (first : Filled d uiOnly field G w pre es u) (second : Filled d uiOnly field G u rest fs w') :
    Filled d uiOnly field G w (pre ++ rest) (es ++ fs) w' := by
  induction first with
  | done w => exact second
  | hidden flag _ ih => exact .hidden flag (ih second)
  | entered flag gives _ ih =>
    rw [List.append_assoc]
    exact .entered flag gives (ih second)

/-- By induction on the names: a record is filled for all of them, or something stops at one when
it was filled for those before. -/
theorem filled_or_stops (names : List Value) : ∀ w : World,
    (∃ es w', Filled d uiOnly field (Enters d) w names es w') ∨
      ∃ pre n rest es u e w', names = pre ++ n :: rest ∧
        Filled d uiOnly field (Enters d) w pre es u ∧ Stops d uiOnly (field n) u e w' := by
  induction names with
  | nil => exact fun w => .inl ⟨_, _, .done w⟩
  | cons n rest ih =>
    intro w
    have further : ∀ {o : Entries} {w₁ : World},
        (∀ {names : List Value} {es : Entries} {w' : World},
          Filled d uiOnly field (Enters d) w₁ names es w' →
            Filled d uiOnly field (Enters d) w (n :: names) (o ++ es) w') →
        (∃ es w', Filled d uiOnly field (Enters d) w (n :: rest) es w') ∨
          ∃ pre m rest' es u e w', n :: rest = pre ++ m :: rest' ∧
            Filled d uiOnly field (Enters d) w pre es u ∧ Stops d uiOnly (field m) u e w' := by
      intro o w₁ first
      rcases ih w₁ with ⟨es, w', filled⟩ | ⟨pre, m, rest', es, u, e, w', rfl, filled, stops⟩
      · exact .inl ⟨_, _, first filled⟩
      · exact .inr ⟨n :: pre, m, rest', _, u, e, w', rfl, first filled, stops⟩
    rcases flag : exec (passesOver d uiOnly (field n)) w with ⟨e | skipped, w₁⟩
    · exact .inr ⟨[], n, rest, [], w, e, w₁, rfl, .done w, .flag flag⟩
    · cases skipped with
      | true => exact further (o := []) fun filled => .hidden flag filled
      | false =>
        rcases enters_or_fails d w₁ (field n) with ⟨o, w₂, enters⟩ | ⟨e, w₂, breaks⟩
        · exact further fun filled => .entered flag enters filled
        · exact .inr ⟨[], n, rest, [], w, e, w₂, rfl, .done w, .breaks flag breaks⟩

end Walks

/-! ## Runs -/

namespace World

/-- A world in the course of a walk: schemas are sound, and those that were there at first are as
they were. -/
structure Later (w u : World) : Prop where
  sound : u.SoundSchemas
  kept : w.Extends u

theorem Later.develops {w u v : World} (later : w.Later u) (develops : u.Develops v) : w.Later v :=
  ⟨(develops later.sound).1, later.kept.trans (develops later.sound).2⟩

/-- Names that a walk has still to come to: a schema declares them, each stands once in the list, and
there is no entry of theirs yet. -/
structure Ahead (w : World) (s : Nat) (names : List Value) (before : Entries) : Prop where
  declared : ∀ n ∈ names, n ∈ w.declared s
  distinct : names.Nodup
  fresh : ∀ n ∈ names, Table.get? before n = none

/-- When the entry of the first one was put behind the others, the rest is still ahead. -/
theorem Ahead.entered {w : World} (sound : w.SoundSchemas) {s : Nat} {n : Value}
    {rest : List Value} {before : Entries} (ahead : w.Ahead s (n :: rest) before)
    (o : Option Value) : w.Ahead s rest (before ++ (o.map (Prod.mk n)).toList) where
  declared m there := ahead.declared m (List.mem_cons_of_mem n there)
  distinct := (List.nodup_cons.mp ahead.distinct).2
  fresh := by
    cases o with
    | none =>
      intro m there
      rw [Option.map_none, Option.toList_none, List.append_nil]
      exact ahead.fresh m (List.mem_cons_of_mem n there)
    | some x =>
      -- Texts are equal only if they are the same, so a new entry hides no other name.
      have texts : AllTexts (n :: rest) := fun m there =>
        sound.declared_texts s m (ahead.declared m there)
      exact texts.get?_append_none ahead.distinct x ahead.fresh

end World

section Runs

variable {d : Dispatch} [d.Within World.Develops] {w : World} (sound : w.SoundSchemas) {s : Nat}
  (inside : s < w.schemas.size) {uiOnly : Bool}

instance along_passesOver (f : Nat) : Along World.Develops (passesOver d uiOnly f) := by
  unfold passesOver
  infer_instance

include sound inside

omit [d.Within World.Develops] in
/-- A declared name leads to its field, which has the name, in the course of a walk. -/
theorem World.Later.field {u : World} (later : w.Later u) {n : Value} (there : n ∈ w.declared s) :
    exec (findField d s n) u = (.ok (.field (w.fieldUnder s n)), u) ∧
      exec (nameOfField d (.field (w.fieldUnder s n))) u = (.ok n, u) := by
  refine ⟨later.kept.exec_findField sound later.sound d inside there, ?_⟩
  obtain ⟨m, rfl⟩ := sound.declared_texts s n there
  have named : u.fieldNamed? s (.str m) = some (.field (w.fieldUnder s (.str m))) :=
    (later.kept.fieldNamed?_of_lt sound later.sound _ s inside).trans
      (sound.fieldNamed?_eq_fieldUnder there)
  show (Except.ok (u.fieldName _), u) = _
  rw [later.sound.plain.fieldName, (later.sound.named_of_fieldNamed? named).2]

/-- What a field gives goes behind the other entries. -/
theorem World.Later.exec_enterDefault {u : World} (later : w.Later u) {n : Value}
    {rest : List Value} {before : Entries} (ahead : w.Ahead s (n :: rest) before) :
    exec (enterDefault d before (.field (w.fieldUnder s n))) u
      = exec ((fun o => before ++ (o.map (Prod.mk n)).toList)
          <$> recordDefault d (.field (w.fieldUnder s n))) u := by
  have there := ahead.declared n List.mem_cons_self
  unfold enterDefault
  rw [exec_bind, exec_map]
  rcases given : exec (recordDefault d (.field (w.fieldUnder s n))) u with ⟨e | o, u₁⟩
  · rfl
  · have later₁ := later.develops (Along.of_ok given)
    cases o with
    | none =>
      dsimp only
      rw [Option.map_none, Option.toList_none, List.append_nil]
      rfl
    | some x =>
      dsimp only
      rw [Option.map_some, Option.toList_some,
        ← Table.insert_of_get?_eq_none (ahead.fresh n List.mem_cons_self),
        exec_bind_ok (later₁.field sound inside (d := d) there).2]
      obtain ⟨m, rfl⟩ := sound.declared_texts s n there
      rfl

/-- **A step of the walk.** A field that is not passed over enters what it gives. -/
theorem World.Later.exec_visitNames_cons {u : World} (later : w.Later u) {n : Value}
    {rest : List Value} {before : Entries} (ahead : w.Ahead s (n :: rest) before) :
    exec (visitNames d s uiOnly (enterDefault d) (n :: rest) before) u = exec (do
      if ← passesOver d uiOnly (w.fieldUnder s n) then
        visitNames d s uiOnly (enterDefault d) rest before
      else
        let o ← recordDefault d (.field (w.fieldUnder s n))
        visitNames d s uiOnly (enterDefault d) rest (before ++ (o.map (Prod.mk n)).toList)) u := by
  have found := (later.field sound inside (d := d) (ahead.declared n List.mem_cons_self)).1
  have asked : exec (visitNames d s uiOnly (enterDefault d) (n :: rest) before) u = exec (do
      if ← passesOver d uiOnly (w.fieldUnder s n) then
        visitNames d s uiOnly (enterDefault d) rest before
      else
        let entries ← enterDefault d before (.field (w.fieldUnder s n))
        visitNames d s uiOnly (enterDefault d) rest entries) u := by
    rw [visitNames, exec_bind_ok found]
    cases uiOnly <;> rfl
  rw [asked, exec_bind, exec_bind]
  rcases flag : exec (passesOver d uiOnly (w.fieldUnder s n)) u with ⟨e | skipped, u₁⟩
  · rfl
  · cases skipped with
    | true => rfl
    | false =>
      have entered := (later.develops (Along.of_ok flag)).exec_enterDefault sound inside (d := d)
        ahead
      simp only [Bool.false_eq_true, if_false]
      rw [exec_bind, entered, exec_map, exec_bind]
      rcases exec (recordDefault d (.field (w.fieldUnder s n))) u₁ with ⟨e | o, u₂⟩ <;> rfl

/-- **The walk over what is filled.** What is filled for some names is where the walk goes on with
the names after them. By induction on how they are filled. -/
theorem Filled.run {u u' : World} {pre : List Value} {es : Entries}
    (filled : Filled d uiOnly (w.fieldUnder s) (Enters d) u pre es u') :
    ∀ {rest : List Value} {before : Entries}, w.Later u → w.Ahead s (pre ++ rest) before →
      exec (visitNames d s uiOnly (enterDefault d) (pre ++ rest) before) u
          = exec (visitNames d s uiOnly (enterDefault d) rest (before ++ es)) u' ∧
        w.Later u' ∧ w.Ahead s rest (before ++ es) := by
  induction filled with
  | done w =>
    intro rest before later ahead
    rw [List.append_nil]
    exact ⟨rfl, later, ahead⟩
  | @hidden n names es u u₁ u' flag _ ih =>
    intro rest before later ahead
    have step : exec (visitNames d s uiOnly (enterDefault d) (n :: (names ++ rest)) before) u = _ :=
      later.exec_visitNames_cons sound inside ahead
    have ahead' := ahead.entered sound none
    rw [Option.map_none, Option.toList_none, List.append_nil] at ahead'
    rw [exec_bind_ok flag] at step
    obtain ⟨run, further⟩ := ih (later.develops (Along.of_ok flag)) ahead'
    exact ⟨step.trans run, further⟩
  | @entered n names es o u u₁ u₂ u' flag gives _ ih =>
    intro rest before later ahead
    have step : exec (visitNames d s uiOnly (enterDefault d) (n :: (names ++ rest)) before) u = _ :=
      later.exec_visitNames_cons sound inside ahead
    have later₁ := later.develops (Along.of_ok flag)
    -- The flag says that the field is not left out, so its default is what comes next.
    have given := gives.run later₁.sound.plain
    rw [exec_bind_ok flag, if_neg Bool.false_ne_true, exec_bind_ok given] at step
    obtain ⟨run, further⟩ := ih (later₁.develops (Along.of_ok given)) (ahead.entered sound o)
    rw [List.append_assoc] at run further
    exact ⟨step.trans run, further⟩

/-- What stops at a field ends the walk. -/
theorem Stops.run {u u' : World} {n : Value} {rest : List Value} {before : Entries} {e : Fault}
    (stops : Stops d uiOnly (w.fieldUnder s n) u e u') (later : w.Later u)
    (ahead : w.Ahead s (n :: rest) before) :
    exec (visitNames d s uiOnly (enterDefault d) (n :: rest) before) u = (.error e, u') := by
  rw [later.exec_visitNames_cons sound inside ahead]
  cases stops with
  | flag fails => exact exec_bind_error fails _
  | breaks flag breaks =>
    have later₁ := later.develops (Along.of_ok flag)
    rw [exec_bind_ok flag, if_neg Bool.false_ne_true]
    exact exec_bind_error (breaks.run later₁.sound.plain) _

/-! ## Records -/

omit [d.Within World.Develops] inside in
/-- A record of defaults is filled for the names that are listed for its flag. -/
theorem World.SoundSchemas.exec_defaultRecord (flag : Value) :
    exec (defaultRecord d s flag) w = exec (do
      let listed ← defaultNames d s flag
      return .freshDict (← visitNames d s listed.2 (enterDefault d) listed.1 [])) w := by
  have visited : exec (visitFields d s [flag] [] (enterDefault d)) w = exec (do
      let listed ← defaultNames d s flag
      visitNames d s listed.2 (enterDefault d) listed.1 []) w := by
    rw [sound.plain.exec_visitFields]
    unfold visitOwn defaultNames
    simp only [bind_assoc, pure_bind]
  rw [defaultRecord_eq, ← bind_assoc, exec_bind, visited, ← exec_bind]

/-- What is listed is ahead of the walk. -/
theorem World.SoundSchemas.ahead_of_defaultNames {flag : Value} {names : List Value} {w₁ : World}
    (listed : exec (defaultNames d s flag) w = (.ok (names, uiOnly), w₁)) :
    w.Later w₁ ∧ w.Ahead s names [] := by
  have along : Along World.Develops (defaultNames d s flag) := by
    unfold defaultNames
    infer_instance
  refine ⟨(World.Later.mk sound (.refl w)).develops (Along.of_ok listed), ?_⟩
  unfold defaultNames at listed
  obtain ⟨given, w₂, run, listed⟩ := exec_bind_eq_ok.mp listed
  obtain ⟨p, w₃, -, listed⟩ := exec_bind_eq_ok.mp listed
  obtain ⟨same, -⟩ := exec_pure_eq_ok.mp listed
  obtain rfl : given = names := congrArg Prod.fst same
  have sub := sound.sublist_of_fieldNames (R := World.Develops) (fun _ _ develops => develops)
    inside rfl run
  exact ⟨fun n there => sub.subset there, sub.nodup (sound.declared_nodup s), fun _ _ => rfl⟩

/-- A record that was filled for all names is the result. -/
theorem World.SoundSchemas.exec_defaultRecord_of_filled {flag : Value} {names : List Value}
    {es : Entries} {w₁ w' : World}
    (listed : exec (defaultNames d s flag) w = (.ok (names, uiOnly), w₁))
    (filled : Filled d uiOnly (w.fieldUnder s) (Enters d) w₁ names es w') :
    exec (defaultRecord d s flag) w = (.ok (.freshDict es), w') := by
  obtain ⟨later, ahead⟩ := sound.ahead_of_defaultNames inside listed
  rw [← List.append_nil names] at ahead
  obtain ⟨run, -, -⟩ := filled.run sound inside later ahead
  rw [List.append_nil] at run
  rw [sound.exec_defaultRecord, exec_bind_ok listed]
  exact exec_bind_ok run _

/-- A fault that stops the walk on its way is the fault. -/
theorem World.SoundSchemas.exec_defaultRecord_of_stops {flag n : Value} {pre rest : List Value}
    {es : Entries} {e : Fault} {w₁ u w' : World}
    (listed : exec (defaultNames d s flag) w = (.ok (pre ++ n :: rest, uiOnly), w₁))
    (filled : Filled d uiOnly (w.fieldUnder s) (Enters d) w₁ pre es u)
    (stops : Stops d uiOnly (w.fieldUnder s n) u e w') :
    exec (defaultRecord d s flag) w = (.error e, w') := by
  obtain ⟨later, ahead⟩ := sound.ahead_of_defaultNames inside listed
  obtain ⟨run, later', ahead'⟩ := filled.run sound inside later ahead
  have stopped := run.trans (stops.run sound inside later' ahead')
  rw [sound.exec_defaultRecord, exec_bind_ok listed]
  exact exec_bind_error stopped _

/-- **The results** are the records that were filled for all names. -/
theorem World.SoundSchemas.exec_defaultRecord_eq_ok {flag x : Value} {w' : World} :
    exec (defaultRecord d s flag) w = (.ok x, w') ↔ ∃ names uiOnly w₁ es,
      exec (defaultNames d s flag) w = (.ok (names, uiOnly), w₁) ∧
      Filled d uiOnly (w.fieldUnder s) (Enters d) w₁ names es w' ∧ x = .freshDict es := by
  constructor
  · intro run
    rcases listed : exec (defaultNames d s flag) w with ⟨e | ⟨names, uiOnly⟩, w₁⟩
    · rw [sound.exec_defaultRecord, exec_bind_error listed] at run
      cases run
    · rcases filled_or_stops names w₁ with ⟨es, u, filled⟩ |
        ⟨pre, n, rest, es, u, e, u', rfl, filled, stops⟩
      · have run' := sound.exec_defaultRecord_of_filled inside listed filled
        obtain ⟨same, rfl⟩ := Prod.mk.inj (run.symm.trans run')
        exact ⟨names, uiOnly, w₁, es, rfl, filled, Except.ok.inj same⟩
      · cases run.symm.trans (sound.exec_defaultRecord_of_stops inside listed filled stops)
  · rintro ⟨names, uiOnly, w₁, es, listed, filled, rfl⟩
    exact sound.exec_defaultRecord_of_filled inside listed filled

/-- **The faults** are those of listing the names, and those that stop the walk on its way. -/
theorem World.SoundSchemas.exec_defaultRecord_eq_error {flag : Value} {e : Fault} {w' : World} :
    exec (defaultRecord d s flag) w = (.error e, w') ↔
      exec (defaultNames d s flag) w = (.error e, w') ∨
      ∃ pre n rest uiOnly w₁ es u,
        exec (defaultNames d s flag) w = (.ok (pre ++ n :: rest, uiOnly), w₁) ∧
        Filled d uiOnly (w.fieldUnder s) (Enters d) w₁ pre es u ∧
        Stops d uiOnly (w.fieldUnder s n) u e w' := by
  constructor
  · intro run
    rcases listed : exec (defaultNames d s flag) w with ⟨e' | ⟨names, uiOnly⟩, w₁⟩
    · rw [sound.exec_defaultRecord, exec_bind_error listed] at run
      obtain ⟨same, rfl⟩ := Prod.mk.inj run
      obtain rfl := Except.error.inj same
      exact .inl rfl
    · rcases filled_or_stops names w₁ with ⟨es, u, filled⟩ |
        ⟨pre, n, rest, es, u, e', u', rfl, filled, stops⟩
      · cases run.symm.trans (sound.exec_defaultRecord_of_filled inside listed filled)
      · have run' := sound.exec_defaultRecord_of_stops inside listed filled stops
        obtain ⟨same, rfl⟩ := Prod.mk.inj (run.symm.trans run')
        obtain rfl := Except.error.inj same
        exact .inr ⟨pre, n, rest, uiOnly, w₁, es, u, rfl, filled, stops⟩
  · rintro (fails | ⟨pre, n, rest, uiOnly, w₁, es, u, listed, filled, stops⟩)
    · rw [sound.exec_defaultRecord]
      exact exec_bind_error fails _
    · exact sound.exec_defaultRecord_of_stops inside listed filled stops

end Runs

/-! ## Functions that fail -/

namespace World

section Consulted

variable (d : Dispatch) (w : World) (s : Nat) (flag n : Value) (es : Entries) (u : World)

/-- A record is filled up to a name, with some entries, and the field of the name is not passed over;
its default is asked for in the world that is reached. -/
def ComesTo (G : Nat → World → Option Value → World → Prop) : Prop :=
  ∃ pre rest uiOnly w₁ v, exec (defaultNames d s flag) w = (.ok (pre ++ n :: rest, uiOnly), w₁) ∧
    Filled d uiOnly (w.fieldUnder s) G w₁ pre es v ∧
    exec (passesOver d uiOnly (w.fieldUnder s n)) v = (.ok false, u)

/-- A record is filled up to a field that is no array, and whose declared default is a function. -/
structure Consults (c : Declaration) : Prop where
  reached : w.ComesTo d s flag n es u (Enters d)
  single : (u.field (w.fieldUnder s n)).isArray = false
  declares : u.declaration? (w.fieldUnder s n) = some c
  producer : c.value.isCallable = true

variable {d w s flag n es u} {c : Declaration} {e : Fault} {u' : World}

/-- Where no field is passed over, the first one that is listed is reached. -/
theorem ComesTo.first {G : Nat → World → Option Value → World → Prop} {rest : List Value}
    (listed : exec (defaultNames d s flag) w = (.ok (n :: rest, false), u)) :
    w.ComesTo d s flag n [] u G := ⟨[], rest, false, u, u, listed, .done u, rfl⟩

/-- A function that is consulted is called. -/
theorem Consults.exec_produceDefault (consults : w.Consults d s flag n es u c) :
    exec (produceDefault d c.value) u = exec (d.call c.value [] []) u := by
  unfold produceDefault
  rw [consults.producer]
  rfl

variable [d.Within Develops] (sound : w.SoundSchemas) (inside : s < w.schemas.size)

include sound inside

/-- The fault of a function that is consulted is the fault of the record, unless it counts as an
absence. -/
theorem Consults.exec_defaultRecord (consults : w.Consults d s flag n es u c)
    (fails : exec (d.call c.value [] []) u = (.error e, u')) (present : e.isAbsence = false) :
    exec (defaultRecord d s flag) w = (.error e, u') := by
  obtain ⟨pre, rest, uiOnly, w₁, v, listed, filled, shown⟩ := consults.reached
  rw [← consults.exec_produceDefault] at fails
  exact sound.exec_defaultRecord_of_stops inside listed filled
    (.breaks shown (.made consults.single consults.declares fails present))

/-- What is reached is a world in the course of a walk. -/
theorem ComesTo.later (reaches : w.ComesTo d s flag n es u (Enters d)) : w.Later u := by
  obtain ⟨pre, rest, uiOnly, w₁, v, listed, filled, shown⟩ := reaches
  obtain ⟨later, ahead⟩ := sound.ahead_of_defaultNames inside listed
  obtain ⟨-, later', -⟩ := filled.run sound inside later ahead
  exact later'.develops (Along.of_ok shown)

/-- A function whose fault counts as an absence goes into the record itself, where it is still found
under the name of the default. -/
theorem Consults.entered (consults : w.Consults d s flag n es u c)
    (fails : exec (d.call c.value [] []) u = (.error e, u')) (absent : e.isAbsence = true)
    (found : c.found? u' = some c.value) {x : Value} {w' : World}
    (made : exec (defaultRecord d s flag) w = (.ok x, w')) :
    ∃ fs, x = .freshDict (es ++ (n, c.value) :: fs) := by
  have later : w.Later u' := by
    have develops := Along.out (R := Develops) (a := d.call c.value [] []) u
    rw [fails] at develops
    exact (consults.reached.later sound inside).develops develops
  have read := reread_of_found (d := d) later.sound.plain found consults.producer
  obtain ⟨pre, rest, uiOnly, w₁, v, listed, filled, shown⟩ := consults.reached
  rw [← consults.exec_produceDefault] at fails
  have enters : Enters d (w.fieldUnder s n) u (some c.value) u' := by
    rw [← c.entered_of_isCallable consults.producer]
    exact .reread consults.single consults.declares fails absent read
  have through : Filled d uiOnly (w.fieldUnder s) (Enters d) w₁ (pre ++ [n])
      (es ++ [(n, c.value)]) u' := filled.append (.entered shown enters (.done u'))
  -- The walk goes on behind the name; whatever it ends with, the entry is there.
  have split : pre ++ n :: rest = (pre ++ [n]) ++ rest := by simp
  rw [split] at listed
  rcases filled_or_stops rest u' with ⟨fs, w'', others⟩ | ⟨pre', m, rest', fs, v', e', w'', rfl,
    others, stops⟩
  · have made' := sound.exec_defaultRecord_of_filled inside listed (through.append others)
    obtain ⟨same, -⟩ := Prod.mk.inj (made.symm.trans made')
    refine ⟨fs, (Except.ok.inj same).trans ?_⟩
    rw [List.append_assoc]
    rfl
  · rw [← List.append_assoc] at listed
    cases made.symm.trans
      (sound.exec_defaultRecord_of_stops inside listed (through.append others) stops)

end Consulted

end World

/-- **Functions that fail when a default is made**, in every session. If a function that is consulted
fails, its fault is the fault of the record of defaults, but for faults that count as the absence of
a member: after one of these the function itself goes into the record, as long as it is still found
under the name of the default. The records that are given are those that were filled for all names,
each entry with what its field gives, or with what was read after an absence. -/
theorem producer_faults {call : Provider} {depth : Nat} {w₀ w : World}
    (user : call.Within World.Develops) (start : w₀.NoObjects)
    (run : SchemaRun (call.dispatch depth) w₀ w) {s : Nat} (inside : s < w.schemas.size)
    (flag : Value) :
    (∀ n es u c e u', w.Consults (call.dispatch depth) s flag n es u c →
      exec ((call.dispatch depth).call c.value [] []) u = (.error e, u') →
      (e.isAbsence = false →
        exec (defaultRecord (call.dispatch depth) s flag) w = (.error e, u')) ∧
      (e.isAbsence = true → c.found? u' = some c.value →
        ∀ x w', exec (defaultRecord (call.dispatch depth) s flag) w = (.ok x, w') →
          ∃ fs, x = .freshDict (es ++ (n, c.value) :: fs))) ∧
    ∀ x w', exec (defaultRecord (call.dispatch depth) s flag) w = (.ok x, w') ↔
      ∃ names uiOnly w₁ es,
        exec (defaultNames (call.dispatch depth) s flag) w = (.ok (names, uiOnly), w₁) ∧
        Filled (call.dispatch depth) uiOnly (w.fieldUnder s) (Enters (call.dispatch depth)) w₁ names
          es w' ∧ x = .freshDict es := by
  have sound := run.sound user start
  have within := Provider.dispatch_develops user depth
  refine ⟨fun n es u c e u' consults fails => ⟨consults.exec_defaultRecord sound inside fails, ?_⟩,
    fun x w' => sound.exec_defaultRecord_eq_ok inside⟩
  exact fun absent found x w' => consults.entered sound inside fails absent found

/-- A provider whose functions fail as they say. -/
def failing : Provider := fun _ f _ _ =>
  match f with
  | .function _ _ (.fail kind text) _ => throw (.raised kind text)
  | _ => throw .wrongType

theorem failing_within {R : World → World → Prop} [Frame R] : failing.Within R := by
  intro d within f arguments named
  unfold failing
  split <;> infer_instance

/-- A function that fails. -/
def failure (kind : FailureClass) : Value := .function 1 (some "fail") (.fail kind "boom") []

/-- A schema of one field whose default is made by a function that fails as if a member were not
there, and one whose default is made by a function that fails otherwise. -/
def failuresSession : List SchemaOperation :=
  [.newRegistry, .define 0 (.define (bareDefinition "T" .null)),
   .compile 0 (.ofFields [("x", .ofFields [("type", .str "T"), ("default", failure .attribute)])])
    .null .null,
   .compile 0 (.ofFields [("y", .ofFields [("type", .str "T"), ("default", failure .value)])])
    .null .null]

/-- The world after the session. -/
def World.withFailures : World := afterSession (failing.dispatch 2) failuresSession (.empty "" [])

/-- In the world after the session the field of a schema with one name declares a default. -/
theorem withFailures_consults {s f : Nat} {n : Value} {k : FailureClass}
    (listed : (exec (defaultNames (failing.dispatch 2) s (.bool false)) .withFailures).1
      = .ok ([n], false))
    (single : ((exec (defaultNames (failing.dispatch 2) s (.bool false)) .withFailures).2.field
      (World.withFailures.fieldUnder s n)).isArray = false)
    (declares : (exec (defaultNames (failing.dispatch 2) s (.bool false)) .withFailures).2.declaration?
      (World.withFailures.fieldUnder s n) = some (.ofField f (failure k))) :
    World.withFailures.Consults (failing.dispatch 2) s (.bool false) n []
      (exec (defaultNames (failing.dispatch 2) s (.bool false)) .withFailures).2
      (.ofField f (failure k)) :=
  ⟨.first (exec_of_fst listed), single, declares, rfl⟩

/-- The first function goes into the record, and the fault of the second one is that of the record. -/
theorem producer_faults_lost :
    let d := failing.dispatch 2
    let w := World.withFailures
    failing.Within World.Develops ∧ (World.empty "" []).NoObjects ∧ SchemaRun d (.empty "" []) w ∧
    1 < w.schemas.size ∧
    (∃ u, w.Consults d 0 (.bool false) (.str "x") [] u (.ofField 0 (failure .attribute)) ∧
      exec (d.call (failure .attribute) [] []) u = (.error (.raised .attribute "boom"), u)) ∧
    (∃ fs w', exec (defaultRecord d 0 (.bool false)) w
      = (.ok (.freshDict ((.str "x", failure .attribute) :: fs)), w')) ∧
    (∃ u, w.Consults d 1 (.bool false) (.str "y") [] u (.ofField 1 (failure .value)) ∧
      exec (d.call (failure .value) [] []) u = (.error (.raised .value "boom"), u) ∧
      exec (defaultRecord d 1 (.bool false)) w = (.error (.raised .value "boom"), u)) := by
  have user : failing.Within World.Develops := failing_within
  have start : (World.empty "" []).NoObjects := ⟨rfl, rfl, rfl, rfl⟩
  have run : SchemaRun (failing.dispatch 2) (.empty "" []) .withFailures :=
    .of_extendsNone failuresSession rfl
  have size : 1 < World.withFailures.schemas.size := by decide +kernel
  have first := withFailures_consults (s := 0) (f := 0) (n := .str "x") (k := .attribute)
    (by with_unfolding_all rfl) (by with_unfolding_all rfl) (by with_unfolding_all rfl)
  have second := withFailures_consults (s := 1) (f := 1) (n := .str "y") (k := .value)
    (by with_unfolding_all rfl) (by with_unfolding_all rfl) (by with_unfolding_all rfl)
  have fails : ∀ kind u, exec ((failing.dispatch 2).call (failure kind) [] []) u
      = (.error (.raised kind "boom"), u) := fun _ _ => rfl
  obtain ⟨x, made⟩ := exec_of_isOk (a := defaultRecord (failing.dispatch 2) 0 (.bool false))
    (w := .withFailures) (by decide +kernel)
  obtain ⟨fs, rfl⟩ := ((producer_faults user start run (Nat.lt_trans Nat.zero_lt_one size)
    (.bool false)).1 _ _ _ _ _ _ first (fails .attribute _)).2 rfl (by with_unfolding_all rfl) x _
    made
  have raised := ((producer_faults user start run size (.bool false)).1 _ _ _ _ _ _ second
    (fails .value _)).1 rfl
  exact ⟨user, start, run, size, ⟨_, first, fails .attribute _⟩, ⟨fs, _, made⟩,
    ⟨_, second, fails .value _, raised⟩⟩

end DataShape
