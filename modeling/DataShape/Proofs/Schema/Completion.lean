import DataShape.Proofs.Idle
import DataShape.Proofs.Schema.Filling

/-! # Complete records of defaults

A record of defaults can be filled to its end where nothing on the way fails: functions that are
declared as defaults return, values that are no data can be copied, and flags can be read. It then
holds exactly what is declared: an empty list for an array, what was made of a field's own default,
or else of the default that its type declares, and nothing for other fields.

A list that a type gives is no exception to this, but it goes into the record as an empty list.

* `Delivers` — whatever a walk comes to is there for it.
* `Delivers.exists_filled` — such a walk comes to its end.
* `defaultRecord_complete` — complete records of defaults.
* `delivers_of_idle` — where nothing else changes on the way, what is declared at first can be
  looked at alone. -/

namespace DataShape

/-! ## Fields -/

section Fields

variable {d : Dispatch} {w w' : World} {f : Nat}

/-- A field gives something where its default can be made; data can always be copied. -/
theorem exists_supplies (made : ∀ c, (w.field f).isArray = false → w.declaration? f = some c →
    c.value.isCallable = true ∨ c.value.isData = false →
      ∃ x w', exec (produceDefault d c.value) w = (.ok x, w')) :
    ∃ o w', Supplies d f w o w' := by
  cases array : (w.field f).isArray with
  | true => exact ⟨_, _, .array array⟩
  | false =>
    cases declares : w.declaration? f with
    | none => exact ⟨_, _, .bare array declares⟩
    | some c =>
      have present := World.present_of_declaration? declares
      by_cases special : c.value.isCallable = true ∨ c.value.isData = false
      · obtain ⟨x, w', run⟩ := made c array declares special
        exact ⟨_, _, .declared array declares ((made_iff present).mpr run)⟩
      · rw [not_or, Bool.not_eq_true, Bool.not_eq_false] at special
        obtain ⟨x, n, run, renews⟩ := exec_copyOf_of_isData d special.2 w
        exact ⟨_, _, .declared array declares (.copied special.1 run fun _ => renews)⟩

/-- A default that a field declares is one of its own. -/
theorem World.ofField_of_declaration? {g : Nat} {v : Value}
    (declares : w.declaration? f = some (.ofField g v)) : g = f := by
  rcases (World.declaration?_cases declares).2 with own | ⟨t, along⟩
  · cases own
    rfl
  · cases along

/-- What a type gives is never the mark for what is not present. -/
theorem Value.isMissing_of_asTypeDefault {v x : Value} (h : v.asTypeDefault = some x) :
    x.isMissing = false := by
  cases v <;> cases h <;> rfl

/-- The mark for what is not present is given by an own default only, and by none that is data. -/
theorem Supplies.of_missing {o : Option Value} {x : Value} (h : Supplies d f w o w')
    (given : o = some x) (missing : x.isMissing = true) :
    ∃ v, w.declaration? f = some (.ofField f v) ∧ (v.isCallable = true ∨ v.isData = false) ∧
      Made d v w x w' := by
  cases h with
  | array =>
    obtain rfl := Option.some.inj given
    cases missing
  | bare => cases given
  | @declared c y _ single declares made =>
    cases c with
    | ofType t v =>
      rw [Value.isMissing_of_asTypeDefault given] at missing
      cases missing
    | ofField g v =>
      obtain rfl := World.ofField_of_declaration? declares
      obtain rfl := Option.some.inj given
      refine ⟨v, declares, ?_, made⟩
      by_contra special
      rw [not_or, Bool.not_eq_true, Bool.not_eq_false] at special
      cases made with
      | produced producer run =>
        cases special.1.symm.trans producer
      | copied _ _ equal =>
        -- A copy of data is missing only where the data is, and what is declared is not.
        have same := (equal special.2).isMissing
        rw [missing, World.present_of_declaration? declares] at same
        cases same

end Fields

/-! ## Walks -/

section Delivery

variable (d : Dispatch) (uiOnly : Bool) (field : Value → Nat)

/-- Whatever a walk over names comes to is there for it: fields can be asked whether they are left
out, functions that are declared as defaults return, and what else is declared can be copied where
it is no data. -/
structure Delivers (w : World) (names : List Value) : Prop where
  shown : uiOnly = true → ∀ pre n rest es u, names = pre ++ n :: rest →
    Filled d uiOnly field (Supplies d) w pre es u →
      ∃ skipped u', exec (uiExclude d (field n)) u = (.ok skipped, u')
  made : ∀ pre n rest es u v c, names = pre ++ n :: rest →
    Filled d uiOnly field (Supplies d) w pre es u →
    exec (passesOver d uiOnly (field n)) u = (.ok false, v) →
    (v.field (field n)).isArray = false → v.declaration? (field n) = some c →
    c.value.isCallable = true ∨ c.value.isData = false →
      ∃ x v', exec (produceDefault d c.value) v = (.ok x, v')

variable {d uiOnly field} {w w' : World}

/-- What is filled for some names leads to a walk for which everything is there, too. -/
theorem Delivers.further {names pre rest : List Value} {es : Entries} {u : World}
    (delivers : Delivers d uiOnly field w names) (split : names = pre ++ rest)
    (filled : Filled d uiOnly field (Supplies d) w pre es u) :
    Delivers d uiOnly field u rest where
  shown asked pre' n rest' es' u' split' filled' := by
    refine delivers.shown asked (pre ++ pre') n rest' _ u' ?_ (filled.append filled')
    rw [split, split', List.append_assoc]
  made pre' n rest' es' u' v c split' filled' := by
    refine delivers.made (pre ++ pre') n rest' _ u' v c ?_ (filled.append filled')
    rw [split, split', List.append_assoc]

/-- **The walk comes to its end.** By induction on the names. -/
theorem Delivers.exists_filled {names : List Value} : ∀ {w : World},
    Delivers d uiOnly field w names →
      ∃ es w', Filled d uiOnly field (Supplies d) w names es w' := by
  induction names with
  | nil => exact fun _ => ⟨_, _, .done _⟩
  | cons n rest ih =>
    intro w delivers
    have asked : ∃ skipped u, exec (passesOver d uiOnly (field n)) w = (.ok skipped, u) := by
      cases uiOnly with
      | false => exact ⟨false, w, rfl⟩
      | true => exact delivers.shown rfl [] n rest [] w rfl (.done w)
    obtain ⟨skipped, u, flag⟩ := asked
    cases skipped with
    | true =>
      have first : Filled d uiOnly field (Supplies d) w [n] [] u := .hidden flag (.done u)
      obtain ⟨es, w', others⟩ := ih (delivers.further rfl first)
      exact ⟨es, w', .hidden flag others⟩
    | false =>
      obtain ⟨o, v, supplies⟩ := exists_supplies fun c single declares special =>
        delivers.made [] n rest [] w u c rfl (.done w) flag single declares special
      have first : Filled d uiOnly field (Supplies d) w [n] _ v := .entered flag supplies (.done v)
      obtain ⟨es, w', others⟩ := ih (delivers.further rfl first)
      exact ⟨_, w', .entered flag supplies others⟩

/-- The mark for what is not present goes into a record for an own default only, and for none that
is data. By induction on how the record is filled. -/
theorem Filled.of_missing {names : List Value} {es : Entries}
    (filled : Filled d uiOnly field (Supplies d) w names es w') :
    ∀ e ∈ es, e.2.isMissing = true → ∃ v u u',
      u.declaration? (field e.1) = some (.ofField (field e.1) v) ∧
        (v.isCallable = true ∨ v.isData = false) ∧ Made d v u e.2 u' := by
  induction filled with
  | done => exact fun e there => absurd there List.not_mem_nil
  | hidden _ _ ih => exact ih
  | @entered n _ es o _ u u' _ _ supplies _ ih =>
    intro e there missing
    rcases List.mem_append.mp there with own | later
    · obtain ⟨x, given, rfl⟩ := Option.map_eq_some_iff.mp (Option.mem_toList.mp own)
      -- The entry is the one of this field, in the world in which it was made.
      obtain ⟨v, declares, special, made⟩ := supplies.of_missing given missing
      exact ⟨v, u, u', declares, special, made⟩
    · exact ih e later missing

end Delivery

/-! ## Still walks -/

section Follows

variable {R : World → World → Prop} {d : Dispatch} [d.Within R] {w w' : World}

/-- What is made of a declared value is made by actions of the engine. -/
theorem Made.follows {v x : Value} (made : Made d v w x w') : R w w' := by
  cases made with
  | produced _ run => exact Along.of_ok run
  | copied _ run _ => exact Along.of_ok run

theorem Supplies.follows {f : Nat} {o : Option Value} (h : Supplies d f w o w') : R w w' := by
  cases h with
  | array => exact Frame.refl w
  | bare => exact Frame.refl w
  | declared _ _ made => exact made.follows

/-- By induction on how the record is filled. -/
theorem Filled.follows {uiOnly : Bool} {field : Value → Nat} {names : List Value} {es : Entries}
    (filled : Filled d uiOnly field (Supplies d) w names es w') : R w w' := by
  have asked : ∀ f, Along R (passesOver d uiOnly f) := fun f => by
    unfold passesOver
    infer_instance
  induction filled with
  | done w => exact Frame.refl w
  | hidden flag _ ih => exact Frame.trans (Along.of_ok flag) ih
  | entered flag supplies _ ih =>
    exact Frame.trans (Along.of_ok flag) (Frame.trans supplies.follows ih)

end Follows

/-- What is declared is told by types and fields. -/
theorem World.Resembles.declaration? {w u : World} (h : w.Resembles u) (f : Nat) :
    u.declaration? f = w.declaration? f := by
  unfold World.declaration? World.declaredAlong? World.attributeAlong?
  rw [h.declaredDefault, h.field]
  simp only [h.lineage, h.type]

/-- **Still walks.** Where nothing changes on the way but kept lists, the log and the identities that
are given out, a walk comes to what is declared at first. -/
theorem delivers_of_idle {d : Dispatch} [d.Within World.Idle] {uiOnly : Bool} {field : Value → Nat}
    {w : World} {names : List Value} (plain : w.Plain)
    (shown : uiOnly = true → ∀ n ∈ names, ∀ u, w.Resembles u →
      ∃ skipped u', exec (uiExclude d (field n)) u = (.ok skipped, u'))
    (made : ∀ n ∈ names, ∀ c, (w.field (field n)).isArray = false →
      w.declaration? (field n) = some c → c.value.isCallable = true ∨ c.value.isData = false →
      ∀ u, w.Resembles u → ∃ x u', exec (produceDefault d c.value) u = (.ok x, u')) :
    Delivers d uiOnly field w names where
  shown asked pre n rest es u split filled :=
    shown asked n (split ▸ List.mem_append_right pre List.mem_cons_self) u
      (filled.follows (R := World.Idle) plain)
  made pre n rest es u v c split filled flag single declares special := by
    -- Nothing that is declared changes up to this field, nor when its flag is asked.
    have reached : w.Resembles u := filled.follows (R := World.Idle) plain
    have asked : Along World.Idle (passesOver d uiOnly (field n)) := by
      unfold passesOver
      infer_instance
    have resembles : w.Resembles v :=
      reached.trans (Along.of_ok (R := World.Idle) flag (reached.plain plain))
    rw [resembles.field] at single
    rw [resembles.declaration?] at declares
    exact made n (split ▸ List.mem_append_right pre List.mem_cons_self) c single declares special v
      resembles

/-! ## Records -/

/-- A flag that is not set lists all names that a schema declares, and no field is passed over. -/
theorem World.SoundSchemas.exec_defaultNames {w : World} (sound : w.SoundSchemas) (d : Dispatch)
    (s : Nat) :
    ∃ w₁, exec (defaultNames d s (.bool false)) w = (.ok (w.declared s, false), w₁) ∧
      w.Relisted w₁ := by
  have chosen : exec (Projection.ofFlags d (bothFlags [.bool false])) w = (.ok .all, w) := rfl
  obtain ⟨w₁, run, listed⟩ := sound.lists_fieldList d s
  refine ⟨w₁, ?_, listed.relisted⟩
  rw [← sound.plain.exec_fieldNames chosen] at run
  unfold defaultNames
  rw [exec_bind_ok run]
  rfl

/-- **Complete records of defaults**, in every session. Without a flag all fields count that the
schema declares. If flags can be read, functions that are consulted return, and what else is declared
can be copied where it is no data, the record of defaults is given: it has an entry for each field
that is not passed over and gives something, in the order of the list. The mark for what is not
present is in it only where a field's own default gave it, by a function or by an object that makes
copies of itself. -/
theorem defaultRecord_complete {call : Provider} {depth : Nat} {w₀ w : World}
    (user : call.Within World.Develops) (start : w₀.NoObjects)
    (run : SchemaRun (call.dispatch depth) w₀ w) {s : Nat} (inside : s < w.schemas.size) :
    (∃ w₁, exec (defaultNames (call.dispatch depth) s (.bool false)) w
      = (.ok (w.declared s, false), w₁)) ∧
    ∀ flag names uiOnly w₁,
      exec (defaultNames (call.dispatch depth) s flag) w = (.ok (names, uiOnly), w₁) →
      Delivers (call.dispatch depth) uiOnly (w.fieldUnder s) w₁ names →
      ∃ es w', exec (defaultRecord (call.dispatch depth) s flag) w = (.ok (.freshDict es), w') ∧
        Filled (call.dispatch depth) uiOnly (w.fieldUnder s) (Supplies (call.dispatch depth)) w₁
          names es w' ∧
        (Table.keys es).Sublist names ∧
        ∀ e ∈ es, e.2.isMissing = true → ∃ v u u',
          u.declaration? (w.fieldUnder s e.1) = some (.ofField (w.fieldUnder s e.1) v) ∧
            (v.isCallable = true ∨ v.isData = false) ∧ Made (call.dispatch depth) v u e.2 u' := by
  have sound := run.sound user start
  have within := Provider.dispatch_develops user depth
  constructor
  · obtain ⟨w₁, listed, -⟩ := sound.exec_defaultNames (call.dispatch depth) s
    exact ⟨w₁, listed⟩
  · intro flag names uiOnly w₁ listed delivers
    obtain ⟨es, w', filled⟩ := delivers.exists_filled
    have entered := filled.mono fun f u o u' supplies => Enters.given supplies
    exact ⟨es, w', sound.exec_defaultRecord_of_filled inside listed entered, filled, filled.keys,
      filled.of_missing⟩

/-- A function that gives a value. -/
def giver (v : Value) : Value := .function 1 (some "const") .const [v]

/-- The definition of a type that declares a default. -/
def defaultDefinition (name : String) (base default : Value) : TypeDefinition :=
  ⟨.str name, .ofFields [("default_value", default)], base, .null, .null⟩

/-- A schema with a field for each way to give a default, and to give none. -/
def defaultsSession : List SchemaOperation :=
  [.newRegistry, .define 0 (.define (bareDefinition "T" .null)),
   .define 0 (.define (defaultDefinition "L" .null (.fresh [.int 1, .int 2]))),
   .define 0 (.define (defaultDefinition "P" .null (giver (.int 3)))),
   .define 0 (.define (bareDefinition "Q" (.str "P"))),
   .define 0 (.define (defaultDefinition "R" (.str "P") .missing)),
   .compile 0 (.ofFields [("n", .str "T")]) .null .null,
   .compile 0 (.ofFields [("array", .fresh [.str "T"]),
     ("own", .ofFields [("type", .str "P"), ("default", .ofFields [("k", .int 1)])]),
     ("made", .ofFields [("type", .str "L"), ("default", giver (.int 5))]),
     ("inherited", .str "Q"), ("listed", .str "L"), ("cut", .str "R"), ("bare", .str "T"),
     ("nested", .schema 0)]) .null .null]

/-- The world after the session. -/
def World.withDefaults : World := afterSession (answering.dispatch 2) defaultsSession (.empty "" [])

/-- Whether a field is an array, declares no default, or one that is a function of a provider or
data. -/
def World.declaresPlainly (w : World) (f : Nat) : Bool :=
  (w.field f).isArray || match w.declaration? f with
    | none => true
    | some c => match c.value with
      | .function .. => true
      | v => v.isData && !v.isCallable

/-- Functions that give what they captured can be consulted in every world. -/
theorem delivers_answering {w : World} {field : Value → Nat} {names : List Value} (plain : w.Plain)
    (depth : Nat) (h : ∀ n ∈ names, w.declaresPlainly (field n) = true) :
    Delivers (answering.dispatch (depth + 1)) false field w names := by
  have user : answering.Within World.Idle := answering_within
  have within : (answering.dispatch (depth + 1)).Within World.Idle :=
    Provider.dispatch_within user (depth + 1)
  refine delivers_of_idle plain (fun asked => absurd asked Bool.false_ne_true) fun n there c single declares special u _ => ?_
  have check := h n there
  unfold World.declaresPlainly at check
  rw [single, declares, Bool.false_or] at check
  dsimp only at check
  split at check
  · next value =>
    rw [value]
    exact ⟨_, u, rfl⟩
  · next v _ =>
    rw [Bool.and_eq_true, Bool.not_eq_true'] at check
    rcases special with callable | data
    · cases check.2.symm.trans callable
    · cases data.symm.trans check.1

/-- All functions of the session return, and the record has an entry for each field but for those
whose type has no default, or cuts off what it would inherit, and for the nested schema. -/
theorem defaultRecord_complete_each :
    let d := answering.dispatch 2
    let w := World.withDefaults
    answering.Within World.Develops ∧ (World.empty "" []).NoObjects ∧ SchemaRun d (.empty "" []) w ∧
    1 < w.schemas.size ∧
    ∃ names w₁ es w', exec (defaultNames d 1 (.bool false)) w = (.ok (names, false), w₁) ∧
      Delivers d false (w.fieldUnder 1) w₁ names ∧
      exec (defaultRecord d 1 (.bool false)) w = (.ok (.freshDict es), w') ∧
      (Value.freshDict es).same (.ofFields [("array", .fresh []), ("own", .ofFields [("k", .int 1)]),
        ("made", .int 5), ("inherited", .int 3), ("listed", .fresh [])]) = true := by
  have user : answering.Within World.Develops := answering_within
  have start : (World.empty "" []).NoObjects := ⟨rfl, rfl, rfl, rfl⟩
  have run : SchemaRun (answering.dispatch 2) (.empty "" []) .withDefaults :=
    .of_extendsNone defaultsSession rfl
  have size : 1 < World.withDefaults.schemas.size := by decide +kernel
  have plainly : ((World.withDefaults.declared 1).all fun n =>
      World.withDefaults.declaresPlainly (World.withDefaults.fieldUnder 1 n)) = true := by
    decide +kernel
  have sound := run.sound user start
  obtain ⟨w₁, listed, relisted⟩ := sound.exec_defaultNames (answering.dispatch 2) 1
  have resembles : World.withDefaults.Resembles w₁ := .of_relisted relisted
  have delivers : Delivers (answering.dispatch 2) false (World.withDefaults.fieldUnder 1) w₁
      (World.withDefaults.declared 1) := by
    refine delivers_answering (resembles.plain sound.plain) 1 fun n there => ?_
    unfold World.declaresPlainly
    rw [resembles.field, resembles.declaration?]
    exact List.all_eq_true.mp plainly n there
  obtain ⟨es, w', made, -⟩ := (defaultRecord_complete user start run size).2 _ _ _ _ listed delivers
  obtain ⟨x, given, same⟩ := exec_of_seen (f := fun x => some (x.same (.ofFields
    [("array", .fresh []), ("own", .ofFields [("k", .int 1)]), ("made", .int 5),
      ("inherited", .int 3), ("listed", .fresh [])])))
    (show ((exec (defaultRecord (answering.dispatch 2) 1 (.bool false)) .withDefaults).1.toOption.bind
      _) = some true by decide +kernel)
  rw [made] at given
  obtain rfl := Except.ok.inj (Prod.mk.inj given).1
  exact ⟨user, start, run, size, _, w₁, es, w', listed, delivers, made, Option.some.inj same⟩

/-- What a mapping has under a name. -/
def Value.under? (v : Value) (name : String) : Option Value :=
  match v with
  | .dict _ entries => Table.get? entries (.str name)
  | _ => none

/-- A list that a type declares does not go into the record. -/
theorem defaultRecord_empties_list :
    let d := answering.dispatch 2
    let w := World.withDefaults
    (∃ c, w.declaration? (w.fieldUnder 1 (.str "listed")) = some c ∧
      c.value.same (.fresh [.int 1, .int 2]) = true ∧
      (w.declaredDefault (w.fieldUnder 1 (.str "listed"))).isMissing = true) ∧
    ∃ x w' y, exec (defaultRecord d 1 (.bool false)) w = (.ok x, w') ∧
      x.under? "listed" = some y ∧ y.same (.fresh [.int 1, .int 2]) = false := by
  obtain ⟨x, made, seen⟩ := exec_of_seen
    (f := fun x => (x.under? "listed").map fun y => y.same (.fresh [.int 1, .int 2]))
    (show ((exec (defaultRecord (answering.dispatch 2) 1 (.bool false)) .withDefaults).1.toOption.bind
      _) = some false by decide +kernel)
  obtain ⟨y, under, differs⟩ := Option.map_eq_some_iff.mp seen
  have declared : ((World.withDefaults.declaration?
      (World.withDefaults.fieldUnder 1 (.str "listed"))).map fun c =>
        c.value.same (.fresh [.int 1, .int 2])) = some true := by decide +kernel
  obtain ⟨c, declares, same⟩ := Option.map_eq_some_iff.mp declared
  exact ⟨⟨c, declares, same, by decide +kernel⟩, x, _, y, made, under, differs⟩

end DataShape
