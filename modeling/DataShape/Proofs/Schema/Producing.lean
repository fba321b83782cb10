import DataShape.Proofs.Copying
import DataShape.Proofs.Schema.Default

/-! # What a field gives a record of defaults

A field that is no array gives its own default, or the one that its type declares through the first
type of its lineage that has one. A default is made of the value that is declared: a function is
called, and anything else is copied. What is made for a type is left out where it is missing, and
replaced by an empty list where it is a list.

A default is read like a member, so a fault that counts as the absence of a member does not end the
reading: what is found under the name of the default is read instead, which is the declared value
itself as long as it is still found there.

* `Declaration`, `World.declaration?` — the default that counts for a field.
* `Made` — what is made of a declared value.
* `Supplies` — what a field gives where its default can be made; `Enters` — what goes into a record
  for it, with what is read after an absence; `Fails` — the faults that stay.
* `exec_recordDefault_eq_ok`, `exec_recordDefault_eq_error` — these are all results, and all
  faults.
* `reread_of_found` — after an absence a function that is still declared is read. -/

namespace DataShape

/-! ## Declarations -/

/-- A default that a field declares, or the type of a field through a type of its lineage. -/
inductive Declaration where
  | ofField (f : Nat) (v : Value)
  | ofType (t : Nat) (v : Value)

namespace Declaration

/-- The declared value. -/
def value : Declaration → Value
  | ofField _ v => v
  | ofType _ v => v

/-- What goes into a record for what was made of a declared value. -/
def entered : Declaration → Value → Option Value
  | ofField .., x => some x
  | ofType .., x => x.asTypeDefault

/-- Read what is found under the name of a default. -/
def reread (d : Dispatch) : Declaration → Action Value
  | ofField f _ => dynamicMember d (.field f) "default"
  | ofType t _ => dynamicMember d (.type t) "default_value"

/-- What is found under the name of a default in a world. -/
def found? (w : World) : Declaration → Option Value
  | ofField f _ => Table.get? (w.field f).attributes (.str "default")
  | ofType t _ => w.memberAlong? (w.lineage t) (.str "default_value")

/-- A function goes into a record as it is. -/
theorem entered_of_isCallable (c : Declaration) {v : Value} (callable : v.isCallable = true) :
    c.entered v = some v := by
  cases c with
  | ofField => rfl
  | ofType => cases v <;> first | rfl | cases callable

end Declaration

namespace World

/-- What the first type of a lineage that has a default among its own attributes has there; `missing`
when no type has one. -/
def declaredAlong? (w : World) (t : Nat) : Value :=
  (w.attributeAlong? (w.lineage t) (.str "default_value")).getD .missing

/-- The default that counts for a field that is no array. -/
def declaration? (w : World) (f : Nat) : Option Declaration :=
  if (w.declaredDefault f).isMissing then match (w.field f).type with
    | .type t => if (w.declaredAlong? t).isMissing then none else some (.ofType t (w.declaredAlong? t))
    | .schema _ => none
  else some (.ofField f (w.declaredDefault f))

end World

/-! ## What a field gives -/

section Field

variable (d : Dispatch)

/-- What is made of a declared value in a world, and the world that is left: what a function gives
that is called, or a copy, which of data is the same data. -/
inductive Made (v : Value) (w : World) (x : Value) (w' : World) : Prop where
  | produced (producer : v.isCallable = true) (run : exec (d.call v [] []) w = (.ok x, w'))
  | copied (literal : v.isCallable = false) (run : exec (copyOf d v) w = (.ok x, w'))
      (equal : v.isData = true → Renews v x)

/-- What a field gives a record where its default can be made. -/
inductive Supplies (f : Nat) (w : World) : Option Value → World → Prop where
  | array (array : (w.field f).isArray = true) : Supplies f w (some (.fresh [])) w
  | bare (single : (w.field f).isArray = false) (bare : w.declaration? f = none) :
      Supplies f w none w
  | declared {c : Declaration} {x : Value} {w' : World} (single : (w.field f).isArray = false)
      (declares : w.declaration? f = some c) (made : Made d c.value w x w') :
      Supplies f w (c.entered x) w'

/-- What goes into a record for a field: what the field gives, or what is read where making the
default ended in a fault that counts as an absence. -/
inductive Enters (f : Nat) (w : World) : Option Value → World → Prop where
  | given {o : Option Value} {w' : World} (supplies : Supplies d f w o w') : Enters f w o w'
  | reread {c : Declaration} {e : Fault} {x : Value} {u w' : World}
      (single : (w.field f).isArray = false) (declares : w.declaration? f = some c)
      (fails : exec (produceDefault d c.value) w = (.error e, u)) (absent : e.isAbsence = true)
      (read : exec (c.reread d) u = (.ok x, w')) : Enters f w (c.entered x) w'

/-- The faults of what goes into a record for a field: that of making the default, or that of reading
what is found in its place. -/
inductive Fails (f : Nat) (w : World) : Fault → World → Prop where
  | made {c : Declaration} {e : Fault} {w' : World} (single : (w.field f).isArray = false)
      (declares : w.declaration? f = some c)
      (fails : exec (produceDefault d c.value) w = (.error e, w')) (present : e.isAbsence = false) :
      Fails f w e w'
  | reread {c : Declaration} {e e' : Fault} {u w' : World}
      (single : (w.field f).isArray = false) (declares : w.declaration? f = some c)
      (fails : exec (produceDefault d c.value) w = (.error e, u)) (absent : e.isAbsence = true)
      (read : exec (c.reread d) u = (.error e', w')) : Fails f w e' w'

variable {d} {w w' : World} {f : Nat}

/-- What is made of a value that is not missing. -/
theorem made_iff {v x : Value} (present : v.isMissing = false) :
    Made d v w x w' ↔ exec (produceDefault d v) w = (.ok x, w') := by
  unfold produceDefault
  rw [present]
  cases callable : v.isCallable with
  | true =>
    constructor
    · rintro (⟨-, run⟩ | ⟨literal, -, -⟩)
      · exact run
      · rw [callable] at literal
        cases literal
    · exact .produced callable
  | false =>
    simp only [Bool.false_eq_true, if_false]
    constructor
    · rintro (⟨producer, -⟩ | ⟨-, run, -⟩)
      · rw [callable] at producer
        cases producer
      · exact run
    · intro run
      -- A copy is made in one way only, so the one of data is the copy that is known.
      refine .copied callable run fun data => ?_
      obtain ⟨y, n, run', renews⟩ := exec_copyOf_of_isData d data w
      rw [run] at run'
      rwa [Except.ok.inj (Prod.mk.inj run').1]

/-- What is declared is the own default of the field, or that of its type, and is not missing. -/
theorem World.declaration?_cases {c : Declaration} (declares : w.declaration? f = some c) :
    c.value.isMissing = false ∧
      (c = .ofField f (w.declaredDefault f) ∨ ∃ t, c = .ofType t (w.declaredAlong? t)) := by
  unfold World.declaration? at declares
  split at declares
  · split at declares
    · split at declares
      · cases declares
      · next t _ present =>
        obtain rfl := Option.some.inj declares
        exact ⟨Bool.eq_false_iff.mpr present, .inr ⟨t, rfl⟩⟩
    · cases declares
  · next present =>
    obtain rfl := Option.some.inj declares
    exact ⟨Bool.eq_false_iff.mpr present, .inl rfl⟩

/-- What is declared is not missing. -/
theorem World.present_of_declaration? {c : Declaration} (declares : w.declaration? f = some c) :
    c.value.isMissing = false := (World.declaration?_cases declares).1

/-- What the type of a field gives to a record is made of what is declared along its lineage. -/
theorem World.Plain.exec_typeRecordDefault (plain : w.Plain) (t : Nat) :
    exec (typeRecordDefault d (.type t)) w = if (w.declaredAlong? t).isMissing then (.ok none, w)
      else exec (Value.asTypeDefault <$> orElseOn Fault.isAbsence
        (produceDefault d (w.declaredAlong? t)) fun _ => dynamicMember d (.type t) "default_value") w
    := by
  have made := exec_orElseOn_congr (plain.exec_typeDefault (d := d) t) Fault.isAbsence
    fun _ => dynamicMember d (.type t) "default_value"
  rw [typeRecordDefault_type, exec_map]
  unfold computedMember
  rw [made, ← World.declaredAlong?]
  cases missing : (w.declaredAlong? t).isMissing with
  | false =>
    simp only [Bool.false_eq_true, if_false]
    rw [exec_map]
  | true =>
    -- The mark for what is not present is copied, and then counts as no default.
    generalize w.declaredAlong? t = v at missing
    cases v with
    | missing => rfl
    | _ => cases missing

/-- What goes into a record for a field is told by what is declared. -/
theorem World.Plain.exec_recordDefault_of_declaration (plain : w.Plain) (f : Nat) :
    exec (recordDefault d (.field f)) w = if (w.field f).isArray then (.ok (some (.fresh [])), w)
      else match w.declaration? f with
        | none => (.ok none, w)
        | some c => exec (c.entered <$> orElseOn Fault.isAbsence (produceDefault d c.value)
            fun _ => c.reread d) w := by
  rw [plain.exec_recordDefault]
  cases (w.field f).isArray with
  | true => rfl
  | false =>
    simp only [Bool.false_eq_true, if_false]
    unfold World.declaration?
    cases (w.declaredDefault f).isMissing with
    | false =>
      simp only [Bool.not_false, if_true, Bool.false_eq_true, if_false]
      rw [exec_map, exec_map]
      unfold computedMember
      -- The own default is made of the declared value, with what is read after an absence beside it.
      rw [exec_orElseOn_congr (plain.exec_fieldDefault f)]
      rfl
    | true =>
      simp only [Bool.not_true, Bool.false_eq_true, if_false, if_true]
      cases (w.field f).type with
      | schema inner => rfl
      | type t =>
        show exec (typeRecordDefault d (.type t)) w = _
        rw [plain.exec_typeRecordDefault]
        dsimp only
        cases (w.declaredAlong? t).isMissing <;> rfl

theorem World.Plain.exec_recordDefault_of_declared (plain : w.Plain) {c : Declaration}
    (single : (w.field f).isArray = false) (declares : w.declaration? f = some c) :
    exec (recordDefault d (.field f)) w = exec (c.entered <$> orElseOn Fault.isAbsence
      (produceDefault d c.value) fun _ => c.reread d) w := by
  rw [plain.exec_recordDefault_of_declaration, single, declares]
  rfl

/-- What goes into a record for a field is the result. -/
theorem Enters.run (plain : w.Plain) {o : Option Value} (h : Enters d f w o w') :
    exec (recordDefault d (.field f)) w = (.ok o, w') := by
  cases h with
  | given supplies =>
    cases supplies with
    | array array => rw [plain.exec_recordDefault_of_declaration, array, if_pos rfl]
    | bare single bare =>
      rw [plain.exec_recordDefault_of_declaration, single, bare]
      rfl
    | declared single declares made =>
      have run := (made_iff (World.present_of_declaration? declares)).mp made
      rw [plain.exec_recordDefault_of_declared single declares, exec_map, exec_orElseOn_ok run]
  | reread single declares fails absent read =>
    rw [plain.exec_recordDefault_of_declared single declares, exec_map,
      exec_orElseOn_error fails absent, read]

/-- A fault that stays is the fault. -/
theorem Fails.run (plain : w.Plain) {e : Fault} (h : Fails d f w e w') :
    exec (recordDefault d (.field f)) w = (.error e, w') := by
  cases h with
  | made single declares fails present =>
    rw [plain.exec_recordDefault_of_declared single declares, exec_map,
      exec_orElseOn_throw fails present]
  | reread single declares fails absent read =>
    rw [plain.exec_recordDefault_of_declared single declares, exec_map,
      exec_orElseOn_error fails absent, read]

/-- There are no other results and faults. -/
theorem enters_or_fails (d : Dispatch) (w : World) (f : Nat) :
    (∃ o w', Enters d f w o w') ∨ ∃ e w', Fails d f w e w' := by
  cases array : (w.field f).isArray with
  | true => exact .inl ⟨_, _, .given (.array array)⟩
  | false =>
    cases declares : w.declaration? f with
    | none => exact .inl ⟨_, _, .given (.bare array declares)⟩
    | some c =>
      rcases run : exec (produceDefault d c.value) w with ⟨e | x, u⟩
      · cases absent : e.isAbsence with
        | false => exact .inr ⟨_, _, .made array declares run absent⟩
        | true =>
          rcases read : exec (c.reread d) u with ⟨e' | x, w'⟩
          · exact .inr ⟨_, _, .reread array declares run absent read⟩
          · exact .inl ⟨_, _, .reread array declares run absent read⟩
      · have made := (made_iff (World.present_of_declaration? declares)).mpr run
        exact .inl ⟨_, _, .given (.declared array declares made)⟩

/-- **All results** of what goes into a record for a field. -/
theorem exec_recordDefault_eq_ok (plain : w.Plain) {o : Option Value} :
    exec (recordDefault d (.field f)) w = (.ok o, w') ↔ Enters d f w o w' := by
  refine ⟨fun run => ?_, Enters.run plain⟩
  rcases enters_or_fails d w f with ⟨o', u, enters⟩ | ⟨e, u, breaks⟩
  · obtain ⟨same, rfl⟩ := Prod.mk.inj (run.symm.trans (enters.run plain))
    obtain rfl := Except.ok.inj same
    exact enters
  · cases run.symm.trans (breaks.run plain)

/-- **All faults.** -/
theorem exec_recordDefault_eq_error (plain : w.Plain) {e : Fault} :
    exec (recordDefault d (.field f)) w = (.error e, w') ↔ Fails d f w e w' := by
  refine ⟨fun run => ?_, Fails.run plain⟩
  rcases enters_or_fails d w f with ⟨o, u, enters⟩ | ⟨e', u, breaks⟩
  · cases run.symm.trans (enters.run plain)
  · obtain ⟨same, rfl⟩ := Prod.mk.inj (run.symm.trans (breaks.run plain))
    obtain rfl := Except.error.inj same
    exact breaks

/-- What is found under the name of a default is read, if it is a function. -/
theorem reread_of_found (plain : w.Plain) {c : Declaration} {v : Value} (found : c.found? w = some v)
    (callable : v.isCallable = true) : exec (c.reread d) w = (.ok v, w) := by
  have dynamic : ∀ host name, isPrivateName name = false →
      exec (findMember d host (.str name)) w = (.ok v, w) →
      exec (dynamicMember d host name) w = (.ok v, w) := by
    intro host name isPublic searched
    unfold dynamicMember
    rw [isPublic]
    show exec (findMember d host (.str name) >>= _) w = _
    rw [exec_bind_ok searched]
    cases v <;> first | rfl | cases callable
  cases c with
  | ofField g u =>
    refine dynamic (.field g) "default" rfl ?_
    have held : exec (heldUnder? d (w.fieldAttributes g) (.str "default")) w = (.ok (some v), w) := by
      rw [plain.fieldAttributes, ← show Table.get? (w.field g).attributes (.str "default") = some v
        from found]
      rfl
    unfold findMember
    rw [plain.exec_orStandIn]
    show exec (heldUnder? d (w.fieldAttributes g) (.str "default") >>= _) w = _
    rw [exec_bind_ok held]
    rfl
  | ofType t u =>
    refine dynamic (.type t) "default_value" rfl ?_
    have along : w.memberAlong? (w.lineage t) (.str "default_value") = some v := found
    unfold findMember
    rw [plain.exec_orStandIn]
    show exec (searchLineage d t _ _ >>= _) w = _
    rw [exec_bind_ok (plain.exec_searchLineage ..), along]
    rfl

end Field

end DataShape
