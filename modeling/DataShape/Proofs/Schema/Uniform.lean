import DataShape.Proofs.Schema.Reader

/-! # Wording that stays the same

A conversion writes values, gives out identities and adds to the log, and to show a schema it keeps
field lists. Whether a value is worded in the same way again depends on whether the value looks at
any of that. Data and engine objects do not, as long as schemas are named by texts.

* `World.Resembles` — worlds that differ in the log, the identities given out and kept lists only.
* `World.Vicinity` — a kind of such worlds that wording does not leave.
* `Yields`, `Uniform` — an action with one result, or one outcome, in all worlds of a kind.
* `World.WordedAlike` — a value with the same text and the same notation in all of them.
* `Value.IsOpen`, `uniform_wording` — values that do not hold the lists that a schema keeps. -/

namespace DataShape

/-- Whether a part is the lists that a schema keeps. -/
def Part.isKeptLists : Part → Bool
  | .fieldLists _ => true
  | _ => false

/-! ## Worlds that resemble each other -/

/-- Two worlds differ in the log, in the identities given out and in kept lists, and in nothing
else. -/
def World.Resembles (w u : World) : Prop :=
  w.Relisted { u with log := w.log, nextIdentity := w.nextIdentity }

namespace World.Resembles

theorem refl (w : World) : w.Resembles w := Relisted.refl w

variable {w u : World} (h : w.Resembles u)

include h

theorem types : u.types = w.types := by
  have same := Relisted.types h
  exact same

theorem type (i : Nat) : u.type i = w.type i := by
  have same := Relisted.type h i
  exact same

theorem field (i : Nat) : u.field i = w.field i := by
  have same := Relisted.field h i
  exact same

theorem registry (i : Nat) : u.registry i = w.registry i := by
  have same := Relisted.registry h i
  exact same

theorem schemaFields (i : Nat) : (u.schema i).fields = (w.schema i).fields := by
  have same := Relisted.schemaFields h i
  exact same

theorem declared (s : Nat) : u.declared s = w.declared s := by
  have along : ∀ chain : List Nat, u.declaredAlong chain = w.declaredAlong chain := by
    intro chain
    induction chain with
    | nil => rfl
    | cons i rest ih => rw [declaredAlong, declaredAlong, ih, h.schemaFields]
  have line : u.schemaChain s = w.schemaChain s := Relisted.schemaChain h s
  rw [World.declared, World.declared, line, along]

theorem fieldNamed? (s : Nat) (name : Value) : u.fieldNamed? s name = w.fieldNamed? s name := by
  have same := Relisted.fieldNamed? h s name
  exact same

theorem fieldUnder (s : Nat) (n : Value) : u.fieldUnder s n = w.fieldUnder s n := by
  have same := Relisted.fieldUnder h s n
  exact same

theorem schemaParent (i : Nat) : (u.schema i).parent = (w.schema i).parent := by
  have same := Relisted.schemaParent h i
  exact same

theorem collectionName (i : Nat) : (u.schema i).collectionName = (w.schema i).collectionName := by
  have same := Relisted.part h SchemaNode.collectionName (fun _ _ => rfl) i
  exact same

theorem lineage (t : Nat) : u.lineage t = w.lineage t := by
  unfold World.lineage
  rw [h.types]
  simp only [h.type]

theorem representation (t : Nat) : u.representation t = w.representation t := by
  unfold World.representation attributeAlong?
  rw [h.lineage]
  simp only [h.type]

theorem reader? (t : Nat) : u.reader? t = w.reader? t := by
  unfold World.reader? memberAlong?
  rw [h.lineage]
  simp only [h.type]

/-- A value is read in the one world if it is read in the other. -/
theorem reads_iff {f t : Nat} {v : Value} {c : Capability} :
    u.Reads f v t c ↔ w.Reads f v t c := by
  constructor <;> rintro ⟨given, type, foreign, reader⟩
  · exact ⟨given, h.field f ▸ type, h.representation t ▸ foreign, h.reader? t ▸ reader⟩
  · exact ⟨given, (h.field f).symm ▸ type, (h.representation t).symm ▸ foreign,
      (h.reader? t).symm ▸ reader⟩

/-- Only kept lists are other parts of the objects. -/
theorem partEntries {part : Part} (lasting : part.isKeptLists = false) :
    u.partEntries part = w.partEntries part := by
  cases part with
  | typeAttributes t => exact congrArg TypeNode.attributes (h.type t)
  | fieldAttributes f => exact congrArg FieldNode.attributes (h.field f)
  | schemaFields s => exact h.schemaFields s
  | fieldLists s => cases lasting
  | registryTypes r =>
    rw [World.partEntries, World.partEntries, h.registry]
  | tableEntries owner =>
    cases owner with
    | type t => exact congrArg TypeNode.capabilities (h.type t)
    | registrySchemas r => exact congrArg RegistryNode.schemaCapabilities (h.registry r)
    | registryFields r => exact congrArg RegistryNode.fieldCapabilities (h.registry r)

theorem relisted {u' : World} (next : u.Relisted u') : w.Resembles u' := by
  refine Relisted.trans h ⟨?_, next.size, next.schema⟩
  exact congrArg (fun v : World => { v with log := w.log, nextIdentity := w.nextIdentity }) next.rest

theorem logged (l : Array LogRecord) : w.Resembles { u with log := l } := h

theorem identity (n : Nat) : w.Resembles { u with nextIdentity := n } := h

end World.Resembles

/-- Worlds with sound schemas that resemble a given one, of a kind that is not left when the list of
all fields is kept, the log grows or identities are given out. -/
structure World.Vicinity (w : World) (S : World → Prop) : Prop where
  sound : ∀ u, S u → u.SoundSchemas
  resembles : ∀ u, S u → w.Resembles u
  listed : ∀ u u', S u → u.Listed u' → S u'
  logged : ∀ u l, S u → S { u with log := l }
  identity : ∀ u n, S u → S { u with nextIdentity := n }

/-- All worlds with sound schemas that resemble a given one. -/
theorem World.vicinity_readable (w : World) : w.Vicinity (Readable w.Resembles) where
  sound _ h := h.1
  resembles _ h := h.2
  listed _ _ h listed := ⟨listed.sound, h.2.relisted listed.relisted⟩
  logged u l h := ⟨(Frame.log (R := World.Develops) u l h.1).1, h.2.logged l⟩
  identity u n h := ⟨(Frame.identity (R := World.Develops) u n h.1).1, h.2.identity n⟩

/-! ## Uniform actions -/

/-- An action yields a result in all worlds of a kind, and leads to such worlds. -/
def Yields {α : Type} (S : World → Prop) (a : Action α) (x : α) : Prop :=
  ∀ u, S u → ∃ u', exec a u = (.ok x, u') ∧ S u'

section Yields

variable {α β σ : Type} {S : World → Prop}

theorem yields_pure (x : α) : Yields S (pure x) x := fun u h => ⟨u, rfl, h⟩

theorem Yields.bind {a : Action α} {f : α → Action β} {x : α} {y : β} (first : Yields S a x)
    (second : Yields S (f x) y) : Yields S (a >>= f) y := by
  intro u h
  obtain ⟨u₁, run, h₁⟩ := first u h
  obtain ⟨u₂, run', h₂⟩ := second u₁ h₁
  exact ⟨u₂, by rw [exec_bind_ok run, run'], h₂⟩

/-- What a look-up finds everywhere the same it yields. -/
theorem yields_of_still {a : Action α} {x : α} (h : ∀ u, S u → exec a u = (.ok x, u)) :
    Yields S a x := fun u kind => ⟨u, h u kind, kind⟩

/-- A list is mapped to itself if its items are. -/
theorem yields_mapM {f : α → Action α} {items : List α} (each : ∀ x ∈ items, Yields S (f x) x) :
    Yields S (items.mapM f) items := by
  induction items with
  | nil => exact yields_pure []
  | cons x rest ih =>
    rw [List.mapM_cons]
    exact (each x List.mem_cons_self).bind <|
      (ih fun y there => each y (List.mem_cons_of_mem x there)).bind (yields_pure _)

end Yields

/-- An action has the same outcome, a result or a fault, in all worlds of a kind, and leads to such
worlds. -/
def Uniform {α : Type} (S : World → Prop) (a : Action α) : Prop :=
  ∃ r : Except Fault α, ∀ u, S u → ∃ u', exec a u = (r, u') ∧ S u'

section Uniform

variable {α β : Type} {S : World → Prop}

theorem uniform_pure (x : α) : Uniform S (pure x : Action α) := ⟨.ok x, fun u h => ⟨u, rfl, h⟩⟩

theorem uniform_throw (e : Fault) : Uniform S (throw e : Action α) :=
  ⟨.error e, fun u h => ⟨u, rfl, h⟩⟩

/-- What does not look at the world is uniform. -/
theorem uniform_ofExcept (r : Except Fault α) : Uniform S (ofExcept r) := by
  cases r with
  | ok x => exact uniform_pure x
  | error e => exact uniform_throw e

/-- A sequence is uniform if its steps are. -/
theorem Uniform.bind {a : Action α} {f : α → Action β} (first : Uniform S a)
    (second : ∀ x, Uniform S (f x)) : Uniform S (a >>= f) := by
  obtain ⟨r, first⟩ := first
  cases r with
  | error e =>
    refine ⟨.error e, fun u h => ?_⟩
    obtain ⟨u', run, h'⟩ := first u h
    exact ⟨u', exec_bind_error run _, h'⟩
  | ok x =>
    obtain ⟨r, second⟩ := second x
    refine ⟨r, fun u h => ?_⟩
    obtain ⟨u₁, run, h₁⟩ := first u h
    obtain ⟨u₂, run', h₂⟩ := second u₁ h₁
    exact ⟨u₂, by rw [exec_bind_ok run, run'], h₂⟩

/-- Only the runs in worlds of the kind matter. -/
theorem Uniform.congr {a b : Action α} (same : ∀ u, S u → exec a u = exec b u)
    (uniform : Uniform S b) : Uniform S a := by
  obtain ⟨r, uniform⟩ := uniform
  refine ⟨r, fun u h => ?_⟩
  rw [same u h]
  exact uniform u h

/-- After an action that yields one result a sequence is uniform if what follows is. -/
theorem Uniform.following {a : Action α} {f : α → Action β} {x : α} (first : Yields S a x)
    (second : Uniform S (f x)) : Uniform S (a >>= f) := by
  obtain ⟨r, second⟩ := second
  refine ⟨r, fun u h => ?_⟩
  obtain ⟨u₁, run, h₁⟩ := first u h
  obtain ⟨u₂, run', h₂⟩ := second u₁ h₁
  exact ⟨u₂, by rw [exec_bind_ok run, run'], h₂⟩

/-- The same after a look-up that finds the same everywhere. -/
theorem Uniform.after {a : Action α} {f : α → Action β} {x : α}
    (first : ∀ u, S u → exec a u = (.ok x, u)) (second : Uniform S (f x)) :
    Uniform S (a >>= f) := .following (yields_of_still first) second

end Uniform

/-! ## Names of objects -/

/-- Every schema that has a name of its own has a text as its name. -/
def World.NamesAreTexts (w : World) : Prop :=
  ∀ s, (w.schema s).collectionName = .null ∨ ∃ n, (w.schema s).collectionName = .str n

section Names

variable {w : World} {S : World → Prop} (near : w.Vicinity S) (d : Dispatch)

include near

theorem yields_allFieldNames (s : Nat) : Yields S (allFieldNames d s) (w.declared s) := by
  intro u h
  obtain ⟨u', run, listed⟩ := (near.sound u h).exec_allFieldNames d s
  exact ⟨u', by rw [run, (near.resembles u h).declared], near.listed u u' h listed⟩

variable (named : w.NamesAreTexts)

include named

theorem exec_schemaName (s : Nat) : ∃ n : String, ∀ u, S u →
    exec (schemaName d s) u = (.ok (.str n), u) := by
  have told : ∀ u, S u → exec (schemaName d s) u
      = exec (orElseValue d (w.schema s).collectionName (.str "Schema")) u := by
    intro u h
    unfold schemaName
    rw [exec_bind_ok (exec_get u), (near.resembles u h).collectionName]
  rcases named s with none | ⟨n, given⟩
  · refine ⟨"Schema", fun u h => ?_⟩
    rw [told u h, none]
    rfl
  · cases empty : n.isEmpty with
    | true =>
      refine ⟨"Schema", fun u h => ?_⟩
      rw [told u h, given]
      unfold orElseValue truthOf
      simp [Value.isEngineContainer, Value.isTrue, empty]
    | false =>
      refine ⟨n, fun u h => ?_⟩
      rw [told u h, given]
      unfold orElseValue truthOf
      simp [Value.isEngineContainer, Value.isTrue, empty]

theorem exec_heldName (f : Nat) : ∃ n : String, ∀ u, S u →
    exec (heldName d f) u = (.ok (.str n), u) := by
  have told : ∀ u, S u →
      exec (heldName d f) u = exec (nameOf d (w.field f).type.toValue) u := by
    intro u h
    unfold heldName
    rw [exec_bind_ok (exec_get u), (near.sound u h).plain.fieldType, (near.resembles u h).field]
  cases held : (w.field f).type with
  | type t =>
    refine ⟨(w.type t).name, fun u h => ?_⟩
    rw [told u h, held, ← (near.resembles u h).type, ← (near.sound u h).plain.typeName]
    rfl
  | schema s =>
    obtain ⟨n, given⟩ := exec_schemaName near d named s
    refine ⟨n, fun u h => ?_⟩
    rw [told u h, held]
    exact given u h

theorem exec_parentName? (s : Nat) : ∃ n : Option String, ∀ u, S u →
    exec (parentName? d s) u = (.ok (n.map .str), u) := by
  have told : ∀ u, S u → exec (parentName? d s) u
      = exec (match (w.schema s).parent with
        | none => pure none
        | some p => some <$> schemaName d p) u := by
    intro u h
    unfold parentName?
    rw [exec_bind_ok (exec_get u), (near.sound u h).plain.parentOf, (near.resembles u h).schemaParent]
    cases (w.schema s).parent <;> rfl
  cases parent : (w.schema s).parent with
  | none =>
    refine ⟨none, fun u h => ?_⟩
    rw [told u h, parent]
    rfl
  | some p =>
    obtain ⟨n, given⟩ := exec_schemaName near d named p
    refine ⟨some n, fun u h => ?_⟩
    rw [told u h, parent]
    dsimp only
    rw [exec_map, given u h]
    rfl

omit named in
theorem exec_baseName? (t : Nat) : ∃ n : Option String, ∀ u, S u →
    exec (baseName? d t) u = (.ok (n.map .str), u) := by
  refine ⟨(w.type t).base.map fun b => (w.type b).name, fun u h => ?_⟩
  unfold baseName?
  rw [exec_bind_ok (exec_get u)]
  dsimp only
  rw [(near.sound u h).plain.baseOf, (near.resembles u h).type]
  cases (w.type t).base with
  | none => rfl
  | some b =>
    rw [Option.map_some, Option.map_some, ← (near.resembles u h).type b,
      ← (near.sound u h).plain.typeName b]
    rfl

end Names

/-! ## Values -/

/-- Whether a value holds nothing and is worded without a look at the world. -/
def Value.isConstant : Value → Bool
  | .null => true
  | .missing => true
  | .bool _ => true
  | .int _ => true
  | .float _ => true
  | .str _ => true
  | .bytes _ => true
  | .date _ => true
  | .datetime _ => true
  | .time _ => true
  | .option _ => true
  | .record .. => true
  | .native _ => true
  | .target _ => true
  | .registry _ => true
  | .table _ => true
  | .function .. => true
  | _ => false

/-- Values that do not hold the lists that a schema keeps, neither themselves nor in a part of an
engine object that they show. -/
inductive Value.IsOpen (w : World) : Value → Prop where
  | constant {v : Value} (h : v.isConstant = true) : IsOpen w v
  | list (share : Nat) {items : List Value} (h : ∀ v ∈ items, IsOpen w v) :
      IsOpen w (.list share items)
  | tuple {items : List Value} (h : ∀ v ∈ items, IsOpen w v) : IsOpen w (.tuple items)
  | dict (share : Nat) {entries : Entries} (keys : ∀ e ∈ entries, IsOpen w e.1)
      (values : ∀ e ∈ entries, IsOpen w e.2) : IsOpen w (.dict share entries)
  | live {part : Part} (readOnly : Bool) (lasting : part.isKeptLists = false)
      (keys : ∀ e ∈ w.partEntries part, IsOpen w e.1)
      (values : ∀ e ∈ w.partEntries part, IsOpen w e.2) : IsOpen w (.live part readOnly)
  | type (t : Nat) : IsOpen w (.type t)
  | schema (s : Nat) : IsOpen w (.schema s)
  | field (f : Nat) : IsOpen w (.field f)
  | static (id : Nat) (name : Option String) {f : Value} (h : IsOpen w f) :
      IsOpen w (.static id name f)
  | bound {f r : Value} (h : IsOpen w r) : IsOpen w (.bound f r)
  | method {r : Value} (name : String) (h : IsOpen w r) : IsOpen w (.method r name)
  | capability {name f g s : Value} (h : IsOpen w name) (h₁ : IsOpen w f) (h₂ : IsOpen w g)
      (h₃ : IsOpen w s) : IsOpen w (.capability name f g s)
  | present (path : String) : IsOpen w (.predicate (.present path))
  | all {ps : List Predicate} (h : ∀ p ∈ ps, IsOpen w (.predicate p)) :
      IsOpen w (.predicate (.all ps))
  | any {ps : List Predicate} (h : ∀ p ∈ ps, IsOpen w (.predicate p)) :
      IsOpen w (.predicate (.any ps))
  | negation {p : Predicate} (h : IsOpen w (.predicate p)) : IsOpen w (.predicate (.negation p))
  | structural (id : Nat) {expected : Entries} (keys : ∀ e ∈ expected, IsOpen w e.1)
      (values : ∀ e ∈ expected, IsOpen w e.2) : IsOpen w (.predicate (.structural id expected))
  | test {f : Value} (h : IsOpen w f) : IsOpen w (.predicate (.test f))

/-- The items of an open value are open. -/
theorem Value.IsOpen.items {w : World} {v : Value} (h : v.IsOpen w) {items : List Value}
    (sequence : v.sequence? = some items) : ∀ i ∈ items, i.IsOpen w := by
  cases h with
  | constant h => cases v <;> first | exact absurd h Bool.false_ne_true | cases sequence
  | list share h => exact Option.some.inj sequence ▸ h
  | tuple h => exact Option.some.inj sequence ▸ h
  | _ => cases sequence

/-- A mapping of texts to open values is open. -/
theorem Value.IsOpen.ofFields {w : World} {fields : List (String × Value)}
    (h : ∀ f ∈ fields, f.2.IsOpen w) : (Value.ofFields fields).IsOpen w := by
  refine .dict 0 (fun e there => ?_) (fun e there => ?_) <;>
    obtain ⟨f, inside, rfl⟩ := List.mem_map.mp there
  · exact .constant rfl
  · exact h f inside

/-- An open mapping has the same entries in worlds that resemble each other. -/
theorem Value.IsOpen.mapping? {w u : World} {v : Value} (h : v.IsOpen w) (resembles : w.Resembles u) :
    u.mapping? v = w.mapping? v := by
  cases h with
  | constant h => cases v <;> first | rfl | cases h
  | live readOnly lasting => exact congrArg some (resembles.partEntries lasting)
  | _ => rfl

/-- The values of an open mapping are open. -/
theorem Value.IsOpen.entries {w : World} {v : Value} (h : v.IsOpen w) {entries : Entries}
    (mapping : w.mapping? v = some entries) : ∀ e ∈ entries, e.2.IsOpen w := by
  cases h with
  | constant h => cases v <;> first | exact absurd h Bool.false_ne_true | cases mapping
  | dict share keys values => exact Option.some.inj mapping ▸ values
  | live readOnly lasting keys values => exact Option.some.inj mapping ▸ values
  | _ => cases mapping

/-- A value has the same text and the same notation in all worlds that resemble a world. -/
structure World.WordedAlike (d : Dispatch) (w : World) (v : Value) : Prop where
  text : Uniform (Readable w.Resembles) (textOf d v)
  shown : Uniform (Readable w.Resembles) (shown d v)

section Values

variable {d : Dispatch} {w : World}

theorem uniform_shownItems {S : World → Prop} {items : List Value}
    (each : ∀ v ∈ items, Uniform S (shown d v)) : Uniform S (shownItems d items) := by
  induction items with
  | nil =>
    rw [shownItems]
    exact uniform_pure _
  | cons v rest ih =>
    rw [shownItems]
    exact (each v List.mem_cons_self).bind fun _ =>
      (ih fun v there => each v (List.mem_cons_of_mem _ there)).bind fun _ => uniform_pure _

theorem uniform_shownEntries {S : World → Prop} {entries : Entries}
    (keys : ∀ e ∈ entries, Uniform S (shown d e.1))
    (values : ∀ e ∈ entries, Uniform S (shown d e.2)) : Uniform S (shownEntries d entries) := by
  induction entries with
  | nil =>
    rw [shownEntries]
    exact uniform_pure _
  | cons e rest ih =>
    rw [shownEntries, shownEntry]
    have first := (keys e List.mem_cons_self).bind fun key =>
      (values e List.mem_cons_self).bind fun value =>
        uniform_pure (key ++ ": " ++ value)
    exact first.bind fun _ => (ih (fun e there => keys e (List.mem_cons_of_mem _ there))
      fun e there => values e (List.mem_cons_of_mem _ there)).bind fun _ => uniform_pure _

theorem uniform_shownParts {S : World → Prop} {ps : List Predicate}
    (each : ∀ p ∈ ps, Uniform S (shown d (.predicate p))) : Uniform S (shownParts d ps) := by
  induction ps with
  | nil =>
    rw [shownParts]
    exact uniform_pure _
  | cons p rest ih =>
    have first := each p List.mem_cons_self
    rw [shown] at first
    rw [shownParts]
    exact first.bind fun _ =>
      (ih fun p there => each p (List.mem_cons_of_mem _ there)).bind fun _ => uniform_pure _

theorem uniform_shown_of_constant {v : Value} (h : v.isConstant = true) {S : World → Prop} :
    Uniform S (shown d v) := by
  cases v <;> first
    | exact absurd h Bool.false_ne_true
    | (rw [shown]; exact uniform_ofExcept _)
    | (rw [shown]; exact uniform_pure _)

theorem uniform_textThrough {S : World → Prop} {display : Value → Action String}
    (each : ∀ v, v.IsOpen w → Uniform S (display v)) {v : Value} (h : v.IsOpen w) :
    Uniform S (textThrough display v) := by
  cases v with
  | live part readOnly =>
    cases h with
    | constant h => cases h
    | live _ lasting keys values => exact each _ (.live false lasting keys values)
  | str _ | date _ | datetime _ | time _ | target _ => exact uniform_pure _
  | _ => exact each _ h

variable {S : World → Prop} (near : w.Vicinity S)
  (display : ∀ v, v.IsOpen w → Uniform S (d.display v))

include near display

theorem uniform_displayType (t : Nat) : Uniform S (displayType d t) := by
  obtain ⟨base, given⟩ := exec_baseName? near d (w := w) t
  have name : ∀ u, S u → u.typeName t = .str (w.type t).name := by
    intro u h
    rw [(near.sound u h).plain.typeName, (near.resembles u h).type]
  have rest : ∀ base : String, Uniform S (do
      return "DataType(" ++ (← d.display (.str (w.type t).name)) ++ base ++ ")") := fun base =>
    (display (.str _) (.constant rfl)).bind fun _ => uniform_pure _
  cases base with
  | none =>
    refine (rest "").congr fun u h => ?_
    unfold displayType
    rw [exec_bind_ok (exec_get u), exec_bind_ok (given u h), name u h]
    rfl
  | some n =>
    have both := (display (.str n) (.constant rfl)).bind fun text => rest (", base_type=" ++ text)
    refine both.congr fun u h => ?_
    unfold displayType
    rw [exec_bind_ok (exec_get u), exec_bind_ok (given u h), name u h]
    rfl

variable (named : w.NamesAreTexts)

include named

theorem uniform_displayField (f : Nat) : Uniform S (displayField d f) := by
  obtain ⟨held, given⟩ := exec_heldName near d named f
  have rest : Uniform S (do
      let held ← textThrough d.display (← heldName d f)
      let name ← d.display (.str (w.field f).name)
      let array ← fieldIsArray d f
      return "Field(" ++ name ++ ", " ++ (if array then "[" ++ held ++ "]" else held) ++ ")") := by
    have array : ∀ u, S u →
        exec (fieldIsArray d f) u = (.ok (w.field f).isArray, u) := fun u h => by
      rw [exec_fieldIsArray d (near.sound u h).plain, (near.resembles u h).field]
    exact .after given ((uniform_textThrough display (.constant rfl)).bind fun _ =>
      (display _ (.constant rfl)).bind fun _ => .after array (uniform_pure _))
  refine rest.congr fun u h => ?_
  unfold displayField
  rw [exec_bind_ok (exec_get u)]
  dsimp only
  rw [(near.sound u h).plain.fields, (near.resembles u h).field]
  rfl

theorem uniform_displaySchema (sound : w.SoundSchemas) (s : Nat) :
    Uniform S (displaySchema d s) := by
  obtain ⟨parent, parentGiven⟩ := exec_parentName? near d named s
  obtain ⟨name, nameGiven⟩ := exec_schemaName near d named s
  have names : (Value.fresh (w.declared s)).IsOpen w := by
    refine .list _ fun v there => ?_
    obtain ⟨n, rfl⟩ := sound.declaredAlong_texts (w.schemaChain s) v there
    exact .constant rfl
  have rest : ∀ parent : String, Uniform S (do
      let name ← d.display (← schemaName d s)
      let fields ← d.display (.fresh (← allFieldNames d s))
      return "Schema(" ++ name ++ ", fields=" ++ fields ++ parent ++ ")") := fun _ =>
    .after nameGiven ((display _ (.constant rfl)).bind fun _ =>
      .following (yields_allFieldNames near d s) ((display _ names).bind fun _ => uniform_pure _))
  unfold displaySchema
  refine .after parentGiven ?_
  cases parent with
  | none => exact rest ""
  | some n => exact (display (.str n) (.constant rfl)).bind fun text => rest (", parent=" ++ text)

/-- An open value is shown in the same way everywhere, by induction on what it holds. -/
theorem uniform_shown (sound : w.SoundSchemas) {v : Value} (h : v.IsOpen w) :
    Uniform S (shown d v) := by
  induction h with
  | constant h => exact uniform_shown_of_constant h
  | list share _ ih =>
    rw [shown]
    exact (uniform_shownItems ih).bind fun _ => uniform_pure _
  | tuple _ ih =>
    rw [shown]
    exact (uniform_shownItems ih).bind fun _ => uniform_pure _
  | dict share _ _ keys values =>
    rw [shown]
    exact (uniform_shownEntries keys values).bind fun _ => uniform_pure _
  | @live part readOnly lasting keys values =>
    -- A live part lasts, so its entries are those of the first world in all of them.
    have rest : Uniform S (do
        let entries ← d.display (.freshDict (w.partEntries part))
        return if readOnly then "mappingproxy(" ++ entries ++ ")" else entries) :=
      (display _ (.dict _ keys values)).bind fun _ => uniform_pure _
    refine rest.congr fun u h => ?_
    rw [shown, exec_bind_ok (exec_get u), (near.resembles u h).partEntries lasting]
  | type t =>
    rw [shown]
    exact uniform_displayType near display t
  | schema s =>
    rw [shown]
    exact uniform_displaySchema near display named sound s
  | field f =>
    rw [shown]
    exact uniform_displayField near display named f
  | static id name _ ih =>
    rw [shown]
    exact ih.bind fun _ => uniform_pure _
  | bound _ ih =>
    rw [shown]
    exact ih.bind fun _ => uniform_pure _
  | method name _ ih =>
    rw [shown]
    exact ih.bind fun _ => uniform_pure _
  | capability _ _ _ _ name f g s =>
    rw [shown]
    exact name.bind fun _ => f.bind fun _ => g.bind fun _ => s.bind fun _ => uniform_pure _
  | present path =>
    rw [shown, shownPredicate]
    exact uniform_pure _
  | all _ ih =>
    rw [shown, shownPredicate]
    exact (uniform_shownParts ih).bind fun _ => uniform_pure _
  | any _ ih =>
    rw [shown, shownPredicate]
    exact (uniform_shownParts ih).bind fun _ => uniform_pure _
  | negation _ ih =>
    rw [shown] at ih
    rw [shown, shownPredicate]
    exact ih.bind fun _ => uniform_pure _
  | structural id _ _ keys values =>
    rw [shown, shownPredicate]
    exact (uniform_shownEntries keys values).bind fun _ => uniform_pure _
  | test _ ih =>
    rw [shown, shownPredicate]
    exact ih.bind fun _ => uniform_pure _

end Values

/-- **Open values.** A value that holds no kept list has the same text and the same notation in all
worlds in the vicinity of a world with sound schemas, however deep calls may be nested. -/
theorem uniform_wording {w : World} {S : World → Prop} (near : w.Vicinity S)
    (named : w.NamesAreTexts) (sound : w.SoundSchemas) (call : Provider) (depth : Nat) {v : Value}
    (h : v.IsOpen w) : Uniform S (textOf (call.dispatch depth) v) ∧
      Uniform S (shown (call.dispatch depth) v) := by
  have display : ∀ v : Value, v.IsOpen w → Uniform S ((call.dispatch depth).display v) := by
    induction depth with
    | zero => exact fun _ _ => uniform_throw .tooDeep
    | succ depth ih => exact fun v h => uniform_shown near ih named sound h
  have shown : ∀ v : Value, v.IsOpen w → Uniform S (shown (call.dispatch depth) v) :=
    fun _ h => uniform_shown near display named sound h
  exact ⟨uniform_textThrough shown h, shown v h⟩

theorem wordedAlike_of_open {w : World} (named : w.NamesAreTexts) (sound : w.SoundSchemas)
    (call : Provider) (depth : Nat) {v : Value} (h : v.IsOpen w) :
    w.WordedAlike (call.dispatch depth) v := by
  obtain ⟨text, shown⟩ := uniform_wording w.vicinity_readable named sound call depth h
  exact ⟨text, shown⟩

end DataShape
