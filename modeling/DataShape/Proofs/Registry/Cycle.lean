import DataShape.Proofs.Registry.Lineage
import DataShape.Proofs.Registry.Soundness
import DataShape.Proofs.Wording

/-! # Cycles

A definition whose base derives from the name being defined is refused as a cycle. In a plain world
this is the only way to that fault: everything else that can go wrong in a definition has a fault of
its own.

* `World.BaseNamed` — the registered type that the base of a definition stands for.
* `defineType_cycle_iff` — a definition is refused as a cycle exactly when its name occurs in the
  lineage of its base. -/

namespace DataShape

/-- Whether a fault is the refusal of a cycle. -/
def Fault.isCycle : Fault → Bool
  | .cycle .. => true
  | _ => false

theorem Fault.IsWording.not_isCycle {e : Fault} (h : e.IsWording) : e.isCycle = false := by
  cases h <;> rfl

/-- An action leaves a plain world, and does not end in the refusal of a cycle. -/
def Acyclic {α : Type} (a : Action α) (w : World) : Prop :=
  (exec a w).2.Plain ∧ ∀ e, (exec a w).1 = .error e → e.isCycle = false

variable {α β : Type} {w : World}

theorem acyclic_pure (x : α) (plain : w.Plain) : Acyclic (pure x) w := ⟨plain, nofun⟩

theorem acyclic_throw {e : Fault} (plain : w.Plain) (h : e.isCycle = false) :
    Acyclic (throw e : Action α) w :=
  ⟨plain, fun _ same => Except.error.inj same ▸ h⟩

theorem Words.acyclic {a : Action α} (h : Words a w) (plain : w.Plain) : Acyclic a w :=
  ⟨h.1.plain plain, fun e same => (h.2 e same).not_isCycle⟩

/-- A sequence refuses no cycle if its steps do not. -/
theorem Acyclic.bind {a : Action α} {f : α → Action β} (first : Acyclic a w)
    (second : ∀ x w', exec a w = (.ok x, w') → w'.Plain → Acyclic (f x) w') :
    Acyclic (a >>= f) w := by
  obtain ⟨plain, faults⟩ := first
  unfold Acyclic
  rw [exec_bind]
  rcases run : exec a w with ⟨e | x, w₁⟩ <;> rw [run] at plain faults
  · exact ⟨plain, fun e' h => Except.error.inj h ▸ faults e rfl⟩
  · exact second x w₁ run plain

/-- After a step that gives a result, a sequence refuses no cycle if what follows does not. -/
theorem Acyclic.after {a : Action α} {x : α} {w' : World} {f : α → Action β}
    (h : exec a w = (.ok x, w')) (second : Acyclic (f x) w') : Acyclic (a >>= f) w := by
  unfold Acyclic
  rw [exec_bind_ok h]
  exact second

/-- A change that leaves registries untouched refuses nothing. -/
theorem acyclic_modify {f : World → World} (plain : w.Plain) (h : w.Untouched (f w)) :
    Acyclic (modify f : Action PUnit) w := ⟨h.plain plain, nofun⟩

theorem acyclic_modifyTable (plain : w.Plain) (owner : TableOwner)
    (change : CapabilityTable → CapabilityTable) : Acyclic (modifyTable owner change) w := by
  have changed := (along_modifyTable (R := World.Untouched) owner change).out w
  exact ⟨changed.plain plain, nofun⟩

theorem acyclic_writeLog (plain : w.Plain) (origin : LogOrigin) (level : LogLevel)
    (text : String) : Acyclic (writeLog origin level text) w := by
  have logged := (along_writeLog (R := World.Untouched) origin level text).out w
  exact ⟨logged.plain plain, nofun⟩

/-! ## Bases -/

/-- The registered type that the base of a definition stands for: the type of a name, or a type that
is registered under its own name. -/
inductive World.BaseNamed (w : World) (r : Nat) : Value → Nat → Prop where
  | name {n : String} {b : Nat} (h : w.typeNamed? r n = some b) : BaseNamed w r (.str n) b
  | type {b : Nat} (h : w.typeNamed? r (w.type b).name = some b) : BaseNamed w r (.type b) b

theorem World.BaseNamed.isNull_eq_false {r b : Nat} {base : Value} (h : w.BaseNamed r base b) :
    base.isNull = false := by
  cases h <;> rfl

theorem World.BaseNamed.registered {r b : Nat} {base : Value} (h : w.BaseNamed r base b) :
    b ∈ w.typesOf r := by
  cases h with
  | name h => exact Table.mem_values_of_get? h
  | type h => exact Table.mem_values_of_get? h

/-- A conversion that a definition may give: none, or something that can be called. -/
def Value.isConversion (v : Value) : Bool := v.isNull || v.isCallable

section Definition

variable {d : Dispatch} {r : Nat}

theorem exec_checkMarshaller {slot : String} {name function : Value}
    (h : function.isConversion = true) :
    exec (checkMarshaller d slot name function) w = (.ok ⟨⟩, w) := by
  unfold checkMarshaller
  rw [if_neg]
  · rfl
  · intro refused
    simp_all [Value.isConversion]

theorem exec_baseNamed (plain : w.Plain) {name base : Value} {b : Nat}
    (h : w.BaseNamed r base b) : exec (baseNamed d r name base) w = (.ok b, w) := by
  cases h with
  | @name n _ found =>
    have looked : exec (findType? r (.str n)) w = (.ok (some b), w) := by
      rw [exec_findType? rfl, ← found]
      rfl
    unfold baseNamed requireType
    dsimp only
    rw [exec_bind_ok looked]
    rfl
  | type found =>
    have looked : exec (findType? r (w.typeName b)) w = (.ok (some b), w) := by
      rw [plain.typeName, exec_findType? rfl, ← found]
      rfl
    unfold baseNamed
    dsimp only
    rw [exec_bind_ok (exec_get w), exec_bind_ok looked, if_pos (beq_self_eq_true _)]
    rfl

/-- A base that derives from the name is refused, and the fault names both. -/
theorem exec_resolveBase_of_derives (plain : w.Plain) {s : String} {base : Value} {b : Nat}
    (h : w.BaseNamed r base b) (derives : s ∈ (w.lineage b).map fun t => (w.type t).name) :
    exec (resolveBase d r (.str s) base) w
      = (.error (.cycle (.str s) (w.type b).name s), w) := by
  have asked : exec (derivesFrom d b (.str s)) w = (.ok true, w) := by
    unfold derivesFrom
    rw [plain.exec_orStandIn, plain.exec_isA, decide_eq_true derives]
  unfold resolveBase
  rw [exec_bind_ok (exec_baseNamed plain h), exec_bind_ok asked]
  simp only [if_true, exec_bind, exec_get, plain.typeName, textOf_str, exec_pure, exec_throw]

theorem exec_resolveBase_of_not_derives (plain : w.Plain) {s : String} {base : Value} {b : Nat}
    (h : w.BaseNamed r base b) (derives : s ∉ (w.lineage b).map fun t => (w.type t).name) :
    exec (resolveBase d r (.str s) base) w = (.ok b, w) := by
  have asked : exec (derivesFrom d b (.str s)) w = (.ok false, w) := by
    unfold derivesFrom
    rw [plain.exec_orStandIn, plain.exec_isA, decide_eq_false derives]
  unfold resolveBase
  rw [exec_bind_ok (exec_baseNamed plain h), exec_bind_ok asked]
  rfl

/-! ## The rest of a definition -/

variable {call : Provider} {depth : Nat}

theorem acyclic_shown (plain : w.Plain) (v : Value) :
    Acyclic (shown (call.dispatch depth) v) w :=
  (words_shown (call.words_display depth) v plain).acyclic plain

theorem acyclic_truthOf (plain : w.Plain) (v : Value) : Acyclic (truthOf d v) w :=
  (Words.of_relists (relists_truthOf d plain v)).acyclic plain

theorem acyclic_mergeTypeAttributes (plain : w.Plain) (id : Nat) (attributes : Value) :
    Acyclic (mergeTypeAttributes (call.dispatch depth) id attributes) w := by
  unfold mergeTypeAttributes
  refine .after (exec_mappingOf? attributes w) ?_
  split
  · refine .after (plain.exec_standIn? _ _) ?_
    exact acyclic_modify plain (w.untouched_changePart _ _)
  · refine .after (exec_get w) ?_
    rw [plain.typeName, textOf_str]
    refine .after (exec_pure _ w) ((acyclic_shown plain attributes).bind ?_)
    exact fun text w' _ plain' => acyclic_throw plain' rfl

theorem acyclic_extendType (plain : w.Plain) (id : Nat) (base : Option Nat)
    {definition : TypeDefinition} {s : String} (named : definition.name = .str s) :
    Acyclic (extendType (call.dispatch depth) id base definition) w := by
  have merged : ∀ w : World, w.Plain → Acyclic (do
      if ← truthOf (call.dispatch depth) definition.attributes then
        extendAttributes (call.dispatch depth) id definition.attributes
      writeLog .registry .debug s!"Merged attributes into type: {s}") w := by
    intro w plain
    refine (acyclic_truthOf plain _).bind fun b w₁ _ plain₁ => ?_
    cases b with
    | false => exact acyclic_writeLog plain₁ _ _ _
    | true =>
      have merged : Acyclic (mergeTypeAttributes (call.dispatch depth) id definition.attributes)
          w₁ := acyclic_mergeTypeAttributes plain₁ id definition.attributes
      have extended : Acyclic (extendAttributes (call.dispatch depth) id definition.attributes)
          w₁ := by
        unfold extendAttributes Acyclic
        rwa [plain₁.exec_orStandIn]
      exact extended.bind fun _ w₂ _ plain₂ => acyclic_writeLog plain₂ _ _ _
  unfold extendType
  rw [named, textOf_str]
  refine .after (exec_pure _ w) ?_
  cases base with
  | none => exact merged w plain
  | some b =>
    refine .after (exec_get w) ?_
    split
    · refine .after (exec_get w) ?_
      rw [plain.typeName, textOf_str]
      refine .after (exec_pure _ w) ((acyclic_writeLog plain _ _ _).bind ?_)
      exact fun _ w₁ _ plain₁ => merged w₁ plain₁
    · exact merged w plain

theorem acyclic_newType {node : TypeNode} (plain : w.Plain) (stored : node.stored = []) :
    Acyclic (newType node) w := by
  refine ⟨⟨fun i => ?_, plain.fields, plain.schemas⟩, nofun⟩
  show ((w.types.push node).getD i default).stored = []
  by_cases new : i = w.types.size
  · simp [new, Array.getD, stored]
  · by_cases inside : i < w.types.size
    · have old := plain.types i
      simp only [World.type, Array.getD, inside, dite_true] at old
      simpa [Array.getD, Array.getElem_push, inside, Nat.lt_succ_of_lt inside] using old
    · have outside : ¬ i < w.types.size + 1 := by omega
      simp [Array.getD, outside]
      rfl

theorem acyclic_makeType (plain : w.Plain) (s : String) (attributes : Value)
    (base : Option Nat) :
    Acyclic (makeType (call.dispatch depth) (.str s) attributes (base.elim .null .type)) w := by
  cases named : s.isEmpty with
  | true =>
    rw [String.isEmpty_iff.mp named, makeType_of_empty]
    exact acyclic_throw plain rfl
  | false =>
    rw [makeType_of_name named]
    refine (acyclic_truthOf plain attributes).bind fun b w₁ _ plain₁ => ?_
    cases b with
    | false => exact acyclic_newType plain₁ rfl
    | true =>
      refine .after (exec_mappingOf? attributes w₁) ?_
      split
      · exact acyclic_newType plain₁ rfl
      · exact (acyclic_shown plain₁ attributes).bind fun _ _ _ plain₂ => acyclic_throw plain₂ rfl

theorem acyclic_createType (plain : w.Plain) {r : Nat} (base : Option Nat)
    {definition : TypeDefinition} {s : String} (named : definition.name = .str s) :
    Acyclic (createType (call.dispatch depth) r base definition) w := by
  unfold createType
  rw [named]
  refine (acyclic_makeType plain s _ base).bind fun id w₁ _ plain₁ => ?_
  refine .after (exec_get w₁) (.after (exec_modify _ w₁) ?_)
  have plain₂ : (w₁.modifyRegistry r fun n =>
      { n with types := n.types.insert (w₁.type id).name id }).Plain :=
    ⟨plain₁.types, plain₁.fields, plain₁.schemas⟩
  have logged := fun (w : World) (plain : w.Plain) (text : String) =>
    (acyclic_writeLog plain .registry .debug text).bind fun _ _ _ plain => acyclic_pure id plain
  cases base with
  | none => exact logged _ plain₂ _
  | some b =>
    refine .after (exec_get _) ?_
    rw [plain₂.typeName, textOf_str]
    exact .after (exec_pure _ _) (logged _ plain₂ _)

/-- A capability is read as it is, so that its name is found without a call. -/
theorem acyclic_capabilityName (plain : w.Plain) (c : Capability) :
    Acyclic ((call.dispatch depth).member c.toValue "name") w := by
  cases depth with
  | zero => exact acyclic_throw plain rfl
  | succ depth =>
    show Acyclic (readMember (call.dispatch depth) c.toValue "name") w
    have name : computedMember? (call.dispatch depth) c.toValue "name" = some (pure c.name) := rfl
    rw [readMember_of_not_host _ rfl name]
    exact acyclic_pure _ plain

theorem acyclic_installMarshaller (plain : w.Plain) (id : Nat) (slot : String)
    (function : Value) : Acyclic (installMarshaller (call.dispatch depth) id slot function) w := by
  unfold installMarshaller
  split
  · exact acyclic_pure _ plain
  · have plain₁ : World.Plain { w with nextIdentity := w.nextIdentity + 1 } :=
      ⟨plain.types, plain.fields, plain.schemas⟩
    have identity : exec newIdentity w
        = (.ok w.nextIdentity, { w with nextIdentity := w.nextIdentity + 1 }) := rfl
    refine .after identity ?_
    unfold giveCapability Acyclic
    rw [plain₁.exec_orStandIn]
    refine Acyclic.after (plain₁.exec_standIn? _ _) ?_
    refine (acyclic_capabilityName plain₁ _).bind fun name w₂ _ plain₂ => ?_
    split
    · exact acyclic_throw plain₂ rfl
    · exact acyclic_modifyTable plain₂ _ _

/-- A definition whose base does not derive from its name refuses no cycle. -/
theorem acyclic_defineType (plain : w.Plain) {definition : TypeDefinition} {s : String} {b : Nat}
    (named : definition.name = .str s) (toText : definition.toText.isConversion = true)
    (fromText : definition.fromText.isConversion = true) (base : w.BaseNamed r definition.base b)
    (derives : s ∉ (w.lineage b).map fun t => (w.type t).name) :
    Acyclic (defineType (call.dispatch depth) r definition) w := by
  have converted : ∀ (id : Nat) (w : World), w.Plain → Acyclic (do
      installMarshaller (call.dispatch depth) id "to_string" definition.toText
      installMarshaller (call.dispatch depth) id "from_string" definition.fromText
      return id) w := by
    intro id w plain
    refine (acyclic_installMarshaller plain id _ _).bind fun _ _ _ plain₁ => ?_
    exact (acyclic_installMarshaller plain₁ id _ _).bind fun _ _ _ plain₂ => acyclic_pure id plain₂
  have resolved : exec (some <$> resolveBase (call.dispatch depth) r (.str s) definition.base) w
      = (.ok (some b), w) := by
    rw [exec_map, exec_resolveBase_of_not_derives plain base derives]
  unfold defineType
  refine .after (exec_checkMarshaller toText) (.after (exec_checkMarshaller fromText) ?_)
  rw [base.isNull_eq_false, named]
  refine .after resolved (.after (exec_findType? rfl) ?_)
  cases (Value.str s).text?.bind (w.typeNamed? r) with
  | some id =>
    exact (acyclic_extendType plain id _ named).bind fun _ _ _ plain₁ => converted id _ plain₁
  | none =>
    exact (acyclic_createType plain _ named).bind fun id _ _ plain₁ => converted id _ plain₁

end Definition

/-! ## Refused cycles -/

/-- A definition of a text name, with conversions that are none or can be called and a base that
stands for a registered type, is refused as a cycle exactly when the name occurs in the lineage of
the base. -/
theorem defineType_cycle_iff (call : Provider) (depth : Nat) {r : Nat} (plain : w.Plain)
    {definition : TypeDefinition} {s : String} {b : Nat} (named : definition.name = .str s)
    (toText : definition.toText.isConversion = true)
    (fromText : definition.fromText.isConversion = true) (base : w.BaseNamed r definition.base b) :
    (∃ name baseName text, (exec (defineType (call.dispatch depth) r definition) w).1
        = .error (.cycle name baseName text))
      ↔ s ∈ (w.lineage b).map fun t => (w.type t).name := by
  constructor
  · -- without the name in the lineage, no step of the definition refuses a cycle
    contrapose
    intro derives
    rintro ⟨name, baseName, text, refused⟩
    have := (acyclic_defineType plain named toText fromText base derives).2 _ refused
    cases this
  · intro derives
    have refused : exec (some <$> resolveBase (call.dispatch depth) r (.str s) definition.base) w
        = (.error (.cycle (.str s) (w.type b).name s), w) := by
      rw [exec_map, exec_resolveBase_of_derives plain base derives]
    refine ⟨.str s, (w.type b).name, s, ?_⟩
    unfold defineType
    rw [exec_bind_ok (exec_checkMarshaller toText), exec_bind_ok (exec_checkMarshaller fromText),
      base.isNull_eq_false, named]
    exact congrArg Prod.fst (exec_bind_error refused _)

end DataShape
