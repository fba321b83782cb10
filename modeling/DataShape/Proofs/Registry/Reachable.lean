import DataShape.Function
import DataShape.Proofs.Registry.Entry

/-! # What an entry installs

An entry asks for a function, a getter and a setter, or some of them. Each of them is in one of the
capabilities that are read from it, under the explicit name or under its own; a getter and a setter
of one name are in the same capability. When these are installed in order the function comes last,
so it is reached under its name, and a getter or a setter is reached just if the function has not
the same name. That a function can be called is checked; of a getter or a setter it is not.

* `Value.IsNamed` — the name under which a part is installed.
* `Capability.Overwritten` — an accessor in front of a function of the same name.
* `get?_installAll` — where a name leads after capabilities were installed in order.
* `entry_capabilities` — what is reached of an entry. -/

namespace DataShape

/-! ## Names as keys -/

namespace Value

/-- A value is the same key as a name just if it has the mark of the name. -/
theorem beq_of_mark? {name : Value} {m : Nat × Nat × String} (marked : name.mark? = some m)
    (v : Value) : (v == name) = decide (v.mark? = some m) := by
  cases name <;> simp only [mark?, Option.some.injEq, reduceCtorEq] at marked <;> subst marked <;>
    cases v <;> simp [BEq.beq, sameKey, same, identical, Value.eq, sameHash, mark?, numericEq,
      integral?]

/-- A name is the same key as itself. -/
theorem beq_self_of_mark? {name : Value} (marked : name.mark?.isSome = true) :
    (name == name) = true := by
  obtain ⟨m, mark⟩ := Option.isSome_iff_exists.mp marked
  rw [beq_of_mark? mark, mark, decide_eq_true_iff]

/-- Two names are the same key in either order. -/
theorem beq_comm_of_mark? {a b : Value} (first : a.mark?.isSome = true)
    (second : b.mark?.isSome = true) : (a == b) = (b == a) := by
  obtain ⟨m, mark⟩ := Option.isSome_iff_exists.mp first
  obtain ⟨m', mark'⟩ := Option.isSome_iff_exists.mp second
  rw [beq_of_mark? mark', mark, beq_of_mark? mark, mark', Bool.eq_iff_iff]
  simp [eq_comm]

/-- A name equals in a world what has its mark. -/
theorem equal_of_mark? {name : Value} {m : Nat × Nat × String} (marked : name.mark? = some m)
    (v : Value) (w : World) : w.equal name v = decide (v.mark? = some m) := by
  cases name <;> simp only [mark?, Option.some.injEq, reduceCtorEq] at marked <;> subst marked <;>
    cases v <;> simp [World.equal, World.settled, settledWith, Value.eq, mark?, beq_eq_decide,
      eq_comm]

/-- What has the mark of a text is the text. -/
theorem eq_str_of_mark? {v : Value} {s : String} (marked : v.mark? = some (0, 0, s)) :
    v = .str s := by
  cases v <;> simp_all [mark?]

/-- Two names are equal in a world just if they are the same key. -/
theorem equal_eq_beq {a b : Value} (first : a.mark?.isSome = true)
    (second : b.mark?.isSome = true) (w : World) : w.equal a b = (a == b) := by
  obtain ⟨m, mark⟩ := Option.isSome_iff_exists.mp first
  obtain ⟨m', mark'⟩ := Option.isSome_iff_exists.mp second
  rw [equal_of_mark? mark, beq_of_mark? mark', mark, mark', decide_eq_decide]
  exact eq_comm

end Value

section Table

variable {ν : Type} {t : Table Value ν} {k n : Value}

/-- After a write a name that is the same key leads to what was written. -/
theorem get?_insert_of_same (second : n.mark?.isSome = true) (h : (k == n) = true) (v : ν) :
    (t.insert k v).get? n = some v := by
  obtain ⟨m, mark⟩ := Option.isSome_iff_exists.mp second
  have mark' : k.mark? = some m := by
    rwa [Value.beq_of_mark? mark, decide_eq_true_iff] at h
  induction t with
  | nil => rw [Table.insert_nil, Table.get?_cons, if_pos h]
  | cons e rest ih =>
    rw [Table.insert_cons, Value.beq_of_mark? mark']
    split
    · next same => rw [Table.get?_cons, Value.beq_of_mark? mark, if_pos same]
    · next other => rw [Table.get?_cons, Value.beq_of_mark? mark, if_neg other, ih]

/-- Any other name leads where it did. -/
theorem get?_insert_of_other (first : k.mark?.isSome = true) (second : n.mark?.isSome = true)
    (h : (k == n) = false) (v : ν) : (t.insert k v).get? n = t.get? n := by
  obtain ⟨m, mark⟩ := Option.isSome_iff_exists.mp first
  obtain ⟨m', mark'⟩ := Option.isSome_iff_exists.mp second
  have differ : some m ≠ some m' := by
    rwa [Value.beq_of_mark? mark', mark, decide_eq_false_iff_not] at h
  induction t with
  | nil => rw [Table.insert_nil, Table.get?_cons, if_neg (by rw [h]; decide)]
  | cons e rest ih =>
    rw [Table.insert_cons]
    split
    · next same =>
      rw [Value.beq_of_mark? mark, decide_eq_true_iff] at same
      rw [Table.get?_cons, Table.get?_cons, Value.beq_of_mark? mark', same]
      simp [differ]
    · rw [Table.get?_cons, Table.get?_cons, ih]

end Table

/-! ## Capabilities installed in order -/

/-- A capability whose name can be one. -/
def Capability.Marked (c : Capability) : Prop := c.name.mark?.isSome = true

/-- What is installed last under a name is what the name leads to: by induction on what comes
behind it. -/
theorem get?_installAll (t : CapabilityTable) {c : Capability} (before : List Capability)
    {after : List Capability} (marks : ∀ b ∈ after, b.Marked)
    (last : ∀ b ∈ after, (b.name == c.name) = false) {n : Value} (same : (c.name == n) = true)
    (names : n.mark?.isSome = true) :
    (t.installAll (before ++ c :: after)).get? n = some c.toValue := by
  rw [CapabilityTable.installAll_append, CapabilityTable.installAll_cons]
  have start : ((t.installAll before).install c).get? n = some c.toValue :=
    get?_insert_of_same names same _
  have kept : ∀ u : CapabilityTable, u.get? n = some c.toValue →
      (u.installAll after).get? n = some c.toValue := by
    obtain ⟨m, mark⟩ := Option.isSome_iff_exists.mp names
    rw [Value.beq_of_mark? mark, decide_eq_true_iff] at same
    induction after with
    | nil => exact fun _ found => found
    | cons b rest ih =>
      intro u found
      rw [CapabilityTable.installAll_cons]
      refine ih (fun b' there => marks b' (List.mem_cons_of_mem _ there))
        (fun b' there => last b' (List.mem_cons_of_mem _ there)) _ ?_
      have other := last b List.mem_cons_self
      rw [Value.beq_of_mark? same, ← Value.beq_of_mark? mark] at other
      exact (get?_insert_of_other (marks b List.mem_cons_self) names other _).trans found
  exact kept _ start

/-! ## Names of parts -/

/-- The name under which a part is installed: an explicit one that counts as true, and otherwise
the own name of a function. A container of the engine as explicit name counts as its items say. -/
def Value.IsNamed (explicit part name : Value) : Prop :=
  (explicit.isTrue = true → explicit.isEngineContainer = false → name = explicit) ∧
    (explicit.isTrue = false → ∀ own, part.unwrapped.functionName? = some own → name = .str own)

/-- Where two parts of an entry have equal names, the first name is one for both. -/
theorem Value.IsNamed.of_equal {explicit part other name name' : Value} {w : World}
    (isNamed : explicit.IsNamed part name) (isNamed' : explicit.IsNamed other name')
    (marked : name.mark?.isSome = true) (same : w.equal name name' = true) :
    explicit.IsNamed other name := by
  refine ⟨isNamed.1, fun none own byItself => ?_⟩
  obtain rfl := isNamed'.2 none own byItself
  obtain ⟨m, mark⟩ := Option.isSome_iff_exists.mp marked
  rw [equal_of_mark? mark, decide_eq_true_iff] at same
  obtain rfl := Option.some.inj same
  exact eq_str_of_mark? mark

/-- A name that is given to a part is the explicit one or its own. -/
theorem gives_capabilityName (d : Dispatch) (part explicit : Value) :
    Gives (explicit.IsNamed part) (capabilityName d part explicit) := by
  intro w name w' run
  unfold capabilityName at run
  obtain ⟨given, w₁, counted, run⟩ := exec_bind_eq_ok.mp run
  have plainly : explicit.isEngineContainer = false → given = explicit.isTrue := by
    intro single
    unfold truthOf at counted
    rw [if_neg (by simp [single])] at counted
    exact (exec_pure_eq_ok.mp counted).1.symm
  have filled : explicit.isEngineContainer = true → explicit.isTrue = true := by
    cases explicit <;> simp [Value.isEngineContainer, Value.isTrue]
  cases given with
  | true =>
    obtain ⟨rfl, -⟩ := exec_pure_eq_ok.mp run
    refine ⟨fun _ _ => rfl, fun none => ?_⟩
    cases container : explicit.isEngineContainer with
    | true => exact absurd (none.symm.trans (filled container)) (by decide)
    | false => exact absurd (none.symm.trans (plainly container).symm) (by decide)
  | false =>
    refine ⟨fun some single => absurd ((plainly single).trans some) (by decide),
      fun _ own named => ?_⟩
    have owned : ownName d part.unwrapped = pure (.str own) := by
      unfold ownName
      rw [named]
    simp only [Bool.false_eq_true, if_false, owned, pure_bind] at run
    obtain ⟨counts, w₂, -, run⟩ := exec_bind_eq_ok.mp run
    split at run
    · cases run
    · exact (exec_pure_eq_ok.mp run).1.symm

/-! ## Parts of an entry -/

section Parts

variable {call : Provider} {depth : Nat} {explicit getter setter function : Value}

/-- The accessors of an entry: each part that is there is in one of them under its name, and no two
have the same name. -/
structure IsAccessors (explicit getter setter : Value) (cs : List Capability) : Prop where
  marked : ∀ c ∈ cs, c.Marked
  accessor : ∀ c ∈ cs, c.isAccessor = true
  get : getter.isNull = false → ∃ c ∈ cs, c.getter = getter ∧ explicit.IsNamed getter c.name
  set : setter.isNull = false → ∃ c ∈ cs, c.setter = setter ∧ explicit.IsNamed setter c.name
  distinct : cs.Pairwise fun a b => (a.name == b.name) = false

/-- A single accessor, for one of the parts or for both. -/
theorem gives_singleAccessor {name g s : Value}
    (get : getter.isNull = false → g = getter ∧ explicit.IsNamed getter name)
    (set : setter.isNull = false → s = setter ∧
      (name.mark?.isSome = true → explicit.IsNamed setter name)) :
    Gives (IsAccessors explicit getter setter) (do
      return [← makeCapability (call.dispatch (depth + 1)) name .null g s]) := by
  refine (gives_makeCapability name .null g s).bind fun c ⟨made, marked⟩ => gives_pure ?_
  subst made
  exact ⟨fun c there => List.mem_singleton.mp there ▸ marked,
    fun c there => List.mem_singleton.mp there ▸ rfl,
    fun given => ⟨_, List.mem_singleton.mpr rfl, get given⟩,
    fun given => ⟨_, List.mem_singleton.mpr rfl, (set given).1, (set given).2 marked⟩,
    List.pairwise_singleton _ _⟩

/-- Two parts are in one accessor if their names are equal, and each is in its own one otherwise. -/
theorem gives_pairedAccessors {g s : Value} (isGetter : explicit.IsNamed getter g)
    (isSetter : explicit.IsNamed setter s) :
    Gives (IsAccessors explicit getter setter) (do
      if ← areEqual g s then
        return [← makeCapability (call.dispatch (depth + 1)) g .null getter setter]
      else
        let first ← makeCapability (call.dispatch (depth + 1)) g .null getter .null
        let second ← makeCapability (call.dispatch (depth + 1)) s .null .null setter
        return [first, second]) := by
  intro w cs w' run
  have compared : exec (areEqual g s) w = (.ok (w.equal g s), w) := rfl
  rw [exec_bind_ok compared] at run
  cases same : w.equal g s with
  | true =>
    rw [same, if_pos rfl] at run
    exact gives_singleAccessor (fun _ => ⟨rfl, isGetter⟩)
      (fun _ => ⟨rfl, fun marked => isGetter.of_equal isSetter marked same⟩) w cs w' run
  | false =>
    rw [same, if_neg Bool.false_ne_true] at run
    refine (gives_makeCapability g .null getter .null).bind (fun c ⟨made, marked⟩ =>
      (gives_makeCapability s .null .null setter).bind fun c' ⟨made', marked'⟩ => ?_)
        w cs w' run
    subst made made'
    rw [Value.equal_eq_beq marked marked'] at same
    refine gives_pure ⟨?_, ?_, fun _ => ?_, fun _ => ?_, ?_⟩
    · exact List.forall_mem_cons.mpr ⟨marked, List.forall_mem_singleton.mpr marked'⟩
    · exact List.forall_mem_cons.mpr ⟨rfl, List.forall_mem_singleton.mpr rfl⟩
    · exact ⟨_, List.mem_cons_self, rfl, isGetter⟩
    · exact ⟨_, List.mem_cons_of_mem _ List.mem_cons_self, rfl, isSetter⟩
    · exact List.pairwise_cons.mpr
        ⟨List.forall_mem_singleton.mpr same, List.pairwise_singleton _ _⟩

/-- A part that is there is named before the entry is read further. -/
theorem gives_ofPartName {P : List Capability → Prop} {part : Value}
    {next : Option Value → Action (List Capability)}
    (absent : part.isNull = true → Gives P (next none))
    (given : part.isNull = false → ∀ name, explicit.IsNamed part name →
      Gives P (next (some name))) :
    Gives P (if part.isNull then do
        let name ← pure none
        next name
      else do
        let name ← some <$> capabilityName (call.dispatch (depth + 1)) part explicit
        next name) := by
  cases null : part.isNull with
  | true =>
    rw [if_pos rfl]
    exact absent null
  | false =>
    rw [if_neg Bool.false_ne_true]
    simp only [map_eq_pure_bind, bind_assoc, pure_bind]
    exact (gives_capabilityName _ part explicit).bind (given null)

/-- What is read as the accessors of an entry, by the parts that it has and by their names. -/
theorem gives_accessors (explicit getter setter : Value) :
    Gives (IsAccessors explicit getter setter)
      (entryAccessors (call.dispatch (depth + 1)) explicit getter setter) := by
  have absent : ∀ {v : Value} {Q : Prop}, v.isNull = true → v.isNull = false → Q :=
    fun null given => absurd (null.symm.trans given) (by decide)
  unfold entryAccessors
  refine gives_ofPartName (fun noGetter => ?_) fun _ g isGetter => ?_
  · refine gives_ofPartName (fun noSetter => ?_) fun _ s isSetter => ?_
    · exact gives_pure ⟨nofun, nofun, absent noGetter, absent noSetter, .nil⟩
    · exact gives_singleAccessor (absent noGetter) fun _ => ⟨rfl, fun _ => isSetter⟩
  · refine gives_ofPartName (fun noSetter => ?_) fun _ s isSetter => ?_
    · exact gives_singleAccessor (fun _ => ⟨rfl, isGetter⟩) (absent noSetter)
    · exact gives_pairedAccessors isGetter isSetter

/-- The function capability of an entry: a function that is there can be called and is in it under
its name. -/
structure IsFunction (explicit function : Value) (cs : List Capability) : Prop where
  marked : ∀ c ∈ cs, c.Marked
  called : ∀ c ∈ cs, c.isAccessor = false
  callable : function.isNull = false → function.isCallable = true
  func : function.isNull = false →
    ∃ c ∈ cs, c.function = function ∧ explicit.IsNamed function c.name
  single : cs.length ≤ 1

/-- What is read as the function of an entry. -/
theorem gives_function (explicit function : Value) :
    Gives (IsFunction explicit function)
      (entryFunction (call.dispatch (depth + 1)) explicit function) := by
  unfold entryFunction
  cases null : function.isNull with
  | true =>
    have absent : function.isNull = false → False := fun given =>
      absurd (null.symm.trans given) (by decide)
    rw [if_pos rfl]
    exact gives_pure ⟨nofun, nofun, (absent · |>.elim), (absent · |>.elim), Nat.zero_le _⟩
  | false =>
    rw [if_neg (by decide)]
    cases callable : function.isCallable with
    | false => exact gives_bind fun _ => gives_throw _
    | true =>
      rw [if_neg (by decide)]
      refine (gives_capabilityName _ function explicit).bind fun name isFunction => ?_
      refine (gives_makeCapability name function .null .null).bind fun c ⟨made, marked⟩ =>
        gives_pure ?_
      subst made
      exact ⟨fun c there => List.mem_singleton.mp there ▸ marked,
        fun c there => List.mem_singleton.mp there ▸ null, fun _ => callable,
        fun _ => ⟨_, List.mem_singleton.mpr rfl, rfl, isFunction⟩, Nat.le_refl 1⟩

/-- The capabilities of an entry are its accessors, and behind them its function. -/
theorem gives_capabilities (entries : Entries) :
    Gives (fun reading => ∃ accessors functions,
        reading.capabilities = accessors ++ functions ∧
        IsAccessors (entryPart entries "name") (entryPart entries "get") (entryPart entries "set")
          accessors ∧
        IsFunction (entryPart entries "name") (entryPart entries "func") functions)
      (readMapping (call.dispatch (depth + 1)) entries) := by
  unfold readMapping
  dsimp only
  split
  · split
    · exact gives_throw _
    · exact gives_bind fun _ => gives_throw _
  · refine (gives_accessors _ _ _).bind fun accessors are => ?_
    refine (gives_function _ _).bind fun functions is => ?_
    split
    · exact gives_throw _
    · exact gives_pure ⟨accessors, functions, rfl, are, is⟩

end Parts

/-! ## What is reached -/

/-- An accessor among capabilities that have a function of the same name. -/
def Capability.Overwritten (cs : List Capability) (c : Capability) : Prop :=
  c.isAccessor = true ∧ ∃ b ∈ cs, b.isAccessor = false ∧ (b.name == c.name) = true

/-- The keys under which an entry has its parts, with the places of these in a capability. -/
def entrySlots : List (String × (Capability → Value)) :=
  [("func", Capability.function), ("get", Capability.getter), ("set", Capability.setter)]

section Reached

variable {explicit getter setter function : Value} {accessors functions : List Capability}
  (are : IsAccessors explicit getter setter accessors)
  (is : IsFunction explicit function functions)

include are is

omit are in
/-- A function comes last, and is reached. -/
theorem get?_of_function (accessors : List Capability) (t : CapabilityTable) {c b : Capability}
    (there : b ∈ functions)
    (marked : c.Marked) (same : (b.name == c.name) = true) :
    (t.installAll (accessors ++ functions)).get? c.name = some b.toValue := by
  obtain ⟨only, rfl⟩ := List.length_eq_one_iff.mp
    (Nat.le_antisymm is.single (List.length_pos_of_mem there))
  obtain rfl := List.mem_singleton.mp there
  exact get?_installAll t accessors (fun _ later => absurd later List.not_mem_nil)
    (fun _ later => absurd later List.not_mem_nil) same marked

/-- An accessor is reached if no function has its name. -/
theorem get?_of_accessor (t : CapabilityTable) {c : Capability} (there : c ∈ accessors)
    (free : ∀ b ∈ functions, (b.name == c.name) = false) :
    (t.installAll (accessors ++ functions)).get? c.name = some c.toValue := by
  obtain ⟨before, after, rfl⟩ := List.append_of_mem there
  rw [List.append_assoc, List.cons_append]
  have marked := are.marked c there
  refine get?_installAll t before (fun b later => ?_) (fun b later => ?_)
    (Value.beq_self_of_mark? marked) marked
  · rcases List.mem_append.mp later with h | h
    · exact are.marked b (List.mem_append_right _ (List.mem_cons_of_mem _ h))
    · exact is.marked b h
  · rcases List.mem_append.mp later with h | h
    · have apart := (List.pairwise_cons.mp (List.pairwise_append.mp are.distinct).2.1).1 b h
      rwa [Value.beq_comm_of_mark? marked
        (are.marked b (List.mem_append_right _ (List.mem_cons_of_mem _ h)))] at apart
    · exact free b h

/-- A function of the entry that has the name of a capability, if there is one. -/
theorem overwritten_iff {c : Capability} (there : c ∈ accessors) :
    c.Overwritten (accessors ++ functions) ↔ ∃ b ∈ functions, (b.name == c.name) = true := by
  refine ⟨fun ⟨_, b, inside, called, same⟩ => ?_, fun ⟨b, inside, same⟩ =>
    ⟨are.accessor c there, b, List.mem_append_right _ inside, is.called b inside, same⟩⟩
  rcases List.mem_append.mp inside with h | h
  · exact absurd (called.symm.trans (are.accessor b h)) (by decide)
  · exact ⟨b, h, same⟩

/-- A capability is reached under its name just if it is not overwritten; otherwise its name leads
to the function that overwrites it. -/
theorem get?_capability_iff (t : CapabilityTable) {c : Capability}
    (there : c ∈ accessors ++ functions) :
    ((t.installAll (accessors ++ functions)).get? c.name = some c.toValue ↔
      ¬ c.Overwritten (accessors ++ functions)) ∧
    (c.Overwritten (accessors ++ functions) → ∃ b ∈ functions,
      (t.installAll (accessors ++ functions)).get? c.name = some b.toValue) := by
  rcases List.mem_append.mp there with h | h
  · have marked := are.marked c h
    by_cases lost : ∃ b ∈ functions, (b.name == c.name) = true
    · obtain ⟨b, inside, same⟩ := lost
      have found := get?_of_function is accessors t inside marked same
      refine ⟨iff_of_false (fun kept => ?_) fun free => free ?_, fun _ => ⟨b, inside, found⟩⟩
      · -- the function that overwrites an accessor is another capability
        have equal := congrArg (·.bind Value.capability?) (found.symm.trans kept)
        simp only [Option.bind_some, Capability.capability?_toValue, Option.some.injEq] at equal
        exact absurd ((is.called b inside).symm.trans (equal ▸ are.accessor c h)) (by decide)
      · exact (overwritten_iff are is h).mpr ⟨b, inside, same⟩
    · refine ⟨iff_of_true (get?_of_accessor are is t h fun b inside => ?_)
        (lost ∘ (overwritten_iff are is h).mp), fun eclipsed => ?_⟩
      · exact Bool.eq_false_iff.mpr fun same => lost ⟨b, inside, same⟩
      · exact absurd ((overwritten_iff are is h).mp eclipsed) lost
  · have itself := Value.beq_self_of_mark? (is.marked c h)
    have free : ¬ c.Overwritten (accessors ++ functions) := fun eclipsed =>
      absurd ((is.called c h).symm.trans eclipsed.1) (by decide)
    exact ⟨iff_of_true (get?_of_function is accessors t h (is.marked c h) itself) free,
      fun eclipsed => absurd eclipsed free⟩

/-- The names are different from each other just if no accessor is overwritten. -/
theorem pairwise_names_iff :
    (accessors ++ functions).Pairwise (fun a b => (a.name == b.name) = false) ↔
      ∀ c ∈ accessors ++ functions, ¬ c.Overwritten (accessors ++ functions) := by
  have swap : ∀ a ∈ accessors, ∀ b ∈ functions, (a.name == b.name) = (b.name == a.name) :=
    fun a h b h' => Value.beq_comm_of_mark? (are.marked a h) (is.marked b h')
  have few : functions.Pairwise fun a b => (a.name == b.name) = false := by
    have length := is.single
    match functions with
    | [] => exact .nil
    | [_] => exact List.pairwise_singleton _ _
    | _ :: _ :: _ => simp at length
  rw [List.pairwise_append]
  refine ⟨fun ⟨_, _, cross⟩ c there eclipsed => ?_,
    fun free => ⟨are.distinct, few, fun a h b h' => ?_⟩⟩
  · rcases List.mem_append.mp there with h | h
    · obtain ⟨b, inside, same⟩ := (overwritten_iff are is h).mp eclipsed
      exact absurd ((swap c h b inside).trans same) (by simp [cross c h b inside])
    · exact absurd ((is.called c h).symm.trans eclipsed.1) (by decide)
  · rw [swap a h b h']
    refine Bool.eq_false_iff.mpr fun same => ?_
    exact free a (List.mem_append_left _ h) ((overwritten_iff are is h).mpr ⟨b, h', same⟩)

end Reached

section Explicit

variable (d : Dispatch) (w : World) {n : String} (name : Text.isIdentifier n = true)
  {getter setter : Value} (given : getter.isNull = false ∨ setter.isNull = false)

include name

/-- An explicit name is taken for every part. -/
theorem capabilityName_of_isIdentifier (part : Value) :
    capabilityName d part (.str n) = pure (.str n) := by
  have filled : n.isEmpty = false := by
    cases empty : n.isEmpty with
    | false => rfl
    | true =>
      obtain rfl := String.isEmpty_iff.mp empty
      cases name
  have counts : truthOf d (.str n) = pure true := by
    show (pure (!n.isEmpty) : Action Bool) = _
    rw [filled]
    rfl
  rw [capabilityName, counts]
  rfl

include given

theorem makeCapability_of_isIdentifier :
    makeCapability d (.str n) .null getter setter = pure ⟨.str n, .null, getter, setter⟩ := by
  have none : Value.null.isNull = true := rfl
  rcases given with h | h <;> simp [makeCapability, isCapabilityName, name, none, h]

theorem exec_entryAccessors_of_isIdentifier : exec (entryAccessors d (.str n) getter setter) w
    = (.ok [⟨.str n, .null, getter, setter⟩], w) := by
  have made := makeCapability_of_isIdentifier d name given
  have named := capabilityName_of_isIdentifier d name
  have same : exec (areEqual (.str n) (.str n)) w = (.ok true, w) := by
    show (Except.ok (w.equal (.str n) (.str n)), w) = _
    rw [Value.equal_of_mark? rfl]
    simp [Value.mark?]
  unfold entryAccessors
  cases get : getter.isNull with
  | true =>
    obtain rfl : getter = .null := by cases getter <;> first | rfl | cases get
    have set := given.resolve_left (by decide)
    simp [set, named, made]
  | false =>
    cases set : setter.isNull with
    | true =>
      obtain rfl : setter = .null := by cases setter <;> first | rfl | cases set
      simp [named, made]
    | false =>
      simp only [named, Bool.false_eq_true, if_false, map_pure, pure_bind]
      rw [exec_bind_ok same, if_pos rfl, made]
      rfl

/-- A getter and a setter under an explicit name are read whatever they are. -/
theorem exec_readEntry_accessor :
    exec (readEntry d (.ofFields [("name", .str n), ("get", getter), ("set", setter)])) w
      = (.ok ⟨.missing, [⟨.str n, .null, getter, setter⟩]⟩, w) := by
  show exec
    (readMapping d [(.str "name", .str n), (.str "get", getter), (.str "set", setter)]) w = _
  have known : (Table.keys [(Value.str "name", Value.str n), (.str "get", getter),
      (.str "set", setter)]).filter (fun k => !k.isIn (entryKeys.map .str)) = [] := by rfl
  have function : entryFunction d (.str n) .null = pure [] := rfl
  simp only [readMapping, known, List.isEmpty_nil, Bool.not_true, Bool.false_eq_true, if_false,
    Table.get?_cons, Table.get?_nil, Value.beq_str, String.reduceBEq, if_true, Option.getD_some,
    Option.getD_none]
  rw [exec_bind_ok (exec_entryAccessors_of_isIdentifier d w name given), function]
  rfl

end Explicit

/-- **What is reached of an entry that is read.** Its function can be called; each of its parts is
in a capability under the name that is given to it; installed in order into any table, a capability
is reached under its name just if it is no accessor beside a function of the same name, which is
reached in its place otherwise; and the names are different from each other just if there is no such
accessor. Under an explicit name a getter and a setter are read whatever they are, callable or
not. -/
theorem entry_capabilities (call : Provider) (depth : Nat) (w : World) :
    (∀ (entry : Value) (entries : Entries) (reading : EntryReading) (w' : World),
      w.mapping? entry = some entries →
      exec (readEntry (call.dispatch (depth + 1)) entry) w = (.ok reading, w') →
      ((entryPart entries "func").isNull = false → (entryPart entries "func").isCallable = true) ∧
      (∀ slot ∈ entrySlots, (entryPart entries slot.1).isNull = false →
        ∃ c ∈ reading.capabilities, slot.2 c = entryPart entries slot.1 ∧
          (entryPart entries "name").IsNamed (entryPart entries slot.1) c.name) ∧
      (∀ (t : CapabilityTable), ∀ c ∈ reading.capabilities,
        ((t.installAll reading.capabilities).get? c.name = some c.toValue ↔
          ¬ c.Overwritten reading.capabilities) ∧
        (c.Overwritten reading.capabilities → ∃ b ∈ reading.capabilities, b.isAccessor = false ∧
          (t.installAll reading.capabilities).get? c.name = some b.toValue)) ∧
      (reading.capabilities.Pairwise (fun a b => (a.name == b.name) = false) ↔
        ∀ c ∈ reading.capabilities, ¬ c.Overwritten reading.capabilities)) ∧
    ∀ (n : String) (getter setter : Value), Text.isIdentifier n = true →
      (getter.isNull = false ∨ setter.isNull = false) →
      exec (readEntry (call.dispatch (depth + 1))
          (.ofFields [("name", .str n), ("get", getter), ("set", setter)])) w
        = (.ok ⟨.missing, [⟨.str n, .null, getter, setter⟩]⟩, w) := by
  refine ⟨fun entry entries reading w' mapped accepted => ?_, fun n getter setter name given =>
    exec_readEntry_accessor _ w name given⟩
  have looked : exec (mappingOf? entry) w = (.ok (some entries), w) := by
    rw [← mapped]
    rfl
  unfold readEntry at accepted
  rw [exec_bind_ok looked] at accepted
  obtain ⟨accessors, functions, all, are, is⟩ := gives_capabilities entries w reading w' accepted
  rw [all]
  refine ⟨is.callable, fun slot there given => ?_, fun t c there => ?_, pairwise_names_iff are is⟩
  · simp only [entrySlots, List.mem_cons, List.not_mem_nil, or_false] at there
    rcases there with rfl | rfl | rfl
    · obtain ⟨c, inside, found⟩ := is.func given
      exact ⟨c, List.mem_append_right _ inside, found⟩
    · obtain ⟨c, inside, found⟩ := are.get given
      exact ⟨c, List.mem_append_left _ inside, found⟩
    · obtain ⟨c, inside, found⟩ := are.set given
      exact ⟨c, List.mem_append_left _ inside, found⟩
  · obtain ⟨reached, lost⟩ := get?_capability_iff are is t there
    refine ⟨reached, fun eclipsed => ?_⟩
    obtain ⟨b, inside, found⟩ := lost eclipsed
    exact ⟨b, List.mem_append_right _ inside, is.called b inside, found⟩

/-- A getter, and a function under the same explicit name. -/
def sharedNameEntry : Entries :=
  [(.str "name", .str "x"), (.str "get", .function 1 (some "g") .const [.int 1]),
    (.str "func", .function 2 (some "f") .const [.int 2])]

/-- The two capabilities that it asks for. -/
def sharedNameReading : EntryReading :=
  ⟨.missing, [⟨.str "x", .null, .function 1 (some "g") .const [.int 1], .null⟩,
    ⟨.str "x", .function 2 (some "f") .const [.int 2], .null, .null⟩]⟩

/-- The function can be called and is reached under the name, in the place of the getter, which is
not; and a number is read as a getter. -/
theorem entry_capabilities_overwritten :
    let w := World.empty "" []
    let d := Provider.dispatch callValue 1
    let cs := sharedNameReading.capabilities
    exec (readEntry d (.freshDict sharedNameEntry)) w = (.ok sharedNameReading, w) ∧
    (entryPart sharedNameEntry "func").isCallable = true ∧
    (∃ c ∈ cs, c.getter = entryPart sharedNameEntry "get" ∧
      (CapabilityTable.installAll [] cs).get? c.name ≠ some c.toValue ∧
      ∃ b ∈ cs, b.isAccessor = false ∧
        (CapabilityTable.installAll [] cs).get? c.name = some b.toValue) ∧
    ¬ cs.Pairwise (fun a b => (a.name == b.name) = false) ∧
    exec (readEntry d (.ofFields [("name", .str "x"), ("get", .int 5), ("set", .null)])) w
      = (.ok ⟨.missing, [⟨.str "x", .null, .int 5, .null⟩]⟩, w) := by
  intro w d cs
  obtain ⟨entries, explicit⟩ := entry_capabilities callValue 0 w
  have read : exec (readEntry d (.freshDict sharedNameEntry)) w = (.ok sharedNameReading, w) := rfl
  obtain ⟨called, -, reached, names⟩ := entries _ sharedNameEntry _ w rfl read
  have accessor : (⟨.str "x", .null, .function 1 (some "g") .const [.int 1], .null⟩ : Capability)
      ∈ cs := List.mem_cons_self
  have eclipsed : Capability.Overwritten cs
      ⟨.str "x", .null, .function 1 (some "g") .const [.int 1], .null⟩ :=
    ⟨rfl, _, List.mem_cons_of_mem _ List.mem_cons_self, rfl, by simp⟩
  obtain ⟨kept, lost⟩ := reached [] _ accessor
  exact ⟨read, called rfl, ⟨_, accessor, rfl, fun same => kept.mp same eclipsed, lost eclipsed⟩,
    fun apart => names.mp apart _ accessor eclipsed,
    explicit "x" (.int 5) .null (by decide) (.inl rfl)⟩

end DataShape
