import DataShape.Member.Method
import DataShape.Proofs.Registry.Definition
import DataShape.Proofs.Registry.Invariant

/-! # Members of the nearest type

A name that no type has a member of is searched along the base chain of a type. The nearest type
that has a capability or an attribute of the name decides what it leads to: the capability that was
installed there last, or else the value that was merged last. A value that is missing leads nowhere,
and hides what types further up have.

* `MemberRun` — runs of definitions and installations, each with its journal.
* `membersRun_afterOperations` — every sequence of operations is such a run.
* `World.bearer?`, `resolved` — the nearest type, and what its journal has last.
* `World.Resolves` — what reading, looking up, invoking and setting a member come to.
* `member_resolution` — they all come to what the journal of the nearest type has last. -/

namespace DataShape

/-! ## Runs with their journals -/

namespace World

/-- A step leaves all types of a tidy world as they are. -/
def Aside (w w' : World) : Prop := w.Tidy → w'.Tidy ∧ w'.types = w.types

theorem Resembles.aside {w w' : World} (h : w.Resembles w') : w.Aside w' :=
  fun tidy => ⟨h.tidy tidy, h.types⟩

/-- What is installed on a type that does not exist is installed nowhere. -/
theorem installing_outside {w : World} {t : Nat} (outside : ¬ t < w.types.size)
    (cs : List Capability) : w.installing (.type t) cs = w := by
  have still : ∀ f : TypeNode → TypeNode, w.types.modify t f = w.types := by
    intro f
    refine Array.ext Array.size_modify fun i _ there => ?_
    rw [Array.getElem_modify, if_neg (by omega)]
  rw [installing, changeTable, modifyType, still]

/-- What the objects of a registry share is no type's. -/
theorem aside_installing_shared (w : World) (r : Nat) (target : Target) (cs : List Capability) :
    w.Aside (w.installing (sharedTable r target) cs) := by
  intro tidy
  have types : (w.installing (sharedTable r target) cs).types = w.types := by
    cases target <;> rfl
  refine ⟨⟨tidy.plain.installing _ _, (w.sharedParts_changeTable _ _).trans tidy.unshared,
    fun r' e there => ?_⟩, types⟩
  rw [installing, (w.untouched_changeTable _ _).registered] at there
  rw [types]
  exact tidy.known r' e there

end World

/-- Runs of definitions of types and of installations on types, each with its journal. Between them
are steps that leave all types as they are. -/
inductive MemberRun (call : Provider) : List Update → World → World → Prop where
  | aside {w w' : World} (h : w.Aside w') : MemberRun call [] w w'
  | trans {u v w : World} {journal journal' : List Update} (first : MemberRun call journal u v)
      (second : MemberRun call journal' v w) : MemberRun call (journal ++ journal') u w
  | define {depth r t : Nat} {definition : TypeDefinition} {w w' : World}
      (run : exec (defineType (call.dispatch (depth + 1)) r definition) w = (.ok t, w')) :
      MemberRun call (definition.updates t w w') w w'
  | install {depth t : Nat} {c : Capability} {w w' : World} (inside : t < w.types.size)
      (run : exec (giveCapability (call.dispatch (depth + 1)) t c) w = (.ok ⟨⟩, w')) :
      MemberRun call [.install t c] w w'

/-- Two worlds with a run between them. -/
def MembersRun (call : Provider) (w w' : World) : Prop := ∃ journal, MemberRun call journal w w'

namespace MembersRun

variable {call : Provider}

theorem of_aside {w w' : World} (h : w.Aside w') : MembersRun call w w' := ⟨[], .aside h⟩

theorem of_resembles {w w' : World} (h : w.Resembles w') : MembersRun call w w' :=
  of_aside h.aside

instance lists : Frame.Lists (MembersRun call) where
  refl w := of_resembles (.refl w)
  trans := fun ⟨_, first⟩ ⟨_, second⟩ => ⟨_, first.trans second⟩
  log w l := of_resembles ((World.Resembles.refl w).logged l)
  identity w n := of_resembles ((World.Resembles.refl w).identity n)
  keep w s p names := of_resembles (.of_relisted (w.relisted_keep s p names))
  foreign w s share lists held := of_aside fun tidy => by
    rw [tidy.plain.storedOn] at held
    exact absurd rfl held

end MembersRun

section Runs

variable {call : Provider} {depth : Nat}

instance along_defineType_members (r : Nat) (definition : TypeDefinition) :
    Along (MembersRun call) (defineType (call.dispatch (depth + 1)) r definition) where
  out w := by
    by_cases tidy : w.Tidy
    · rcases amends_defineType call depth (r := r) tidy definition
        with ⟨t, w', run, -⟩ | ⟨e, w', run, resembles⟩
      · rw [run]
        exact ⟨_, .define run⟩
      · rw [run]
        exact .of_resembles resembles
    · exact .of_aside fun h => absurd h tidy

instance along_giveCapability_members (t : Nat) (c : Capability) :
    Along (MembersRun call) (giveCapability (call.dispatch (depth + 1)) t c) where
  out w := by
    by_cases tidy : w.Tidy
    · cases keyed : c.name.hashable with
      | true =>
        have run := exec_giveCapability call depth tidy.plain t keyed
        by_cases inside : t < w.types.size
        · rw [run]
          exact ⟨_, .install inside run⟩
        · rw [run, World.installing_outside inside]
          exact .of_resembles (.refl w)
      | false =>
        rw [exec_giveCapability_refused _ _ tidy.plain t keyed]
        exact .of_resembles (.refl w)
    · exact .of_aside fun h => absurd h tidy

instance along_installShared_members (r : Nat) (target : Target) (c : Capability) :
    Along (MembersRun call) (installShared (call.dispatch (depth + 1)) r target c) where
  out w := by
    have recorded : Along World.Idle (do
        let name ← textOf (call.dispatch (depth + 1)) c.name
        writeLog .registry .debug s!"Installed {target.name} capability: {name}") := inferInstance
    rw [exec_installShared]
    refine Frame.trans (.of_aside (w.aside_installing_shared r target [c]))
      (.of_aside fun tidy => ?_)
    exact (recorded.out _ tidy.plain).aside tidy

/-- **Every sequence of operations is a run**, if the functions that are called in its course do
runs. -/
theorem membersRun_afterOperations (user : call.Within (MembersRun call)) (depth : Nat)
    (operations : List (Nat × RegistryOperation)) (w : World) :
    MembersRun call w (afterOperations (call.dispatch (depth + 1)) operations w) := by
  have within := Provider.dispatch_within user (depth + 1)
  exact follows_afterOperations (fun registry operation => along_perform registry operation)
    operations w

/-- By induction on the run: under a text a type has what the journal has last for it there, or else
what it had before. -/
theorem MemberRun.updated {journal : List Update} {w w' : World}
    (run : MemberRun call journal w w') (tidy : w.Tidy) : w.Updated journal w' := by
  induction run with
  | aside h => exact .of_types (h tidy).1 (h tidy).2
  | trans _ _ first second => exact (first tidy).append (second (first tidy).tidy)
  | define run =>
    rcases amends_defineType _ _ tidy _ with ⟨t, w', run', updated⟩ | ⟨e, w', run', -⟩
    · obtain ⟨same, rfl⟩ := Prod.mk.inj (run.symm.trans run')
      obtain rfl := Except.ok.inj same
      exact updated
    · cases run.symm.trans run'
  | @install depth t c w w' inside run =>
    cases keyed : c.name.hashable with
    | true =>
      rw [exec_giveCapability _ _ tidy.plain t keyed] at run
      obtain ⟨-, rfl⟩ := Prod.mk.inj run
      exact World.updated_installing tidy inside c
    | false =>
      rw [exec_giveCapability_refused _ _ tidy.plain t keyed] at run
      cases run

end Runs

/-! ## What a name leads to -/

/-- A name that types have no member of, and that is not private. -/
structure DynamicName (n : String) : Prop where
  isPublic : isPrivateName n = false
  computed : ∀ d t, typeComputed? d t n = none
  provided : ∀ t, (Value.type t).provides n = false

/-- A type has a capability or an attribute of its own under a name. -/
def World.bears (w : World) (n : String) (t : Nat) : Bool :=
  (Table.get? (w.type t).capabilities (.str n)).isSome ||
    (Table.get? (w.type t).attributes (.str n)).isSome

/-- The nearest type in the lineage of a type that has a capability or an attribute of its own under
a name. -/
def World.bearer? (w : World) (n : String) (t : Nat) : Option Nat :=
  (w.lineage t).find? (w.bears n)

/-- What a name leads to. -/
inductive Resolved where
  | capability (c : Capability)
  | value (v : Value)
  | absent

/-- What the journal has last under a name on the nearest type: a capability that was installed
there, or else a value that was merged there, unless it is missing. -/
def resolved (journal : List Update) (n : String) : Option Nat → Resolved
  | none => .absent
  | some m => match latest (Update.capabilityFor m n) journal with
    | some c => .capability c
    | none => match (latest (Update.attributeFor m n) journal).getD .missing with
      | .missing => .absent
      | v => .value v

/-- What a name leads to, as a value. -/
def Resolved.toValue : Resolved → Value
  | .capability c => c.toValue
  | .value v => v
  | .absent => .missing

/-- The capability that a name leads to, as a value. -/
def Resolved.capabilityOrNull : Resolved → Value
  | .capability c => c.toValue
  | _ => .null

/-- What a journal has last is one of its changes. -/
theorem exists_of_latest {α : Type} {given : Update → Option α} {journal : List Update} {x : α}
    (h : latest given journal = some x) : ∃ u ∈ journal, given u = some x :=
  List.mem_filterMap.mp (List.mem_of_getLast? h)

/-- A value that a name leads to is not missing, and no capability where none is merged. -/
theorem of_resolved_eq_value {journal : List Update} {n : String} {m : Option Nat} {v : Value}
    (values : ∀ t key v, Update.merge t key v ∈ journal → v.capability? = none)
    (h : resolved journal n m = .value v) : v ≠ .missing ∧ v.capability? = none := by
  unfold resolved at h
  split at h
  · cases h
  · next m =>
    split at h
    · cases h
    · split at h
      · cases h
      · next present =>
        obtain rfl := Resolved.value.inj h
        refine ⟨present, ?_⟩
        cases merged : latest (Update.attributeFor m n) journal with
        | none => rw [merged] at present; exact absurd rfl present
        | some v =>
          obtain ⟨update, there, given⟩ := exists_of_latest merged
          cases update with
          | install type c => cases given
          | merge type key value =>
            rw [Update.attributeFor] at given
            split at given
            · obtain rfl := Option.some.inj given
              exact values type key value there
            · cases given

namespace World

/-- Values were set on types themselves, under names that types have no member of. -/
structure Assigned (w u : World) : Prop where
  size : u.types.size = w.types.size
  type : ∀ i, { u.type i with stored := (w.type i).stored } = w.type i
  stored : ∀ i name, ¬ DynamicName name → (u.type i).stored.get? name = none

theorem Assigned.capabilities {w u : World} (h : w.Assigned u) (i : Nat) :
    (u.type i).capabilities = (w.type i).capabilities := by
  have same := congrArg TypeNode.capabilities (h.type i)
  exact same

theorem Assigned.attributes {w u : World} (h : w.Assigned u) (i : Nat) :
    (u.type i).attributes = (w.type i).attributes := by
  have same := congrArg TypeNode.attributes (h.type i)
  exact same

/-- A search along a chain ends at the first type that has something of its own. -/
theorem memberAlong?_eq (w : World) (chain : List Nat) (n : String) :
    w.memberAlong? chain (.str n)
      = (chain.find? (w.bears n)).bind fun m => (w.type m).ownMember? (.str n) := by
  have bears : ∀ m, w.bears n m = ((w.type m).ownMember? (.str n)).isSome := by
    intro m
    unfold World.bears TypeNode.ownMember?
    cases Table.get? (w.type m).capabilities (.str n) <;> rfl
  unfold memberAlong?
  induction chain with
  | nil => rfl
  | cons m rest ih =>
    rw [List.findSome?_cons, List.find?_cons, bears]
    cases own : (w.type m).ownMember? (.str n) with
    | some v => exact own.symm
    | none => exact ih

/-- Along every lineage a name leads to what the journal has last. -/
theorem Updated.memberAlong? {w₀ w u : World} {journal : List Update} (empty : w₀.types = #[])
    (updated : w₀.Updated journal w) (assigned : w.Assigned u) (n : String) (t : Nat) :
    (u.memberAlong? (u.lineage t) (.str n)).getD .missing
      = (resolved journal n (u.bearer? n t)).toValue := by
  have bare : ∀ i, w₀.type i = default := by
    intro i
    rw [World.type, empty]
    rfl
  rw [memberAlong?_eq]
  show ((u.bearer? n t).bind _).getD _ = _
  cases u.bearer? n t with
  | none => rfl
  | some m =>
    have capabilities := updated.capabilities m n
    have attributes := updated.attributes m n
    rw [bare] at capabilities attributes
    rw [Option.bind_some, TypeNode.ownMember?, assigned.capabilities, assigned.attributes,
      capabilities, attributes, resolved]
    cases latest (Update.capabilityFor m n) journal with
    | some c => rfl
    | none => cases latest (Update.attributeFor m n) journal with
      | none => rfl
      | some v => cases v <;> rfl

end World

/-! ## What the members of a type come to -/

/-- The engine takes its own way where nothing stands in for it on a type. -/
theorem exec_orStandIn_own {α : Type} {w : World} {t : Nat} {name : String}
    (own : (w.type t).stored.get? name = none) (d : Dispatch) (arguments : List Value)
    (read : Value → Action α) (a : Action α) :
    exec (orStandIn d (.type t) name arguments read a) w = exec a w := by
  have looked : exec (standIn? (.type t) name) w = (.ok none, w) := by
    rw [← own]
    rfl
  unfold orStandIn
  rw [exec_bind_ok looked]

theorem not_dynamicName_of_private {n : String} (h : isPrivateName n = true) : ¬ DynamicName n :=
  fun dynamic => absurd (h.symm.trans dynamic.isPublic) nofun

theorem DynamicName.ne_private {n : String} (dynamic : DynamicName n) (m : String)
    (h : isPrivateName m = true) : n ≠ m :=
  fun same => not_dynamicName_of_private h (same ▸ dynamic)

theorem not_dynamicName_of_provided {n : String} (h : (Value.type 0).provides n = true) :
    ¬ DynamicName n :=
  fun dynamic => absurd (h.symm.trans (dynamic.provided 0)) nofun

/-- How a type reports a name that leads nowhere. -/
def World.absence (u : World) (t : Nat) (n : String) : Fault :=
  .notImplemented (.str n) n (.str (u.type t).name) (u.type t).name

namespace Resolved

/-- To read on a host what a name leads to: a capability is read with the host as its receiver. -/
def readOn (d : Dispatch) (host : Value) (absence : Fault) : Resolved → Action Value
  | .capability c => c.read d host
  | .value v => pure v
  | .absent => throw absence

/-- To invoke on a host what a name leads to: only a function can be called. -/
def invokeOn (d : Dispatch) (host : Value) (absence : Fault) (arguments : List Value)
    (named : List (String × Value)) : Resolved → Action Value
  | .capability c =>
      if c.isAccessor then throw absence
      else do d.call (← c.bind d host) arguments named
  | _ => throw absence

/-- To set on a host what a name leads to: an accessor is written, and anything else gives way to
the value on the host itself. -/
def writeOn (d : Dispatch) (host : Value) (n : String) (value : Value) : Resolved → Action Unit
  | .capability c => if c.isAccessor then c.write d host value else storeOn host n value
  | _ => storeOn host n value

end Resolved

/-- A capability that a host finds is bound and called, or reported if it has no function. -/
theorem Capability.exec_invokeOn (c : Capability) (d : Dispatch) {host name : Value}
    {absence : Fault} {u : World} (arguments : List Value) (named : List (String × Value))
    (missing : exec (capabilityMissing d host name : Action Value) u = (.error absence, u)) :
    exec (do
      match ← boundFunction d host c.toValue with
      | some f => d.call f arguments named
      | none => capabilityMissing d host name) u
      = exec ((Resolved.capability c).invokeOn d host absence arguments named) u := by
  unfold boundFunction Capability.toValue Resolved.invokeOn
  dsimp only
  cases accessor : c.isAccessor with
  | true =>
    have function : c.function.isNull = true := accessor
    rw [if_pos rfl, if_pos function]
    exact missing
  | false =>
    have function : c.function.isNull = false := accessor
    rw [function, if_neg Bool.false_ne_true, if_neg Bool.false_ne_true, map_eq_pure_bind,
      bind_assoc]
    rfl

/-- A name that was not set on a type leads along its lineage to a value or a capability. -/
structure World.Leads (u : World) (t : Nat) (n : String) (found : Resolved) : Prop where
  dynamic : DynamicName n
  unset : (u.type t).stored.get? n = none
  stored : ∀ i name, ¬ DynamicName name → (u.type i).stored.get? name = none
  member : (u.memberAlong? (u.lineage t) (.str n)).getD .missing = found.toValue
  value : ∀ v, found = .value v → v ≠ .missing ∧ v.capability? = none

namespace World.Leads

variable {u : World} {t : Nat} {n : String} {found : Resolved} (leads : u.Leads t n found)
  (d : Dispatch)

include leads

theorem stored_private (i : Nat) (name : String) (h : isPrivateName name = true) :
    (u.type i).stored.get? name = none :=
  leads.stored i name (not_dynamicName_of_private h)

theorem stored_provided (i : Nat) (name : String) (h : (Value.type 0).provides name = true) :
    (u.type i).stored.get? name = none :=
  leads.stored i name (not_dynamicName_of_provided h)

theorem exec_findMember : exec (findMember d (.type t) (.str n)) u = (.ok found.toValue, u) := by
  have chain : u.isPlainChain t = true := by
    refine List.all_eq_true.mpr fun i _ => ?_
    simp [looseParts, leads.stored_private i "_base_type" rfl,
      leads.stored_private i "_attributes" rfl, leads.stored_private i "_capabilities" rfl]
  have searched : exec (searchLineage d t (nodeMember? d (.str n)) (·.memberAlong? · (.str n))) u
      = (.ok (u.memberAlong? (u.lineage t) (.str n)), u) := by
    unfold searchLineage
    rw [exec_orStandIn_own (leads.stored_provided t "lineage" rfl), exec_bind_ok (exec_get u),
      if_pos chain]
    rfl
  unfold findMember
  rw [exec_orStandIn_own (leads.stored_private t "_find_member" rfl)]
  show exec (typeMember d t (.str n)) u = _
  unfold typeMember
  rw [← leads.member]
  exact exec_bind_ok searched _

theorem exec_capabilityMissing {α : Type} :
    exec (capabilityMissing d (.type t) (.str n) : Action α) u
      = (.error (u.absence t n), u) := by
  have named : exec (hostName d (.type t)) u = (.ok (.str (u.type t).name), u) := by
    unfold hostName
    rw [exec_orStandIn_own (leads.stored_private t "_dispatch_name" rfl)]
    show (Except.ok (u.typeName t), u) = _
    rw [typeName, leads.stored_private t "_name" rfl]
    rfl
  unfold capabilityMissing
  rw [exec_bind_ok named, textOf_str, textOf_str]
  rfl

theorem exec_capabilityOn :
    exec (capabilityOn d (.type t) (.str n)) u = (.ok found.capabilityOrNull, u) := by
  unfold capabilityOn
  rw [exec_orStandIn_own (leads.stored_provided t "get_capability" rfl)]
  unfold ownCapability
  rw [exec_bind_ok (leads.exec_findMember d)]
  cases found with
  | capability c => rfl
  | value v =>
    have plain := (leads.value v rfl).2
    simp [Resolved.toValue, Resolved.capabilityOrNull, plain]
  | absent => rfl

theorem exec_dynamicMember : exec (dynamicMember d (.type t) n) u
    = exec (found.readOn d (.type t) (u.absence t n)) u := by
  unfold dynamicMember
  rw [leads.dynamic.isPublic]
  show exec (findMember d (.type t) (.str n) >>= _) u = _
  rw [exec_bind_ok (leads.exec_findMember d)]
  cases found with
  | capability c => rfl
  | value v =>
    obtain ⟨present, plain⟩ := leads.value v rfl
    simp [Resolved.toValue, Resolved.readOn, plain]
  | absent => exact leads.exec_capabilityMissing d

/-- A private part has a private name. -/
theorem partNamed? : u.partNamed? (.type t) n = none := by
  show u.typePart? t n = none
  unfold typePart?
  split <;> first | rfl | exact absurd leads.dynamic.isPublic (by decide)

theorem exec_readMember : exec (readMember d (.type t) n) u
    = exec (found.readOn d (.type t) (u.absence t n)) u := by
  have held : u.heldUnder? (.type t) n = none := by
    have other : (n == "__dict__") = false :=
      beq_eq_false_iff_ne.mpr (leads.dynamic.ne_private "__dict__" rfl)
    have unset : (u.storedOn (.type t)).get? n = none := leads.unset
    rw [heldUnder?, other, unset, leads.partNamed?]
    rfl
  have computed : computedMember? d (.type t) n = none := leads.dynamic.computed d t
  unfold readMember
  rw [computed]
  show exec (plainMember d (.type t) n) u = _
  unfold plainMember
  rw [exec_bind_ok (exec_get u), held, leads.dynamic.provided t]
  exact leads.exec_dynamicMember d

theorem exec_invokeOwn (arguments : List Value) (named : List (String × Value)) :
    exec (invokeOwn d (.type t) (.str n) arguments named) u
      = exec (found.invokeOn d (.type t) (u.absence t n) arguments named) u := by
  unfold invokeOwn
  rw [exec_bind_ok (leads.exec_capabilityOn d)]
  cases found with
  | capability c => exact c.exec_invokeOn d arguments named (leads.exec_capabilityMissing d)
  | value v => exact leads.exec_capabilityMissing d
  | absent => exact leads.exec_capabilityMissing d

theorem exec_assignOn (value : Value) :
    exec (assignOn d (.type t) n value) u = exec (storeOn (.type t) n value) u := by
  have reserved : reservedNames.contains n = false := by
    simp [reservedNames, leads.dynamic.ne_private "__class__" rfl,
      leads.dynamic.ne_private "__dict__" rfl]
  have other : (n == "__weakref__") = false :=
    beq_eq_false_iff_ne.mpr (leads.dynamic.ne_private "__weakref__" rfl)
  have computed : computedMember? d (.type t) n = none := leads.dynamic.computed d t
  have part : u.withPart? (.type t) n value = none := by
    have none' : u.typeWithPart? n value (u.type t) = none := by
      unfold typeWithPart?
      split <;> first | rfl | exact absurd leads.dynamic.isPublic (by decide)
    show ((u.typeWithPart? n value (u.type t)).map _).map _ = none
    rw [none']
    rfl
  unfold assignOn
  rw [reserved, other, computed]
  show exec (get >>= _) u = _
  rw [exec_bind_ok (exec_get u), part]

theorem exec_setMember (value : Value) : exec (setMember d (.type t) n value) u
    = exec (found.writeOn d (.type t) n value) u := by
  unfold setMember
  dsimp only
  rw [leads.dynamic.isPublic, if_neg Bool.false_ne_true, exec_bind_ok (leads.exec_capabilityOn d)]
  cases found with
  | capability c =>
    unfold Resolved.capabilityOrNull writeAccessor Capability.toValue Resolved.writeOn
    dsimp only
    cases accessor : c.isAccessor with
    | true =>
      show exec ((c.write d (.type t) value >>= fun _ => pure true) >>= _) u = _
      rw [bind_assoc, if_pos rfl]
      exact congrArg (exec · u) bind_pure_unit
    | false => exact leads.exec_assignOn d value
  | value v => exact leads.exec_assignOn d value
  | absent => exact leads.exec_assignOn d value

end World.Leads

/-- Looking a name without a dot up gives what reading it gives, and the default for what is missing
or not there. -/
theorem exec_lookup {n : String} (dotless : '.' ∉ n.toList) (d : Dispatch) (t : Nat)
    (fallback : Value) (w : World) :
    exec (callMethod d (.type t) "lookup" [.str n, fallback] []) w
      = match exec (d.member (.type t) n) w with
        | (.ok v, w') => (.ok (if v.isMissing then fallback else v), w')
        | (.error e, w') => (if e.isAbsence then .ok fallback else .error e, w') := by
  -- A path without a dot is one key, which is read as a member and not followed further.
  have whole : Text.splitText '.' n = [n] := by
    rw [Text.splitText, Text.splitChars_of_notMem dotless]
    simp
  have followed : exec (callMethod d (.type t) "lookup" [.str n, fallback] []) w = exec (do
      let value ← memberOrMissing d (.type t) n
      if value.isMissing then return fallback else return value) w := by
    show exec (followKeys d fallback (.type t) ((Text.splitText '.' n).map .str)) w = _
    rw [whole]
    rfl
  have missing : exec (do if Value.isMissing .missing then return fallback else return .missing :
      Action Value) w = (.ok fallback, w) := rfl
  rw [followed]
  unfold memberOrMissing
  rcases run : exec (d.member (.type t) n) w with ⟨e | v, w'⟩ <;> dsimp only
  · cases absent : e.isAbsence with
    | true =>
      rw [exec_bind_ok ((exec_orElseOn_error run absent _).trans rfl)]
      rfl
    | false =>
      rw [exec_bind_error (exec_orElseOn_throw run absent _)]
      rfl
  · rw [exec_bind_ok (exec_orElseOn_ok run _ _)]
    cases v.isMissing <;> rfl

/-- Every use of a member of a type comes to what its name leads to, with the type itself as the
receiver of capabilities. -/
structure World.Resolves (call : Provider) (depth : Nat) (u : World) (t : Nat) (n : String)
    (found : Resolved) : Prop where
  read : exec ((call.dispatch (depth + 1)).member (.type t) n) u
    = exec (found.readOn (call.dispatch depth) (.type t) (u.absence t n)) u
  /-- To look up gives what reading gives, or the default where that is missing or not there. -/
  lookup : ∀ fallback,
    exec (callMethod (call.dispatch (depth + 1)) (.type t) "lookup" [.str n, fallback] []) u
      = match exec ((call.dispatch (depth + 1)).member (.type t) n) u with
        | (.ok v, u') => (.ok (if v.isMissing then fallback else v), u')
        | (.error e, u') => (if e.isAbsence then .ok fallback else .error e, u')
  invoke : ∀ arguments named,
    exec (invokeOwn (call.dispatch depth) (.type t) (.str n) arguments named) u
      = exec (found.invokeOn (call.dispatch depth) (.type t) (u.absence t n) arguments named) u
  write : ∀ value, exec (setMember (call.dispatch depth) (.type t) n value) u
    = exec (found.writeOn (call.dispatch depth) (.type t) n value) u

theorem World.Leads.resolves {u : World} {t : Nat} {n : String} {found : Resolved}
    (leads : u.Leads t n found) (dotless : '.' ∉ n.toList) (call : Provider) (depth : Nat) :
    u.Resolves call depth t n found where
  read := leads.exec_readMember _
  lookup fallback := exec_lookup dotless _ t fallback u
  invoke := leads.exec_invokeOwn _
  write := leads.exec_setMember _

/-- **The nearest type decides.** Every sequence of operations is a run with a journal, if the
functions that are called in its course do such runs. After any run, and after values were set on
types under other names, a name that a type does not have itself leads to what the journal has last
on the nearest type of its lineage that has anything under the name. -/
theorem member_resolution {call : Provider} {w₀ : World} (tidy : w₀.Tidy)
    (empty : w₀.types = #[]) :
    (call.Within (MembersRun call) → ∀ depth operations,
      MembersRun call w₀ (afterOperations (call.dispatch (depth + 1)) operations w₀)) ∧
    ∀ journal w, MemberRun call journal w₀ w →
      (∀ t key v, Update.merge t key v ∈ journal → v.capability? = none) →
      ∀ u, w.Assigned u → ∀ t n, DynamicName n → '.' ∉ n.toList →
        (u.type t).stored.get? n = none → ∀ depth,
          u.Resolves call depth t n (resolved journal n (u.bearer? n t)) := by
  refine ⟨fun user depth operations => membersRun_afterOperations user depth operations w₀, ?_⟩
  intro journal w run values u assigned t n dynamic dotless unset depth
  have leads : u.Leads t n (resolved journal n (u.bearer? n t)) := {
    dynamic := dynamic
    unset := unset
    stored := assigned.stored
    member := (run.updated tidy).memberAlong? empty assigned n t
    value := fun v found => of_resolved_eq_value values found }
  exact leads.resolves dotless call depth

/-- A provider whose functions give their arguments back. -/
def echoing : Provider := fun _ _ arguments _ => pure (.tuple arguments)

theorem World.withRegistry_tidy : World.withRegistry.Tidy := by
  refine ⟨.of_no_objects rfl rfl rfl, rfl, fun r e there => ?_⟩
  have none' : (World.withRegistry.registry r).types = [] := by
    cases r <;> rfl
  rw [none'] at there
  cases there

/-- A type with two attributes. -/
def colorDefinition : TypeDefinition :=
  ⟨.str "Color", .ofFields [("shade", .str "red"), ("depth", .int 8)], .null, .null, .null⟩

/-- A type derived from it, of which a shade is missing. -/
def lightDefinition : TypeDefinition :=
  ⟨.str "Light", .ofFields [("shade", .missing)], .str "Color", .null, .null⟩

/-- An accessor without a setter. -/
def depthAccessor : Capability := ⟨.str "depth", .null, .function 1 none .spawn [], .null⟩

/-- The first type is defined. -/
def World.withColor : World :=
  (exec (defineType (echoing.dispatch 3) 0 colorDefinition) .withRegistry).2

/-- The second type is defined. -/
def World.withLight : World :=
  (exec (defineType (echoing.dispatch 3) 0 lightDefinition) .withColor).2

/-- The accessor is installed on the first type. -/
def World.withDepth : World :=
  (exec (giveCapability (echoing.dispatch 3) 0 depthAccessor) .withLight).2

theorem withDepth_run : MemberRun echoing
    (colorDefinition.updates 0 .withRegistry .withColor ++
      (lightDefinition.updates 1 .withColor .withLight ++ [.install 0 depthAccessor]))
    .withRegistry .withDepth := by
  have first : exec (defineType (echoing.dispatch 3) 0 colorDefinition) .withRegistry
      = (.ok 0, .withColor) := Prod.ext (by with_unfolding_all rfl) rfl
  have second : exec (defineType (echoing.dispatch 3) 0 lightDefinition) .withColor
      = (.ok 1, .withLight) := Prod.ext (by with_unfolding_all rfl) rfl
  have third : exec (giveCapability (echoing.dispatch 3) 0 depthAccessor) .withLight
      = (.ok ⟨⟩, .withDepth) := Prod.ext (by with_unfolding_all rfl) rfl
  exact (MemberRun.define first).trans ((MemberRun.define second).trans
    (.install (by decide +kernel) third))

/-- The accessor is installed on the base, where it hides an attribute, and is read with the derived
type as its receiver; what is missing of the derived type hides what the base has. -/
theorem member_resolution_light :
    let d := echoing.dispatch 3
    let w := World.withDepth
    echoing.Within (MembersRun echoing) ∧ World.withRegistry.Tidy ∧ World.withRegistry.types = #[] ∧
    MembersRun echoing .withRegistry w ∧ DynamicName "shade" ∧ DynamicName "depth" ∧
    exec (d.member (.type 0) "shade") w = (.ok (.str "red"), w) ∧
    exec (d.member (.type 1) "depth") w = (.ok (.tuple [.type 1]), w) ∧
    exec (d.member (.type 1) "shade") w
      = (.error (.notImplemented (.str "shade") "shade" (.str "Light") "Light"), w) := by
  have user : echoing.Within (MembersRun echoing) := fun _ _ _ _ _ => along_pure _
  have tidy := World.withRegistry_tidy
  have shade : DynamicName "shade" := ⟨rfl, fun _ _ => rfl, fun _ => rfl⟩
  have depth : DynamicName "depth" := ⟨rfl, fun _ _ => rfl, fun _ => rfl⟩
  have values : ∀ t key v, Update.merge t key v ∈ [.merge 0 (.str "shade") (.str "red"),
      .merge 0 (.str "depth") (.int 8), .merge 1 (.str "shade") .missing,
      .install 0 depthAccessor] → v.capability? = none := by
    intro t key v there
    simp only [List.mem_cons, Update.merge.injEq, reduceCtorEq, List.not_mem_nil, or_false] at there
    rcases there with ⟨-, -, rfl⟩ | ⟨-, -, rfl⟩ | ⟨-, -, rfl⟩ <;> rfl
  have plain : World.withDepth.Plain := (withDepth_run.updated tidy).tidy.plain
  have assigned : World.withDepth.Assigned World.withDepth :=
    ⟨rfl, fun _ => rfl, fun i name _ => by rw [plain.types]; rfl⟩
  have resolves : ∀ t n, DynamicName n → '.' ∉ n.toList →
      World.withDepth.Resolves echoing 2 t n _ :=
    fun t n dynamic dotless =>
      (member_resolution tidy rfl).2 _ _ withDepth_run values _ assigned t n
      dynamic dotless (by rw [plain.types]; rfl) 2
  refine ⟨user, tidy, rfl, ⟨_, withDepth_run⟩, shade, depth,
    (resolves 0 "shade" shade (by decide)).read.trans ?_,
    (resolves 1 "depth" depth (by decide)).read.trans ?_,
    (resolves 1 "shade" shade (by decide)).read.trans ?_⟩
  · with_unfolding_all rfl
  · with_unfolding_all rfl
  · with_unfolding_all rfl

end DataShape
