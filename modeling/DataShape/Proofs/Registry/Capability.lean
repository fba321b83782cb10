import DataShape.Proofs.Registry.Resolution
import DataShape.Proofs.Schema.Reader

/-! # Capabilities and attributes of one name

The capability of a name is searched like a member: on each type of a lineage the installed
capabilities come before the attributes, but the attributes of a type come before whatever was
installed further up. So an attribute covers the capabilities that types further up have under its
name, and a type that had one of them no longer has it once the attribute is merged.

* `World.capability?` — the capability that a type gives under a name.
* `World.installed?` — the one that the capability tables of its lineage have.
* `World.Covers` — a nearer attribute has the name.
* `World.Reaches`, `memberAlong?_merged` — where a merge changes what is found.
* `capability_lookup` — what is given, and what a merge makes of it. -/

namespace DataShape

/-- A capability as the answer to a request for one. -/
def answerOf (c : Option Capability) : Value := c.elim .null Capability.toValue

/-- What a merge of entries puts under a name: the last of its values. -/
def mergedUnder (entries : Entries) (n : String) : Option Value :=
  (entries.filterMap fun e => if e.1.text? = some n then some e.2 else none).getLast?

namespace World

section Search

variable (w : World) (n : String) (t m : Nat)

/-- The capability that a type finds under a name. -/
def capability? : Option Capability :=
  (w.memberAlong? (w.lineage t) (.str n)).bind Value.capability?

/-- What the first capability table of a lineage has under a name, of those that have the name. -/
def installed? : Option Capability :=
  ((w.lineage t).findSome? fun i => Table.get? (w.type i).capabilities (.str n)).bind
    Value.capability?

/-- The nearest type of a lineage that has anything under a name has an attribute of that name, and
no capability. -/
def Covers : Prop := w.bearer? n t = some m ∧ Table.get? (w.type m).capabilities (.str n) = none

/-- A search for a name comes to the attributes of a type: types that are nearer have nothing under
the name, and the type itself has no capability of that name. -/
def Reaches : Prop :=
  ((w.lineage t).find? fun i => w.bears n i || i == m) = some m ∧
    Table.get? (w.type m).capabilities (.str n) = none

end Search

/-- The tables of types hold capabilities under texts. -/
def HoldsCapabilities (w : World) : Prop :=
  ∀ i n v, Table.get? (w.type i).capabilities (.str n) = some v → ∃ c : Capability, v = c.toValue

variable {w u : World} {n : String} {t m : Nat}

/-! ## Tables and attributes -/

/-- A type that has nothing under a name. -/
theorem bears_eq_false {i : Nat} : w.bears n i = false ↔
    Table.get? (w.type i).capabilities (.str n) = none ∧
      Table.get? (w.type i).attributes (.str n) = none := by
  rw [bears, Bool.or_eq_false_iff, Option.isSome_eq_false_iff, Option.isSome_eq_false_iff,
    Option.isNone_iff_eq_none, Option.isNone_iff_eq_none]

/-- What the nearest type with something under a name has in its table is found, and it is what
tables alone lead to. -/
theorem capability?_of_table {c : Capability} (first : w.bearer? n t = some m)
    (held : Table.get? (w.type m).capabilities (.str n) = some c.toValue) :
    w.capability? n t = some c ∧ w.installed? n t = some c := by
  -- Types before the first one that has anything have no capability either.
  have tables : ∀ chain : List Nat, chain.find? (w.bears n) = some m →
      chain.findSome? (fun i => Table.get? (w.type i).capabilities (.str n))
        = some c.toValue := by
    intro chain
    induction chain with
    | nil => exact fun first => nomatch first
    | cons i rest ih =>
      intro first
      rw [List.find?_cons] at first
      rw [List.findSome?_cons]
      split at first
      · obtain rfl := Option.some.inj first
        rw [held]
      · next bare =>
        rw [(bears_eq_false.mp bare).1]
        exact ih first
  constructor
  · rw [capability?, memberAlong?_eq]
    show ((w.bearer? n t).bind _).bind _ = _
    rw [first, Option.bind_some, TypeNode.ownMember?, held]
    rfl
  · rw [installed?, tables _ first]
    rfl

/-- Where no type of the lineage has anything under a name, neither leads to a capability. -/
theorem capability?_of_bare (bare : w.bearer? n t = none) :
    w.capability? n t = none ∧ w.installed? n t = none := by
  constructor
  · rw [capability?, memberAlong?_eq]
    show ((w.bearer? n t).bind _).bind _ = _
    rw [bare]
    rfl
  · have tables : (w.lineage t).findSome?
        (fun i => Table.get? (w.type i).capabilities (.str n)) = none := by
      refine List.findSome?_eq_none_iff.mpr fun i there => ?_
      have nothing := List.find?_eq_none.mp bare i there
      exact (bears_eq_false.mp (Bool.eq_false_iff.mpr nothing)).1
    rw [installed?, tables]
    rfl

/-- **What is given where nothing covers a name** is what the tables of the lineage lead to. -/
theorem capability?_eq_installed? (holds : w.HoldsCapabilities)
    (uncovered : ∀ m, ¬ w.Covers n t m) : w.capability? n t = w.installed? n t := by
  cases first : w.bearer? n t with
  | none =>
    obtain ⟨found, tables⟩ := capability?_of_bare first
    rw [found, tables]
  | some m =>
    -- The nearest type has a capability in its table, or an attribute of it covers the name.
    cases held : Table.get? (w.type m).capabilities (.str n) with
    | none => exact absurd ⟨first, held⟩ (uncovered m)
    | some v =>
      obtain ⟨c, rfl⟩ := holds m n v held
      obtain ⟨found, tables⟩ := capability?_of_table first held
      rw [found, tables]

/-- **What is given where an attribute covers a name** is the attribute, if that is a capability
itself, whatever is installed further up. -/
theorem Covers.capability?_eq (covers : w.Covers n t m) :
    ∃ x, Table.get? (w.type m).attributes (.str n) = some x ∧
      w.capability? n t = x.capability? := by
  obtain ⟨first, bare⟩ := covers
  have bears : w.bears n m = true := List.find?_some first
  rw [World.bears, bare] at bears
  obtain ⟨x, merged⟩ := Option.isSome_iff_exists.mp bears
  refine ⟨x, merged, ?_⟩
  rw [capability?, memberAlong?_eq]
  show ((w.bearer? n t).bind _).bind _ = _
  rw [first, Option.bind_some, TypeNode.ownMember?, bare, merged]
  rfl

/-! ## Merges -/

/-- A merge changes no base. -/
theorem lineage_merging (w : World) (m : Nat) (entries : Entries) (t : Nat) :
    (w.merging m entries).lineage t = w.lineage t := by
  have base : (fun i => ((w.merging m entries).type i).base) = fun i => (w.type i).base := by
    funext i
    rw [merging, type_modifyType]
    split <;> rfl
  unfold lineage
  rw [base, merging, modifyType, Array.size_modify]

/-- **What a merge changes along a chain.** What is merged into a type is found where the search
comes to the attributes of the type, and nowhere else anything changes. By induction on the
chain. -/
theorem memberAlong?_merged {x : Value}
    (capabilities : ∀ i, Table.get? (u.type i).capabilities (.str n)
      = Table.get? (w.type i).capabilities (.str n))
    (attributes : ∀ i, Table.get? (u.type i).attributes (.str n)
      = if i = m then some x else Table.get? (w.type i).attributes (.str n))
    (chain : List Nat) :
    ((chain.find? fun i => w.bears n i || i == m) = some m ∧
        Table.get? (w.type m).capabilities (.str n) = none →
      u.memberAlong? chain (.str n) = some x) ∧
    (¬ ((chain.find? fun i => w.bears n i || i == m) = some m ∧
        Table.get? (w.type m).capabilities (.str n) = none) →
      u.memberAlong? chain (.str n) = w.memberAlong? chain (.str n)) := by
  unfold memberAlong? TypeNode.ownMember?
  simp only [capabilities, attributes]
  induction chain with
  | nil => exact ⟨fun h => absurd h.1.symm (Option.some_ne_none m), fun _ => rfl⟩
  | cons i rest ih =>
    rw [List.findSome?_cons, List.findSome?_cons, List.find?_cons]
    by_cases here : i = m
    · subst here
      rw [beq_self_eq_true, Bool.or_true, if_pos rfl]
      cases Table.get? (w.type i).capabilities (.str n) with
      | some c => exact ⟨fun h => absurd h.2 (Option.some_ne_none c), fun _ => rfl⟩
      | none => exact ⟨fun _ => rfl, fun other => absurd ⟨rfl, rfl⟩ other⟩
    · have apart : (i == m) = false := beq_eq_false_iff_ne.mpr here
      rw [apart, Bool.or_false, if_neg here]
      cases bare : w.bears n i with
      | true =>
        refine ⟨fun h => absurd (Option.some.inj h.1) here, fun _ => ?_⟩
        -- the type has something of its own, which is found before the merged value
        rw [World.bears] at bare
        cases own : Table.get? (w.type i).capabilities (.str n) with
        | some c => rfl
        | none =>
          rw [own] at bare
          obtain ⟨y, held⟩ := Option.isSome_iff_exists.mp bare
          rw [held]
      | false =>
        obtain ⟨table, own⟩ := bears_eq_false.mp bare
        rw [table, own]
        exact ih

/-- What a merge of entries into a type leaves under a name, for the lineage of a type: all tables as
they were, and on the type what is merged, or else what was there before. -/
structure Merged (w : World) (n : String) (t m : Nat) (entries : Entries) (u : World) : Prop where
  lineage : u.lineage t = w.lineage t
  capabilities : ∀ i, Table.get? (u.type i).capabilities (.str n)
    = Table.get? (w.type i).capabilities (.str n)
  attributes : ∀ i, Table.get? (u.type i).attributes (.str n)
    = (if m = i then mergedUnder entries n else none).or
      (Table.get? (w.type i).attributes (.str n))

/-- The world after a merge. -/
theorem Tidy.merged (tidy : w.Tidy) (inside : m < w.types.size) (n : String) (t : Nat)
    (entries : Entries) :
    ∃ u : World, u.Tidy ∧ w.Merged n t m entries u ∧ ∀ d attributes,
      w.mapping? attributes = some entries →
      exec (mergeTypeAttributes d m attributes) w = (.ok ⟨⟩, u) := by
  obtain ⟨u, changed⟩ : ∃ u, u = w.changePart (.typeAttributes m) fun own =>
    Table.update own entries := ⟨_, rfl⟩
  have updated := updated_merge tidy inside entries
  rw [← changed] at updated
  refine ⟨u, updated.tidy, ⟨?_, fun i => ?_, fun i => ?_⟩, fun d attributes mapped => ?_⟩
  · rw [changed, changePart_typeAttributes tidy.unshared]
    exact lineage_merging w m entries t
  · rw [updated.capabilities, latest_capabilityFor_merges]
    rfl
  · rw [updated.attributes, latest_attributeFor_merges]
    rfl
  · unfold mergeTypeAttributes
    rw [exec_bind_ok (exec_mappingOf? attributes w), mapped, changed]
    exact exec_bind_ok (tidy.plain.exec_standIn? _ _) _

namespace Merged

variable {entries : Entries} (merged : w.Merged n t m entries u)

include merged

/-- Tables lead to what they led to. -/
theorem installed?_eq : u.installed? n t = w.installed? n t := by
  unfold installed?
  rw [merged.lineage]
  simp only [merged.capabilities]

/-- What is merged is on the type, in the form in which chains are searched for it. -/
theorem attributes_of_put {x : Value} (put : mergedUnder entries n = some x) (i : Nat) :
    Table.get? (u.type i).attributes (.str n)
      = if i = m then some x else Table.get? (w.type i).attributes (.str n) := by
  rw [merged.attributes, put]
  by_cases here : i = m
  · simp [here]
  · simp [here, Ne.symm here]

/-- Where the search comes to the attributes of the type, what is merged is given. -/
theorem capability?_of_reaches {x : Value} (put : mergedUnder entries n = some x)
    (reaches : w.Reaches n t m) : u.capability? n t = x.capability? := by
  have found := (memberAlong?_merged merged.capabilities (merged.attributes_of_put put) _).1 reaches
  rw [capability?, merged.lineage, found]
  rfl

/-- Where nothing is merged under the name, or the search does not come to it, the same is given as
before. -/
theorem capability?_of_apart (apart : mergedUnder entries n = none ∨ ¬ w.Reaches n t m) :
    u.capability? n t = w.capability? n t := by
  rw [capability?, merged.lineage, capability?]
  -- Both are told by what is found along the lineage.
  refine congrArg (fun v : Option Value => v.bind Value.capability?) ?_
  cases put : mergedUnder entries n with
  | none =>
    have same : ∀ i, (u.type i).ownMember? (.str n) = (w.type i).ownMember? (.str n) := by
      intro i
      rw [TypeNode.ownMember?, merged.capabilities, merged.attributes, put, TypeNode.ownMember?]
      split <;> simp
    unfold memberAlong?
    simp only [same]
  | some x =>
    have missed : ¬ w.Reaches n t m :=
      apart.resolve_left fun nothing => Option.some_ne_none x (put.symm.trans nothing)
    exact (memberAlong?_merged merged.capabilities (merged.attributes_of_put put) _).2 missed

end Merged

/-- A type searches for the capability of a name, and merges of attributes are told apart by whether
the search comes to them.

* What is found is given, and whether there is one is told.
* Where no attribute covers the name it is what the tables of the lineage lead to, and where one does
  it is the attribute, if that is a capability.
* A merge changes no table, but where it puts something under the name and the search comes to it,
  the merged value takes the place of what was given before. Anywhere else nothing changes. -/
structure SearchesCapability (w : World) (n : String) (t : Nat) : Prop where
  given : ∀ d, exec (capabilityOn d (.type t) (.str n)) w = (.ok (answerOf (w.capability? n t)), w)
  told : ∀ d, exec (hasCapability d (.type t) (.str n)) w
    = (.ok (w.capability? n t).isSome, w)
  uncovered : (∀ m, ¬ w.Covers n t m) → w.capability? n t = w.installed? n t
  covered : ∀ m, w.Covers n t m → ∃ x, Table.get? (w.type m).attributes (.str n) = some x ∧
    w.capability? n t = x.capability?
  merged : ∀ m < w.types.size, ∀ attributes entries, w.mapping? attributes = some entries →
    ∃ u, (∀ d, exec (mergeTypeAttributes d m attributes) w = (.ok ⟨⟩, u)) ∧
      (∀ d, exec (capabilityOn d (.type t) (.str n)) u
        = (.ok (answerOf (u.capability? n t)), u)) ∧
      u.installed? n t = w.installed? n t ∧
      (∀ x, mergedUnder entries n = some x → w.Reaches n t m →
        u.capability? n t = x.capability?) ∧
      (mergedUnder entries n = none ∨ ¬ w.Reaches n t m → u.capability? n t = w.capability? n t)

/-- Whether there is a capability is told without effect. -/
theorem Plain.exec_hasCapability (plain : w.Plain) (d : Dispatch) (n : String) (t : Nat) :
    exec (hasCapability d (.type t) (.str n)) w = (.ok (w.capability? n t).isSome, w) := by
  unfold hasCapability hasOwnCapability capability?
  rw [plain.exec_orStandIn, exec_bind_ok (plain.exec_capabilityOn d t n)]
  cases (w.memberAlong? (w.lineage t) (.str n)).bind Value.capability? <;> rfl

/-- In a tidy world whose tables hold capabilities every type searches so. -/
theorem Tidy.searchesCapability (tidy : w.Tidy) (holds : w.HoldsCapabilities) (n : String)
    (t : Nat) : w.SearchesCapability n t where
  given d := tidy.plain.exec_capabilityOn d t n
  told d := tidy.plain.exec_hasCapability d n t
  uncovered := capability?_eq_installed? holds
  covered _ covers := covers.capability?_eq
  merged m inside attributes entries mapped := by
    obtain ⟨u, tidy', merged, run⟩ := tidy.merged inside n t entries
    exact ⟨u, fun d => run d attributes mapped, fun d => tidy'.plain.exec_capabilityOn d t n,
      merged.installed?_eq, fun x put => merged.capability?_of_reaches put,
      merged.capability?_of_apart⟩

end World

/-- **Attributes cover capabilities.** Every sequence of operations is a run, if the functions that
are called in its course do runs. After any run a type gives as its capability of a name what the
tables of its lineage lead to, unless an attribute covers the name; and the capability that it gives
is lost by a merge exactly where the search comes to what is merged. -/
theorem capability_lookup {call : Provider} {w₀ w : World} (tidy : w₀.Tidy)
    (empty : w₀.types = #[]) (run : MembersRun call w₀ w) :
    (call.Within (MembersRun call) → ∀ depth operations,
      MembersRun call w₀ (afterOperations (call.dispatch (depth + 1)) operations w₀)) ∧
    ∀ n t, w.SearchesCapability n t := by
  refine ⟨fun user depth operations => membersRun_afterOperations user depth operations w₀, ?_⟩
  obtain ⟨journal, run⟩ := run
  have updated := run.updated tidy
  have holds : w.HoldsCapabilities := by
    intro i n v held
    rw [updated.capabilities] at held
    -- At the start there are no types, so that every capability comes from the journal.
    have bare : w₀.type i = default := by
      rw [World.type, empty]
      rfl
    rw [bare] at held
    cases last : latest (Update.capabilityFor i n) journal with
    | none =>
      rw [last] at held
      cases held
    | some c =>
      rw [last] at held
      exact ⟨c, (Option.some.inj held).symm⟩
  exact fun n t => updated.tidy.searchesCapability holds n t

/-- A capability that makes values of texts. -/
def readingCapability : Capability := ⟨.str "from_string", .function 1 none .spawn [], .null, .null⟩

/-- The base type is defined. -/
def World.withBase : World :=
  (exec (defineType (echoing.dispatch 3) 0 (bareDefinition "Given" .null)) .withRegistry).2

/-- The capability is installed on the base type. -/
def World.withReading : World :=
  (exec (giveCapability (echoing.dispatch 3) 0 readingCapability) .withBase).2

/-- The derived type is defined, which inherits the capability. -/
def World.withDerived : World :=
  (exec (defineType (echoing.dispatch 3) 0 (bareDefinition "Derived" (.str "Given"))) .withReading).2

/-- The derived type inherits the capability, and no longer has it when an attribute of its name is
merged. -/
theorem capability_lookup_covered :
    let d := echoing.dispatch 3
    let w := World.withDerived
    let merged := exec (mergeTypeAttributes d 1 (.ofFields [("from_string", .int 1)])) w
    World.withRegistry.Tidy ∧ World.withRegistry.types = #[] ∧
    MembersRun echoing .withRegistry w ∧
    exec (hasCapability d (.type 1) (.str "from_string")) w = (.ok true, w) ∧
    exec (capabilityOn d (.type 1) (.str "from_string")) w = (.ok readingCapability.toValue, w) ∧
    merged.1 = .ok ⟨⟩ ∧
    exec (capabilityOn d (.type 1) (.str "from_string")) merged.2 = (.ok .null, merged.2) ∧
    merged.2.installed? "from_string" 1 = some readingCapability := by
  intro d w merged
  have tidy := World.withRegistry_tidy
  have first : exec (defineType (echoing.dispatch 3) 0 (bareDefinition "Given" .null)) .withRegistry
      = (.ok 0, .withBase) := Prod.ext (by with_unfolding_all rfl) rfl
  have second : exec (giveCapability (echoing.dispatch 3) 0 readingCapability) .withBase
      = (.ok ⟨⟩, .withReading) := Prod.ext (by with_unfolding_all rfl) rfl
  have third : exec (defineType (echoing.dispatch 3) 0 (bareDefinition "Derived" (.str "Given"))) .withReading
      = (.ok 1, .withDerived) := Prod.ext (by with_unfolding_all rfl) rfl
  have run : MembersRun echoing .withRegistry .withDerived :=
    ⟨_, (MemberRun.define first).trans
      ((MemberRun.install (by decide +kernel) second).trans (.define third))⟩
  have searches := (capability_lookup tidy rfl run).2 "from_string" 1
  have inherited : w.capability? "from_string" 1 = some readingCapability := by
    with_unfolding_all rfl
  have reaches : w.Reaches "from_string" 1 1 :=
    ⟨by with_unfolding_all rfl, by with_unfolding_all rfl⟩
  obtain ⟨u, changed, given, tables, lost, -⟩ := searches.merged 1 (by decide +kernel)
    (.ofFields [("from_string", .int 1)]) _ rfl
  have none' : u.capability? "from_string" 1 = none := lost (.int 1) rfl reaches
  have after : merged = (.ok ⟨⟩, u) := changed d
  rw [after]
  refine ⟨tidy, rfl, run, ?_, ?_, rfl, ?_, ?_⟩
  · rw [searches.told, inherited]
    rfl
  · rw [searches.given, inherited]
    rfl
  · rw [given, none']
    rfl
  · show u.installed? "from_string" 1 = _
    rw [tables]
    with_unfolding_all rfl

end DataShape
