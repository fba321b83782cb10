import DataShape.Proofs.Equality
import DataShape.Proofs.Execution
import DataShape.Value.Copy

/-! # Copies of data

Data is what is told by its parts, and not by an identity of its own: scalars, options, types and
plain functions, and containers and capabilities of data. A copy of data is the same data in
containers of its own: its scalars and its keys are those of the data, and only the shares of its
containers are new. So it equals the data, and to make it does nothing but give out identities.

* `Value.isData` — data; objects whose copies are other objects are none.
* `Renews` — data and a copy of it; `Renews.same` — the copy equals the data.
* `exec_copyOf_of_isData` — data can always be copied. -/

namespace DataShape

/-! ## Data -/

/-- Whether a value has no parts that are values, and is its own copy. -/
def Value.isSingle : Value → Bool
  | .null | .missing | .bool _ | .int _ | .float _ | .str _ | .bytes _ | .date _ | .datetime _
  | .time _ | .option _ | .native _ | .target _ | .type _ => true
  | .function _ _ .forward _ => false
  | .function .. => true
  | _ => false

mutual

/-- Whether a value is data. -/
def Value.isData : Value → Bool
  | .list _ items => allData items
  | .tuple items => allData items
  | .dict _ entries => entriesData entries
  | .capability name f g s => name.isData && f.isData && g.isData && s.isData
  | v => v.isSingle
termination_by structural v => v

/-- Whether all items are data. -/
def allData : List Value → Bool
  | [] => true
  | v :: vs => v.isData && allData vs
termination_by structural vs => vs

/-- Whether all entries are data. -/
def entriesData : List (Value × Value) → Bool
  | [] => true
  | e :: es => entryData e && entriesData es
termination_by structural es => es

/-- Whether the value of an entry is data, and the key is data that can be one. -/
def entryData : Value × Value → Bool
  | (k, v) => k.hashable && k.isData && v.isData
termination_by structural e => e

end

mutual

/-- Data and a copy of it. -/
inductive Renews : Value → Value → Prop
  | single {v : Value} (h : v.isSingle = true) : Renews v v
  | list (share share' : Nat) {as bs : List Value} (h : RenewsItems as bs) :
      Renews (.list share as) (.list share' bs)
  | tuple {as bs : List Value} (h : RenewsItems as bs) : Renews (.tuple as) (.tuple bs)
  | dict (share share' : Nat) {es fs : Entries} (h : RenewsEntries es fs) :
      Renews (.dict share es) (.dict share' fs)
  | capability {n f g s n' f' g' s' : Value} (name : Renews n n') (func : Renews f f')
      (getter : Renews g g') (setter : Renews s s') :
      Renews (.capability n f g s) (.capability n' f' g' s')

/-- Items and copies of them. -/
inductive RenewsItems : List Value → List Value → Prop
  | nil : RenewsItems [] []
  | cons {a b : Value} {as bs : List Value} (first : Renews a b) (rest : RenewsItems as bs) :
      RenewsItems (a :: as) (b :: bs)

/-- Entries and copies of them, under the same keys. -/
inductive RenewsEntries : Entries → Entries → Prop
  | nil : RenewsEntries [] []
  | cons {k a b : Value} {es fs : Entries} (key : (k == k) = true) (first : Renews a b)
      (rest : RenewsEntries es fs) : RenewsEntries ((k, a) :: es) ((k, b) :: fs)

end

/-! ## Equality of copies -/

/-- A single datum is identical to itself, and has its own hash. -/
theorem Value.identical_of_isSingle {v : Value} (h : v.isSingle = true) :
    v.identical v = true ∧ v.sameHash v = true := by
  cases v with
  | time t =>
    refine ⟨beq_self_eq_true t, ?_⟩
    show t.exactly t = true
    unfold Time.exactly
    cases t.offset <;> exact beq_self_eq_true _
  | null => exact ⟨rfl, rfl⟩
  | missing => exact ⟨rfl, rfl⟩
  | bool b => exact ⟨beq_self_eq_true b, rfl⟩
  | int n => exact ⟨beq_self_eq_true n, rfl⟩
  | float x => exact ⟨beq_self_eq_true x, rfl⟩
  | str s => exact ⟨beq_self_eq_true s, rfl⟩
  | bytes bs => exact ⟨beq_self_eq_true bs, rfl⟩
  | date t => exact ⟨beq_self_eq_true t, rfl⟩
  | datetime t => exact ⟨beq_self_eq_true t, rfl⟩
  | option o => exact ⟨beq_self_eq_true o, rfl⟩
  | native t => exact ⟨beq_self_eq_true t, rfl⟩
  | target t => exact ⟨beq_self_eq_true t, rfl⟩
  | type t => exact ⟨beq_self_eq_true t, rfl⟩
  | function id name routine captured =>
    refine ⟨?_, rfl⟩
    show (id == id && routine == routine) = true
    rw [beq_self_eq_true, beq_self_eq_true]
    rfl
  | _ => cases h

mutual

/-- A copy of data equals the data. -/
theorem Renews.same : ∀ {a b : Value}, Renews a b → a.same b = true
  | _, _, .single h => by rw [Value.same, (Value.identical_of_isSingle h).1, Bool.true_or]
  | _, _, .list _ _ h => Value.same_of_eq (eqItems_of_forall₂ (RenewsItems.same h))
  | _, _, .tuple h => Value.same_of_eq (eqItems_of_forall₂ (RenewsItems.same h))
  | _, _, .dict share share' h =>
    Value.same_of_eq (eq_dict_of_alike (RenewsEntries.alike h) share share')
  | _, _, .capability name func getter setter => by
    refine Value.same_of_eq ?_
    rw [Value.eq, ← Value.same, ← Value.same, ← Value.same, ← Value.same, name.same, func.same,
      getter.same, setter.same]
    rfl

theorem RenewsItems.same : ∀ {as bs : List Value}, RenewsItems as bs →
    List.Forall₂ (fun a b => a.same b = true) as bs
  | _, _, .nil => .nil
  | _, _, .cons first rest => .cons (Renews.same first) (RenewsItems.same rest)

theorem RenewsEntries.alike : ∀ {es fs : Entries}, RenewsEntries es fs →
    List.Forall₂ AlikeUnderKey es fs
  | _, _, .nil => .nil
  | _, _, .cons key first rest => .cons ⟨key, Renews.same first⟩ (RenewsEntries.alike rest)

end

/-- No copy but that of the mark is the mark for what is not present. -/
theorem Renews.isMissing {a b : Value} (h : Renews a b) : b.isMissing = a.isMissing := by
  cases h <;> rfl

/-! ## Keys -/

/-- A single datum is its own copy. -/
theorem copied_of_isSingle (d : Dispatch) {v : Value} (h : v.isSingle = true) :
    v.copied d = pure v := by
  cases v with
  | function id name routine captured => cases routine <;> first | rfl | cases h
  | _ => first | rfl | cases h

mutual

/-- A key that is data is its own copy, identical to itself, and has its own hash. -/
theorem key_of_isData (d : Dispatch) (k : Value) (keyed : k.hashable = true)
    (data : k.isData = true) :
    k.copied d = pure k ∧ k.identical k = true ∧ k.sameHash k = true := by
  cases k with
  | tuple items =>
    obtain ⟨copied, identical, sameHash⟩ := key_of_allData d items keyed data
    rw [Value.copied, copied]
    exact ⟨rfl, identical, sameHash⟩
  | list => cases keyed
  | dict => cases keyed
  | capability name func getter setter =>
    simp only [Value.hashable, Bool.and_eq_true] at keyed
    simp only [Value.isData, Bool.and_eq_true] at data
    obtain ⟨copied₁, identical₁, -⟩ := key_of_isData d name keyed.1.1.1 data.1.1.1
    obtain ⟨copied₂, identical₂, -⟩ := key_of_isData d func keyed.1.1.2 data.1.1.2
    obtain ⟨copied₃, identical₃, -⟩ := key_of_isData d getter keyed.1.2 data.1.2
    obtain ⟨copied₄, identical₄, -⟩ := key_of_isData d setter keyed.2 data.2
    rw [Value.copied, copied₁, copied₂, copied₃, copied₄, Value.identical, identical₁, identical₂,
      identical₃, identical₄]
    exact ⟨rfl, rfl, rfl⟩
  | _ => exact ⟨copied_of_isSingle d data, Value.identical_of_isSingle data⟩
termination_by structural k

theorem key_of_allData (d : Dispatch) (items : List Value) (keyed : hashableItems items = true)
    (data : allData items = true) :
    copiedItems d items = pure items ∧ identicalItems items items = true ∧
      sameHashItems items items = true := by
  cases items with
  | nil => exact ⟨rfl, rfl, rfl⟩
  | cons v vs =>
    rw [hashableItems, Bool.and_eq_true] at keyed
    rw [allData, Bool.and_eq_true] at data
    obtain ⟨copied, identical, sameHash⟩ := key_of_isData d v keyed.1 data.1
    obtain ⟨copied', identical', sameHash'⟩ := key_of_allData d vs keyed.2 data.2
    rw [copiedItems, copied, copied', identicalItems, identical, identical', sameHashItems,
      sameHash, sameHash']
    exact ⟨rfl, rfl, rfl⟩
termination_by structural items

end

/-! ## Runs of copies -/

/-- A step of a copy gives something of a kind, and changes nothing but the identities that are given
out. -/
def GivesCopy {α : Type} (a : Copying α) (P : α → Prop) : Prop :=
  ∀ r w, ∃ x r' n, exec (a.run r) w = (.ok (x, r'), { w with nextIdentity := n }) ∧ P x

namespace GivesCopy

variable {α β : Type} {P : α → Prop} {Q : β → Prop}

theorem pure {x : α} (h : P x) : GivesCopy (pure x) P := fun r w => ⟨x, r, w.nextIdentity, rfl, h⟩

/-- A sequence gives what comes after its first step. -/
theorem bind {a : Copying α} {f : α → Copying β} (first : GivesCopy a P)
    (rest : ∀ x, P x → GivesCopy (f x) Q) : GivesCopy (a >>= f) Q := by
  intro r w
  obtain ⟨x, r₁, n, run, given⟩ := first r w
  obtain ⟨y, r₂, m, run', given'⟩ := rest x given r₁ { w with nextIdentity := n }
  refine ⟨y, r₂, m, ?_, given'⟩
  rw [StateT.run_bind, exec_bind_ok run]
  exact run'

/-- A share is renamed, or stays none. -/
theorem renameShare (share : Nat) : GivesCopy (renameShare share) fun _ => True := by
  intro r w
  unfold DataShape.renameShare
  split
  · exact ⟨0, r, w.nextIdentity, rfl, trivial⟩
  · cases met : r.renamed.lookup share with
    -- A share that was met before keeps its new name, so that sharing is kept in the copy.
    | some new => exact ⟨new, r, w.nextIdentity, by rw [renameIdentity_of_mem met]; rfl, trivial⟩
    | none =>
      have given : (renameIdentity share).run r = newIdentity >>= fun new =>
          Pure.pure (new, { r with renamed := (share, new) :: r.renamed }) := by
        simp [renameIdentity, met]
      rw [given]
      exact ⟨w.nextIdentity, _, w.nextIdentity + 1, rfl, trivial⟩

end GivesCopy

section Copies

variable (d : Dispatch)

theorem givesCopy_of_isSingle {v : Value} (h : v.isSingle = true) :
    GivesCopy (v.copied d) (Renews v) := by
  rw [copied_of_isSingle d h]
  exact .pure (.single h)

mutual

/-- Data gives a copy of itself, constructor by constructor. -/
theorem givesCopy_copied (v : Value) (data : v.isData = true) :
    GivesCopy (v.copied d) (Renews v) := by
  cases v with
  | list share items =>
    rw [Value.copied]
    exact (GivesCopy.renameShare share).bind fun share' _ =>
      (givesCopy_copiedItems items data).bind fun _ given => .pure (.list share share' given)
  | tuple items =>
    rw [Value.copied]
    exact (givesCopy_copiedItems items data).bind fun _ given => .pure (.tuple given)
  | dict share entries =>
    rw [Value.copied]
    exact (GivesCopy.renameShare share).bind fun share' _ =>
      (givesCopy_copiedEntries entries data).bind fun _ given => .pure (.dict share share' given)
  | capability name func getter setter =>
    simp only [Value.isData, Bool.and_eq_true] at data
    rw [Value.copied]
    exact (givesCopy_copied name data.1.1.1).bind fun _ first =>
      (givesCopy_copied func data.1.1.2).bind fun _ second =>
        (givesCopy_copied getter data.1.2).bind fun _ third =>
          (givesCopy_copied setter data.2).bind fun _ fourth =>
            .pure (.capability first second third fourth)
  | _ => exact givesCopy_of_isSingle d data
termination_by structural v

theorem givesCopy_copiedItems (items : List Value) (data : allData items = true) :
    GivesCopy (copiedItems d items) (RenewsItems items) := by
  cases items with
  | nil => exact .pure .nil
  | cons v vs =>
    rw [allData, Bool.and_eq_true] at data
    rw [copiedItems]
    exact (givesCopy_copied v data.1).bind fun _ first =>
      (givesCopy_copiedItems vs data.2).bind fun _ rest => .pure (.cons first rest)
termination_by structural items

theorem givesCopy_copiedEntries (entries : List (Value × Value))
    (data : entriesData entries = true) :
    GivesCopy (copiedEntries d entries) (RenewsEntries entries) := by
  cases entries with
  | nil => exact .pure .nil
  | cons e es =>
    rw [entriesData, Bool.and_eq_true] at data
    rw [copiedEntries]
    refine (givesCopy_copiedEntry e data.1).bind fun f given =>
      (givesCopy_copiedEntries es data.2).bind fun _ rest => .pure ?_
    obtain ⟨key, same, first⟩ := given
    obtain ⟨k, v⟩ := e
    obtain ⟨k', x⟩ := f
    obtain rfl : k' = k := same
    exact .cons key first rest
termination_by structural entries

theorem givesCopy_copiedEntry (e : Value × Value) (data : entryData e = true) :
    GivesCopy (copiedEntry d e) fun f => (e.1 == e.1) = true ∧ f.1 = e.1 ∧ Renews e.2 f.2 := by
  cases e with
  | mk k v =>
    rw [entryData, Bool.and_eq_true, Bool.and_eq_true] at data
    obtain ⟨copied, identical, sameHash⟩ := key_of_isData d k data.1.1 data.1.2
    -- A key that is data is found again under itself, so the copy has it too.
    have key : (k == k) = true := by
      show ((k.identical k || k.eq k) && k.sameHash k) = true
      rw [identical, sameHash]
      rfl
    rw [copiedEntry, copied, pure_bind]
    exact (givesCopy_copied v data.2).bind fun _ given => .pure ⟨key, rfl, given⟩
termination_by structural e

end

/-! ## Settled data -/

mutual

/-- There are no parts of objects in data. -/
theorem settledWith_of_isData (entriesOf : Part → Entries) (views : Bool) (v : Value)
    (data : v.isData = true) : v.settledWith entriesOf views = v := by
  cases v with
  | list share items =>
    rw [Value.settledWith, settledItems_of_allData entriesOf views items data]
  | tuple items => rw [Value.settledWith, settledItems_of_allData entriesOf views items data]
  | dict share entries =>
    rw [Value.settledWith, settledEntries_of_entriesData entriesOf views entries data]
  | live => cases data
  | record => cases data
  | _ => rfl
termination_by structural v

theorem settledItems_of_allData (entriesOf : Part → Entries) (views : Bool) (items : List Value)
    (data : allData items = true) : settledItems entriesOf views items = items := by
  cases items with
  | nil => rfl
  | cons v vs =>
    rw [allData, Bool.and_eq_true] at data
    rw [settledItems, settledWith_of_isData entriesOf views v data.1,
      settledItems_of_allData entriesOf views vs data.2]
termination_by structural items

theorem settledEntries_of_entriesData (entriesOf : Part → Entries) (views : Bool)
    (entries : List (Value × Value)) (data : entriesData entries = true) :
    settledEntries entriesOf views entries = entries := by
  cases entries with
  | nil => rfl
  | cons e es =>
    rw [entriesData, Bool.and_eq_true] at data
    rw [settledEntries, settledEntry_of_entryData entriesOf views e data.1,
      settledEntries_of_entriesData entriesOf views es data.2]
termination_by structural entries

theorem settledEntry_of_entryData (entriesOf : Part → Entries) (views : Bool) (e : Value × Value)
    (data : entryData e = true) : settledEntry entriesOf views e = e := by
  cases e with
  | mk k v =>
    rw [entryData, Bool.and_eq_true] at data
    rw [settledEntry, settledWith_of_isData entriesOf views v data.2]
termination_by structural e

end

/-- **Copies of data.** Data can be copied in every world; the copy is the same data, and nothing
changes but the identities that are given out. -/
theorem exec_copyOf_of_isData {v : Value} (data : v.isData = true) (w : World) :
    ∃ x n, exec (copyOf d v) w = (.ok x, { w with nextIdentity := n }) ∧ Renews v x := by
  obtain ⟨x, r, n, run, given⟩ := givesCopy_copied d v data ⟨[], []⟩ w
  refine ⟨x, n, ?_, given⟩
  -- There are no live parts to be read before the copy is made.
  have settled : w.settled false v = v := settledWith_of_isData _ _ v data
  unfold copyOf
  rw [exec_bind_ok (exec_get w), settled, exec_bind_ok run]
  rfl

end Copies

end DataShape
