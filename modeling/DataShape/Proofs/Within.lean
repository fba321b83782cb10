import DataShape.Path
import DataShape.Proofs.Execution
import DataShape.Value.Copy
import DataShape.Value.Display
import DataShape.Value.Entries
import DataShape.Value.Live

/-! # Dispatches within a relation

Where the four ways to leave the engine follow a relation between worlds, and so does the keeping of
field lists, everything follows it that the engine does to look at a value: walk it, test it, follow
a path in it, show it, copy it. The instances below say so, one for each function, in the order in
which the functions build on each other.

* `Dispatch.Within` — a dispatch whose operations follow a relation.
* `Frame.Lists` — a relation that does not see the field lists that schemas keep; for such a
  relation the four operations are enough. -/

namespace DataShape

/-- The four operations of a dispatch follow a relation, and so does the listing of fields. -/
class Dispatch.Within (R : World → World → Prop) (d : Dispatch) : Prop extends Frame R where
  call : ∀ f arguments named, Along R (d.call f arguments named)
  member : ∀ v name, Along R (d.member v name)
  items : ∀ v, Along R (d.items v)
  display : ∀ v, Along R (d.display v)
  names : ∀ s, Along R (allFieldNames d s)

variable {R : World → World → Prop} {d : Dispatch}

instance along_call [h : d.Within R] (f : Value) (arguments : List Value)
    (named : List (String × Value)) : Along R (d.call f arguments named) := h.call ..

instance along_member [h : d.Within R] (v : Value) (name : String) : Along R (d.member v name) :=
  h.member ..

instance along_items [h : d.Within R] (v : Value) : Along R (d.items v) := h.items v

instance along_display [h : d.Within R] (v : Value) : Along R (d.display v) := h.display v

instance along_allFieldNames [h : d.Within R] (s : Nat) : Along R (allFieldNames d s) := h.names s

section Frame

variable [Frame R]

instance along_standIn? (host : Value) (name : String) : Along R (standIn? host name) := by
  unfold standIn?
  infer_instance

instance along_mappingOf? (v : Value) : Along R (mappingOf? v) := by
  unfold mappingOf?
  infer_instance

instance along_foreignLists? (s : Nat) : Along R (foreignLists? s) := by
  unfold foreignLists?
  infer_instance

instance along_foreignParent? (s : Nat) : Along R (foreignParent? s) := by
  unfold foreignParent?
  infer_instance

instance along_areEqual (a b : Value) : Along R (areEqual a b) := by
  unfold areEqual
  infer_instance

instance along_ofExcept {α : Type} (r : Except Fault α) : Along R (ofExcept r) := by
  unfold ofExcept
  split <;> infer_instance

instance along_entriesOfSize (part : Part) (size : Nat) : Along R (entriesOfSize part size) := by
  unfold entriesOfSize
  infer_instance

/-- A walk follows a relation if each visit does. -/
instance along_walkRest {σ : Type} {visit : σ → Value × Value → Action (σ × Bool)}
    [∀ s e, Along R (visit s e)] (part : Part) (size left : Nat) (s : σ) :
    Along R (walkRest part size visit left s) := by
  induction left generalizing s with
  | zero =>
    unfold walkRest
    infer_instance
  | succ left ih =>
    unfold walkRest
    refine Along.andThen fun entries => ?_
    split
    · infer_instance
    · refine Along.andThen fun step => ?_
      split
      infer_instance

instance along_walkPart {σ : Type} {visit : σ → Value × Value → Action (σ × Bool)}
    [∀ s e, Along R (visit s e)] (part : Part) (s : σ) : Along R (walkPart part visit s) := by
  unfold walkPart
  infer_instance

instance along_textThrough {display : Value → Action String}
    [∀ v, Along R (display v)] (v : Value) : Along R (textThrough display v) := by
  unfold textThrough
  split <;> infer_instance

/-- What a copy does with a table of identities is an action. -/
theorem along_copying_bind {α β : Type} {a : Copying α} {f : α → Copying β}
    (ha : ∀ r, Along R (a.run r)) (hf : ∀ x r, Along R ((f x).run r)) (r : Renaming) :
    Along R ((a >>= f).run r) := by
  rw [StateT.run_bind]
  have := ha r
  exact Along.andThen fun step => hf step.1 step.2

theorem along_copying_pure {α : Type} (x : α) (r : Renaming) :
    Along R ((pure x : Copying α).run r) := along_pure _

theorem along_noCopy {α : Type} (r : Renaming) :
    Along R ((noCopy : Copying α).run r) := by
  show Along R ((throw .wrongType : Action α) >>= fun a => pure (a, r))
  infer_instance

theorem along_renameIdentity (old : Nat) (r : Renaming) :
    Along R ((renameIdentity old).run r) := by
  unfold renameIdentity
  refine along_copying_bind (fun r => along_pure _) (fun table r => ?_) r
  split
  · exact along_copying_pure _ _
  · refine along_copying_bind (fun r => ?_) (fun new r => ?_) r
    · show Along R (newIdentity >>= fun a => pure (a, r))
      infer_instance
    · refine along_copying_bind (fun r => along_pure _) (fun _ r => along_copying_pure _ _) r

theorem along_renameShare (share : Nat) (r : Renaming) :
    Along R ((renameShare share).run r) := by
  unfold renameShare
  split
  · exact along_copying_pure _ _
  · exact along_renameIdentity share r

instance along_writeMapping {σ : Type} {write : σ → Value → Value → Action σ}
    [∀ s k v, Along R (write s k v)] (entries : Entries) (s : σ) :
    Along R (writeMapping write entries s) := by
  induction entries generalizing s with
  | nil =>
    rw [writeMapping]
    infer_instance
  | cons e rest ih =>
    rw [writeMapping]
    infer_instance

instance along_putEntry (entries : Entries) (key value : Value) :
    Along R (putEntry entries key value) := by
  unfold putEntry
  infer_instance

end Frame

section Dispatch

variable [d.Within R]

/-! ## Walking and truth -/

instance along_memberOrMissing (obj : Value) (name : String) :
    Along R (memberOrMissing d obj name) := by
  unfold memberOrMissing
  infer_instance

instance along_callMember (obj : Value) (name : String) (arguments : List Value) :
    Along R (callMember d obj name arguments) := by
  unfold callMember
  infer_instance

instance along_orStandIn {α : Type} {read : Value → Action α} {own : Action α}
    [∀ v, Along R (read v)] [Along R own] (host : Value) (name : String) (arguments : List Value) :
    Along R (orStandIn d host name arguments read own) := by
  unfold orStandIn
  refine Along.andThen fun found => ?_
  split <;> infer_instance

instance along_chainFrom (link : String) (fuel : Nat) (v : Value) :
    Along R (chainFrom d link fuel v) := by
  induction fuel generalizing v with
  | zero => cases v <;> rw [chainFrom] <;> first | infer_instance | exact nofun
  | succ fuel ih => cases v <;> rw [chainFrom] <;> first | infer_instance | exact nofun

instance along_ownFieldNames (s : Nat) : Along R (ownFieldNames d s) := by
  unfold ownFieldNames
  refine Along.andThen fun held => ?_
  split <;> infer_instance

instance along_iterate (v : Value) : Along R (iterate d v) := by
  unfold iterate
  split <;> infer_instance

instance along_truthOf (v : Value) : Along R (truthOf d v) := by
  unfold truthOf
  infer_instance

instance along_orElseValue (v fallback : Value) : Along R (orElseValue d v fallback) := by
  unfold orElseValue
  infer_instance

/-! ## Names -/

instance along_schemaName (s : Nat) : Along R (schemaName d s) := by
  unfold schemaName
  infer_instance

instance along_nameOf (v : Value) : Along R (nameOf d v) := by
  unfold nameOf
  split <;> infer_instance

instance along_heldName (id : Nat) : Along R (heldName d id) := by
  unfold heldName
  infer_instance

instance along_baseName? (id : Nat) : Along R (baseName? d id) := by
  unfold baseName?
  infer_instance

instance along_parentName? (id : Nat) : Along R (parentName? d id) := by
  unfold parentName?
  infer_instance

instance along_fieldIsArray (id : Nat) : Along R (fieldIsArray d id) := by
  unfold fieldIsArray
  refine Along.andThen fun w => ?_
  dsimp only
  split <;> infer_instance

/-! ## Paths -/

instance along_lookupKey (obj key : Value) : Along R (lookupKey d obj key) := by
  unfold lookupKey
  split
  · infer_instance
  · infer_instance
  · refine Along.andThen fun entries => ?_
    split
    · infer_instance
    · split <;> infer_instance

instance along_followKeys (fallback : Value) (keys : List Value) (obj : Value) :
    Along R (followKeys d fallback obj keys) := by
  induction keys generalizing obj with
  | nil =>
    rw [followKeys]
    infer_instance
  | cons key rest ih =>
    rw [followKeys]
    infer_instance

instance along_resolvePath (obj : Value) (path : String) (fallback : Value) :
    Along R (resolvePath d obj path fallback) := by
  unfold resolvePath
  infer_instance

/-! ## Notation -/

instance along_displayType (id : Nat) : Along R (displayType d id) := by
  unfold displayType
  refine Along.andThen fun w => Along.andThen fun base => ?_
  split <;> infer_instance

instance along_displayField (id : Nat) : Along R (displayField d id) := by
  unfold displayField
  infer_instance

instance along_displaySchema (id : Nat) : Along R (displaySchema d id) := by
  unfold displaySchema
  refine Along.andThen fun parent => ?_
  split <;> infer_instance

mutual

/-- Showing a value follows the relation, constructor by constructor. -/
theorem along_shown_of : ∀ v : Value, Along R (shown d v)
  | .list _ items => by
    have := along_shownItems items
    rw [shown]
    infer_instance
  | .tuple items => by
    have := along_shownItems items
    rw [shown]
    infer_instance
  | .dict _ entries => by
    have := along_shownEntries entries
    rw [shown]
    infer_instance
  | .static _ _ f => by
    have := along_shown_of f
    rw [shown]
    infer_instance
  | .bound f r => by
    have := along_shown_of r
    rw [shown]
    infer_instance
  | .method r name => by
    have := along_shown_of r
    rw [shown]
    infer_instance
  | .capability name f g s => by
    have := along_shown_of name
    have := along_shown_of f
    have := along_shown_of g
    have := along_shown_of s
    rw [shown]
    infer_instance
  | .predicate p => by
    have := along_shownPredicate p
    rw [shown]
    infer_instance
  | .null | .missing | .bool _ | .int _ | .float _ | .str _ | .bytes _ | .date _ | .datetime _
  | .time _ | .live .. | .option _ | .record .. | .native _ | .target _ | .type _ | .schema _
  | .field _ | .registry _ | .table _ | .function .. => by
    rw [shown]
    infer_instance
termination_by structural v => v

theorem along_shownItems : ∀ items : List Value, Along R (shownItems d items)
  | [] => by
    rw [shownItems]
    infer_instance
  | v :: vs => by
    have := along_shown_of v
    have := along_shownItems vs
    rw [shownItems]
    infer_instance
termination_by structural items => items

theorem along_shownEntries : ∀ entries : List (Value × Value), Along R (shownEntries d entries)
  | [] => by
    rw [shownEntries]
    infer_instance
  | e :: es => by
    have := along_shownEntry e
    have := along_shownEntries es
    rw [shownEntries]
    infer_instance
termination_by structural entries => entries

theorem along_shownEntry : ∀ e : Value × Value, Along R (shownEntry d e)
  | (k, v) => by
    have := along_shown_of k
    have := along_shown_of v
    rw [shownEntry]
    infer_instance
termination_by structural e => e

theorem along_shownPredicate : ∀ p : Predicate, Along R (shownPredicate d p)
  | .present path => by
    rw [shownPredicate]
    infer_instance
  | .all ps => by
    have := along_shownParts ps
    rw [shownPredicate]
    infer_instance
  | .any ps => by
    have := along_shownParts ps
    rw [shownPredicate]
    infer_instance
  | .negation p => by
    have := along_shownPredicate p
    rw [shownPredicate]
    infer_instance
  | .structural _ expected => by
    have := along_shownEntries expected
    rw [shownPredicate]
    infer_instance
  | .test f => by
    have := along_shown_of f
    rw [shownPredicate]
    infer_instance
termination_by structural p => p

theorem along_shownParts : ∀ ps : List Predicate, Along R (shownParts d ps)
  | [] => by
    rw [shownParts]
    infer_instance
  | p :: ps => by
    have := along_shownPredicate p
    have := along_shownParts ps
    rw [shownParts]
    infer_instance
termination_by structural ps => ps

end

instance along_shown (v : Value) : Along R (shown d v) := along_shown_of v

instance along_textOf (v : Value) : Along R (textOf d v) := by
  unfold textOf
  infer_instance

/-! ## Copies

A copy carries a table of the identities that it has renamed, so it is a family of actions, one for
each table. -/

theorem along_answeredCopy (id : Nat) (hook : Value) (r : Renaming) :
    Along R ((answeredCopy d id hook).run r) := by
  unfold answeredCopy
  refine along_copying_bind (fun r => along_pure _) (fun table r => ?_) r
  split
  · exact along_copying_pure _ _
  · refine along_copying_bind (fun r => ?_) (fun new r => ?_) r
    · show Along R (d.call hook [.freshDict []] [] >>= fun a => pure (a, r))
      infer_instance
    · refine along_copying_bind (fun r => along_pure _) (fun _ r => along_copying_pure _ _) r

mutual

/-- Copying a value follows the relation, constructor by constructor. -/
theorem along_copied : ∀ (v : Value) (r : Renaming), Along R ((v.copied d).run r)
  | .list share items, r => by
    rw [Value.copied]
    exact along_copying_bind (along_renameShare share) (fun _ => along_copying_bind
      (along_copiedItems items) fun _ => along_copying_pure _) r
  | .tuple items, r => by
    rw [Value.copied]
    exact along_copying_bind (along_copiedItems items) (fun _ => along_copying_pure _) r
  | .dict share entries, r => by
    rw [Value.copied]
    exact along_copying_bind (along_renameShare share) (fun _ => along_copying_bind
      (along_copiedEntries entries) fun _ => along_copying_pure _) r
  | .record id attributes, r => by
    have whole := fun r => along_copying_bind (along_renameIdentity id)
      (fun new => along_copying_bind (along_copiedEntries attributes)
        fun as => along_copying_pure (Value.record new as)) r
    rw [Value.copied]
    split
    · exact whole r
    · exact whole r
    · exact along_answeredCopy _ _ r
  | .function id name routine captured, r => by
    by_cases forwards : routine = .forward
    · subst forwards
      rw [Value.copied]
      exact along_copying_bind (along_renameIdentity id) (fun _ => along_copying_bind
        (along_copiedItems captured) fun _ => along_copying_pure _) r
    · cases routine <;> first | exact absurd rfl forwards | exact along_copying_pure _ _
  | .bound f receiver, r => by
    rw [Value.copied]
    exact along_copying_bind (along_copied receiver) (fun _ => along_copying_pure _) r
  | .method receiver name, r => by
    rw [Value.copied]
    exact along_copying_bind (along_copied receiver) (fun _ => along_copying_pure _) r
  | .capability name f g s, r => by
    rw [Value.copied]
    exact along_copying_bind (along_copied name) (fun _ => along_copying_bind (along_copied f)
      fun _ => along_copying_bind (along_copied g) fun _ => along_copying_bind (along_copied s)
      fun _ => along_copying_pure _) r
  | .predicate p, r => by
    rw [Value.copied]
    exact along_copying_bind (along_copiedPredicate p) (fun _ => along_copying_pure _) r
  | .live .., r | .static .., r | .schema _, r | .field _, r | .registry _, r | .table _, r =>
    along_noCopy r
  | .null, r | .missing, r | .bool _, r | .int _, r | .float _, r | .str _, r | .bytes _, r
  | .date _, r | .datetime _, r | .time _, r | .option _, r | .native _, r | .target _, r
  | .type _, r => along_copying_pure _ r
termination_by structural v => v

theorem along_copiedItems : ∀ (items : List Value) (r : Renaming),
    Along R ((copiedItems d items).run r)
  | [], r => along_copying_pure _ r
  | v :: vs, r => by
    rw [copiedItems]
    exact along_copying_bind (along_copied v) (fun _ => along_copying_bind
      (along_copiedItems vs) fun _ => along_copying_pure _) r
termination_by structural items => items

theorem along_copiedEntries : ∀ (entries : List (Value × Value)) (r : Renaming),
    Along R ((copiedEntries d entries).run r)
  | [], r => along_copying_pure _ r
  | e :: es, r => by
    rw [copiedEntries]
    exact along_copying_bind (along_copiedEntry e) (fun _ => along_copying_bind
      (along_copiedEntries es) fun _ => along_copying_pure _) r
termination_by structural entries => entries

theorem along_copiedEntry : ∀ (e : Value × Value) (r : Renaming),
    Along R ((copiedEntry d e).run r)
  | (k, v), r => by
    rw [copiedEntry]
    exact along_copying_bind (along_copied k) (fun _ => along_copying_bind (along_copied v)
      fun _ => along_copying_pure _) r
termination_by structural e => e

theorem along_copiedPredicate : ∀ (p : Predicate) (r : Renaming),
    Along R ((p.copied d).run r)
  | .present _, r => along_copying_pure _ r
  | .all ps, r => by
    rw [Predicate.copied]
    exact along_copying_bind (along_copiedParts ps) (fun _ => along_copying_pure _) r
  | .any ps, r => by
    rw [Predicate.copied]
    exact along_copying_bind (along_copiedParts ps) (fun _ => along_copying_pure _) r
  | .negation p, r => by
    rw [Predicate.copied]
    exact along_copying_bind (along_copiedPredicate p) (fun _ => along_copying_pure _) r
  | .structural id expected, r => by
    rw [Predicate.copied]
    exact along_copying_bind (along_renameIdentity id) (fun _ => along_copying_bind
      (along_copiedEntries expected) fun _ => along_copying_pure _) r
  | .test f, r => by
    rw [Predicate.copied]
    exact along_copying_bind (along_copied f) (fun _ => along_copying_pure _) r
termination_by structural p => p

theorem along_copiedParts : ∀ (ps : List Predicate) (r : Renaming),
    Along R ((copiedParts d ps).run r)
  | [], r => along_copying_pure _ r
  | p :: ps, r => by
    rw [copiedParts]
    exact along_copying_bind (along_copiedPredicate p) (fun _ => along_copying_bind
      (along_copiedParts ps) fun _ => along_copying_pure _) r
termination_by structural ps => ps

end

instance along_copyOf (v : Value) : Along R (copyOf d v) := by
  have := fun v => along_copied (R := R) (d := d) v ⟨[], []⟩
  unfold copyOf
  infer_instance

/-! ## Entries that a value describes -/

section Write

variable {σ : Type} {write : σ → Value → Value → Action σ} [∀ s k v, Along R (write s k v)]

instance along_itemUnder (obj key : Value) : Along R (itemUnder d obj key) := by
  unfold itemUnder
  split <;> infer_instance

instance along_listedKeys (obj : Value) : Along R (listedKeys d obj) := by
  unfold listedKeys
  infer_instance

instance along_writeListed (obj : Value) (keys : List Value) (s : σ) :
    Along R (writeListed d write obj keys s) := by
  induction keys generalizing s with
  | nil =>
    rw [writeListed]
    infer_instance
  | cons key rest ih =>
    rw [writeListed]
    infer_instance

instance along_writePairs (place : Nat) (pairs : List Value) (s : σ) :
    Along R (writePairs d write place pairs s) := by
  induction pairs generalizing place s with
  | nil =>
    rw [writePairs]
    infer_instance
  | cons pair rest ih =>
    rw [writePairs]
    refine Along.andThen fun items => ?_
    split <;> infer_instance

instance along_writeEntries (v : Value) (s : σ) : Along R (writeEntries d write v s) := by
  unfold writeEntries
  refine Along.andThen fun entries => ?_
  split <;> infer_instance

end Write

instance along_entriesFrom (v : Value) : Along R (entriesFrom d v) := by
  unfold entriesFrom
  infer_instance

instance along_spreadEntries (entries : Entries) (v : Value) :
    Along R (spreadEntries d entries v) := by
  unfold spreadEntries
  refine Along.andThen fun more => ?_
  split <;> infer_instance

end Dispatch

/-! ## Field lists -/

/-- A relation that does not see the field lists that schemas keep, nor an object that was set in
their place. -/
class Frame.Lists (R : World → World → Prop) : Prop extends Frame R where
  keep : ∀ (w : World) (s : Nat) (p : Projection) (names : List Value),
    R w (w.modifySchema s fun n => { n with fieldLists := n.fieldLists.insert p names })
  foreign : ∀ (w : World) (s share : Nat) (lists : Value),
    (w.storedOn (.schema s)).get? "_field_lists" ≠ none →
    R w ((if share = 0 then w else w.replaceShared share lists).modifySchema s
      fun n => { n with stored := n.stored.insert "_field_lists" lists })

section Lists

variable [Frame.Lists R]

instance along_keepNames (s : Nat) (p : Projection) (names : List Value) :
    Along R (keepNames s p names) := ⟨fun w => Frame.Lists.keep w s p names⟩

instance along_keepInForeign (s : Nat) (key names : Value) :
    Along R (keepInForeign s key names) where
  out w := by
    have asked : exec (foreignLists? s) w
        = (.ok ((w.storedOn (.schema s)).get? "_field_lists"), w) := rfl
    unfold keepInForeign
    rw [exec_bind_ok asked]
    split
    · next share entries held => exact Frame.Lists.foreign w s share _ (by simp [held])
    · exact Frame.refl w

/-- The listing of fields follows a relation that does not see kept lists, if the operations of the
dispatch and the computation of the list do. -/
theorem along_listedNames (call : ∀ f arguments named, Along R (d.call f arguments named))
    (member : ∀ v name, Along R (d.member v name)) (items : ∀ v, Along R (d.items v))
    (s : Nat) (p : Projection) {compute : Action (List Value)} (computed : Along R compute) :
    Along R (listedNames d s p compute) := by
  unfold listedNames
  refine Along.andThen fun lists => ?_
  split
  · unfold callMember
    infer_instance
  · refine Along.andThen fun w => ?_
    split <;> infer_instance

/-- The names along a chain of schemas are listed within the relation, by induction on the chain:
every schema asks the next one. -/
theorem along_namesAlong (call : ∀ f arguments named, Along R (d.call f arguments named))
    (member : ∀ v name, Along R (d.member v name)) (items : ∀ v, Along R (d.items v))
    (chain : List Nat) : Along R (namesAlong d chain) := by
  induction chain with
  | nil =>
    rw [namesAlong]
    infer_instance
  | cons id rest ih =>
    have own : Along R (ownFieldNames d id) := by
      unfold ownFieldNames
      refine Along.andThen fun held => ?_
      split <;> infer_instance
    rw [namesAlong]
    unfold orStandIn
    refine Along.andThen fun found => ?_
    split
    · infer_instance
    · refine along_listedNames call member items id .all (Along.andThen fun parent => ?_)
      split
      · unfold callMember
        infer_instance
      · infer_instance

/-- For a relation that does not see kept field lists, a dispatch is within the relation if its four
operations are. -/
theorem Dispatch.Within.ofLists (call : ∀ f arguments named, Along R (d.call f arguments named))
    (member : ∀ v name, Along R (d.member v name)) (items : ∀ v, Along R (d.items v))
    (display : ∀ v, Along R (d.display v)) : d.Within R where
  call := call
  member := member
  items := items
  display := display
  names s := by
    have := along_namesAlong call member items
    unfold allFieldNames
    infer_instance

end Lists

end DataShape
