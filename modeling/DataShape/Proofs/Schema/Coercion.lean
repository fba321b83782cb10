import DataShape.Proofs.Catalog.Seed
import DataShape.Proofs.Schema.Conversion
import DataShape.Proofs.Schema.Uniform

/-! # Coercion to built-in types

A field of a built-in type, or of a type derived from one, keeps a value, drops it as blank, or holds
a native value afterwards. What a conversion gave stays as it is when it is converted again: values
that were read are native by then, and values that were left are left for the same reason as before,
as long as they are worded in the same way.

* `World.HasKind.readsPolitely` — readers of the catalog fail only as readers do.
* `yields_of_convertBy`, `yields_of_convertField` — the result of a conversion converts to itself.
* `entriesStay_of_convert` — the same for a record, entry by entry.
* `coercion_of_catalog` — what coercion gives, and when it fails. -/

namespace DataShape

/-! ## Readers of the catalog -/

theorem World.Resembles.hasKind {w u : World} (h : w.Resembles u) {t : Nat} {k : CatalogKind}
    (given : w.HasKind t k) : u.HasKind t k :=
  given.of_same (h.lineage t) fun i _ => h.type i

/-- Readers of the catalog fail only as readers do, and give out identities at most. -/
theorem World.HasKind.readsPolitely {call : Provider} (serves : call.ServesCatalog) (depth : Nat)
    {w : World} {t : Nat} {k : CatalogKind} (given : w.HasKind t k) :
    (call.dispatch (depth + 1)).ReadsPolitely w.Resembles t where
  native u h := by
    rw [(h.hasKind given).representation]
    exact k.isRepresentation
  reads u h c reader f bound text := by
    obtain ⟨m, n, reads, rfl⟩ := (h.hasKind given).reader_eq reader
    obtain ⟨rfl, -⟩ := exec_pure_eq_ok.mp (show exec (pure m.toValue) u = (.ok f, u) from bound)
    have applied : exec ((call.dispatch (depth + 1)).call m.toValue [.str text] []) u
        = exec (m.apply (call.dispatch depth) (.str text)) u := by
      show exec (call (call.dispatch depth) m.toValue [.str text] []) u = _
      rw [serves]
    rw [applied]
    rcases reads_or_rejects reads text with reads | ⟨e, passed, rejects⟩
    · obtain ⟨x, n, run, -⟩ := reads (call.dispatch depth) u
      rw [run]
      exact ⟨h.identity n, nofun⟩
    · rw [rejects]
      exact ⟨h, fun e' same => Except.error.inj same ▸ passed⟩
  relisted _ _ h next := h.relisted next
  logged _ l h := h.logged l

/-- A type of a kind reads a text through the reader of the kind. -/
theorem World.HasKind.exec_readText {call : Provider} (serves : call.ServesCatalog) (depth : Nat)
    {w : World} (plain : w.Plain) {t : Nat} {k : CatalogKind} (kind : w.HasKind t k)
    {m : Marshaller} (reader : k.reader? = some m) (text : String) :
    exec (readText (call.dispatch (depth + 1)) (.type t) text) w
      = exec (m.apply (call.dispatch depth) (.str text)) w :=
  World.HasConversion.exec_invoke serves depth plain (reader ▸ kind.reader) (.str text)

/-! ## Values -/

section Values

variable {call : Provider} {depth : Nat} {w : World} {f : Nat}

/-- A value that is not to be read converts to itself. -/
theorem yields_of_unread {d : Dispatch}
    (kinds : ∀ t, (w.field f).type = .type t → ∃ k, w.HasKind t k) {v : Value}
    (unread : ∀ t c, ¬ w.Reads f v t c) :
    Yields (Readable w.Resembles) (convertBy d (.field f) v) v := by
  refine yields_of_still fun u h => u.exec_convertBy_of_not_reads h.1.plain d (fun t held => ?_)
    fun t c reads => unread t c (h.2.reads_iff.mp reads)
  obtain ⟨k, kind⟩ := kinds t (h.2.field f ▸ held)
  rw [(h.2.hasKind kind).representation]
  exact k.isRepresentation

/-- What a kind accepts is not to be read for a field of the kind. -/
theorem CatalogKind.Accepts.not_reads {k : CatalogKind} {v : Value} (accepts : k.Accepts v)
    {t : Nat} (held : (w.field f).type = .type t) (kind : w.HasKind t k) :
    ∀ t c, ¬ w.Reads f v t c := by
  intro t' c reads
  obtain rfl := FieldType.type.inj (held.symm.trans reads.type)
  rcases accepts with rfl | native
  · cases reads.given
  · have foreign := reads.foreign
    rw [kind.representation, show hasRepresentation? _ v = some true from native] at foreign
    cases foreign

variable (serves : call.ServesCatalog)
  (kinds : ∀ t, (w.field f).type = .type t → ∃ k, w.HasKind t k)

include serves kinds

/-- What a value is converted to is the value, or what a reader of the kind of its field gives. -/
theorem converted_eq_or_accepted {u u' : World} (h : Readable w.Resembles u) {v x : Value}
    (run : exec (convertBy (call.dispatch (depth + 1)) (.field f) v) u = (.ok x, u')) :
    x = v ∨ ∃ t k m, (w.field f).type = .type t ∧ w.HasKind t k ∧ k.reader? = some m ∧
      k.Accepts x := by
  rcases converted_eq_or_read h.1.plain run with same | ⟨t, c, text, u₁, reads, written, read⟩
  · exact .inl same
  have held := (h.2.reads_iff.mp reads).type
  obtain ⟨k, kind⟩ := kinds t held
  obtain ⟨m, n, reader, -⟩ := (h.2.hasKind kind).reader_eq reads.reader
  have relisted : u.Relisted u₁ := by
    have words := (words_textOf (Provider.words_display call (depth + 1)) v h.1.plain).1
    rwa [written] at words
  have kind₁ := (h.2.relisted relisted).hasKind kind
  rw [kind₁.exec_readText serves depth (relisted.plain h.1.plain) reader] at read
  refine .inr ⟨t, k, m, held, kind, reader, ?_⟩
  rcases reads_or_rejects reader text with accepts | ⟨e, -, rejects⟩
  · obtain ⟨y, n, run, accepted⟩ := accepts (call.dispatch depth) u₁
    rw [run] at read
    exact Except.ok.inj (Prod.mk.inj read).1 ▸ accepted
  · rw [rejects] at read
    cases read

/-- **Soundness.** What a value is converted to is the value, no value, or native to the type of the
field. -/
theorem converted_accepted {u u' : World} (h : Readable w.Resembles u) {v x : Value}
    (run : exec (convertBy (call.dispatch (depth + 1)) (.field f) v) u = (.ok x, u')) :
    x = v ∨ ∃ t k, (w.field f).type = .type t ∧ w.HasKind t k ∧ k.Accepts x := by
  rcases converted_eq_or_accepted serves kinds h run with same | ⟨t, k, m, held, kind, -, accepts⟩
  · exact .inl same
  · exact .inr ⟨t, k, held, kind, accepts⟩

variable [(call.dispatch (depth + 1)).Within World.Develops]

theorem settles_convertBy_catalog {u : World} (h : Readable w.Resembles u) (v : Value) :
    Settles (Readable w.Resembles) (convertBy (call.dispatch (depth + 1)) (.field f) v) u
      (u.Obstructed (call.dispatch (depth + 1)) f v) := by
  refine h.settles_convertBy (fun t held => ?_) (Provider.words_display call (depth + 1)) v
  obtain ⟨k, kind⟩ := kinds t (h.2.field f ▸ held)
  exact kind.readsPolitely serves depth

/-- A coercion fails only as writing or showing a value can fail. -/
theorem wording_of_convertBy_error {u u' : World} (h : Readable w.Resembles u) {v : Value}
    {e : Fault}
    (run : exec (convertBy (call.dispatch (depth + 1)) (.field f) v) u = (.error e, u')) :
    e.IsWording := by
  have obstructed := (settles_convertBy_catalog serves kinds h v).fails_iff.mp ⟨e, u', run⟩
  cases obstructed with
  | @accessor t c reads accessor =>
    obtain ⟨k, kind⟩ := kinds t (h.2.reads_iff.mp reads).type
    obtain ⟨m, n, -, rfl⟩ := (h.2.hasKind kind).reader_eq reads.reader
    cases accessor
  | tooDeep reads unwritten =>
    rw [reads.exec_convertBy h.1.plain, readThrough_eq,
      exec_orElseOn_throw (exec_bind_error unwritten _) rfl] at run
    exact Except.error.inj (Prod.mk.inj run).1 ▸ .tooDeep
  | @unshown t c reads e₁ e₂ u₁ u₂ failed passed unshown =>
    have sound := (Along.out (R := World.Develops)
      (a := textOf (call.dispatch (depth + 1)) v >>= readText (call.dispatch (depth + 1)) (.type t))
      u h.1).1
    rw [failed] at sound
    have faults := (words_shown (Provider.words_display call (depth + 1)) v sound.plain).2
    rw [unshown] at faults
    rw [reads.exec_convertBy h.1.plain, readThrough_eq, exec_orElseOn_error failed passed] at run
    unfold leaveUnread at run
    rw [exec_bind_error unshown] at run
    exact Except.error.inj (Prod.mk.inj run).1 ▸ faults e₂ rfl

omit kinds in
/-- A value that was left because its text could not be read is left again. -/
theorem yields_of_left {t : Nat} {c : Capability} {v x : Value} (reads : w.Reads f v t c)
    {k : CatalogKind} (kind : w.HasKind t k) {e : Fault} (passed : e.isCoercionFault = true)
    (failed : ∀ u, Readable w.Resembles u → ∃ u₁,
      exec (textOf (call.dispatch (depth + 1)) v >>= readText (call.dispatch (depth + 1)) (.type t)) u
        = (.error e, u₁) ∧ Readable w.Resembles u₁)
    (shows : Uniform (Readable w.Resembles) (shown (call.dispatch (depth + 1)) v))
    {u u' : World} (h : Readable w.Resembles u)
    (run : exec (convertBy (call.dispatch (depth + 1)) (.field f) v) u = (.ok x, u')) :
    Yields (Readable w.Resembles) (convertBy (call.dispatch (depth + 1)) (.field f) x) x := by
  have left : ∀ u, Readable w.Resembles u → ∃ u₁, Readable w.Resembles u₁ ∧
      exec (convertBy (call.dispatch (depth + 1)) (.field f) v) u
        = exec (leaveUnread (call.dispatch (depth + 1)) f (.type t) v e) u₁ := by
    intro u h
    obtain ⟨u₁, unread, h₁⟩ := failed u h
    refine ⟨u₁, h₁, ?_⟩
    rw [(h.2.reads_iff.mpr reads).exec_convertBy h.1.plain, readThrough_eq,
      exec_orElseOn_error unread passed]
  obtain ⟨u₁, h₁, same⟩ := left u h
  rw [same] at run
  obtain rfl := eq_of_leaveUnread run
  obtain ⟨r, shows⟩ := shows
  intro u₂ h₂
  obtain ⟨u₃, h₃, same⟩ := left u₂ h₂
  rw [same]
  rcases h₃.exec_leaveUnread (kind.readsPolitely serves depth)
    (Provider.words_display call (depth + 1)) f x e with
    ⟨e', _, unshown, -⟩ | ⟨_, _, u₄, -, leave, h₄⟩
  -- a value that could be shown the first time can be shown again
  · obtain ⟨_, again, -⟩ := shows u₃ h₃
    obtain rfl : r = .error e' := (Prod.mk.inj (again.symm.trans unshown)).1
    obtain ⟨_, first, -⟩ := shows u₁ h₁
    unfold leaveUnread at run
    rw [exec_bind_error first] at run
    cases run
  · exact ⟨u₄, leave, h₄⟩

omit kinds in
/-- The same whatever the fault is: with one that is not passed over nothing was given. -/
theorem yields_of_failed {t : Nat} {c : Capability} {v x : Value} (reads : w.Reads f v t c)
    {k : CatalogKind} (kind : w.HasKind t k) {e : Fault}
    (failed : ∀ u, Readable w.Resembles u → ∃ u₁,
      exec (textOf (call.dispatch (depth + 1)) v >>= readText (call.dispatch (depth + 1)) (.type t)) u
        = (.error e, u₁) ∧ Readable w.Resembles u₁)
    (shows : Uniform (Readable w.Resembles) (shown (call.dispatch (depth + 1)) v))
    {u u' : World} (h : Readable w.Resembles u)
    (run : exec (convertBy (call.dispatch (depth + 1)) (.field f) v) u = (.ok x, u')) :
    Yields (Readable w.Resembles) (convertBy (call.dispatch (depth + 1)) (.field f) x) x := by
  cases passed : e.isCoercionFault with
  | true => exact yields_of_left serves reads kind passed failed shows h run
  | false =>
    obtain ⟨u₁, failed, -⟩ := failed u h
    rw [(h.2.reads_iff.mpr reads).exec_convertBy h.1.plain, readThrough_eq,
      exec_orElseOn_throw failed passed] at run
    cases run

/-- **Idempotence.** What a value is converted to converts to itself, if the value is worded in the
same way everywhere. -/
theorem yields_of_convertBy {u u' : World} (h : Readable w.Resembles u) {v x : Value}
    (alike : w.WordedAlike (call.dispatch (depth + 1)) v)
    (run : exec (convertBy (call.dispatch (depth + 1)) (.field f) v) u = (.ok x, u')) :
    Yields (Readable w.Resembles) (convertBy (call.dispatch (depth + 1)) (.field f) x) x := by
  by_cases reads : ∃ t c, w.Reads f v t c
  · obtain ⟨t, c, reads⟩ := reads
    obtain ⟨k, kind⟩ := kinds t reads.type
    obtain ⟨m, n, reader, -⟩ := kind.reader_eq reads.reader
    obtain ⟨r, written⟩ := alike.text
    cases r with
    | error e =>
      refine yields_of_failed serves reads kind (e := e) (fun u h => ?_) alike.shown h run
      obtain ⟨u₁, written, h₁⟩ := written u h
      exact ⟨u₁, exec_bind_error written _, h₁⟩
    | ok text =>
      have read : ∀ u, Readable w.Resembles u → ∃ u₁, Readable w.Resembles u₁ ∧
          exec (textOf (call.dispatch (depth + 1)) v
            >>= readText (call.dispatch (depth + 1)) (.type t)) u
          = exec (m.apply (call.dispatch depth) (.str text)) u₁ := by
        intro u h
        obtain ⟨u₁, written, h₁⟩ := written u h
        refine ⟨u₁, h₁, ?_⟩
        rw [exec_bind_ok written]
        exact (h₁.2.hasKind kind).exec_readText serves depth h₁.1.plain reader text
      rcases reads_or_rejects reader text with accepts | ⟨e, -, rejects⟩
      · obtain ⟨u₁, h₁, same⟩ := read u h
        obtain ⟨y, n, given, accepted⟩ := accepts (call.dispatch depth) u₁
        rw [(h.2.reads_iff.mpr reads).exec_convertBy h.1.plain, readThrough_eq,
          exec_orElseOn_ok (same.trans given)] at run
        obtain rfl := Except.ok.inj (Prod.mk.inj run).1
        exact yields_of_unread kinds (accepted.not_reads reads.type kind)
      · refine yields_of_failed serves reads kind (e := e) (fun u h => ?_) alike.shown h run
        obtain ⟨u₁, h₁, same⟩ := read u h
        exact ⟨u₁, by rw [same, rejects], h₁⟩
  · have still : ∀ t c, ¬ w.Reads f v t c := fun t c there => reads ⟨t, c, there⟩
    obtain ⟨_, kept, -⟩ := yields_of_unread (d := call.dispatch (depth + 1)) kinds still u h
    rw [kept] at run
    obtain rfl := Except.ok.inj (Prod.mk.inj run).1
    exact yields_of_unread kinds still

end Values

/-! ## Records -/

section Records

variable {d : Dispatch} {w : World} {s : Nat} {P : Nat → Prop}
  (converts : Converts d s (Readable w.Resembles) P)

/-- What a value is converted to for a field converts to itself. -/
def World.Stays (d : Dispatch) (w : World) (f : Nat) : Prop :=
  ∀ v x u u', Readable w.Resembles u → w.WordedAlike d v →
    exec (convertBy d (.field f) v) u = (.ok x, u') →
    Yields (Readable w.Resembles) (convertBy d (.field f) x) x

/-- An entry converts to itself, whatever was converted before it. -/
def World.EntryStays (d : Dispatch) (w : World) (s : Nat) (sanitizing : Bool)
    (entry : Value × Value) : Prop :=
  ∀ converted, Yields (Readable w.Resembles) (convertEntry d s sanitizing converted entry)
    (converted ++ [entry])

variable (stays : ∀ f, P f → w.Stays d f)

include converts stays

theorem yields_of_convertField (sanitizing : Bool) {f : Nat} (there : P f) {v x : Value}
    (alike : ∀ i ∈ v :: v.sequence?.getD [], w.WordedAlike d i) {u u' : World}
    (h : Readable w.Resembles u)
    (run : exec (convertField d sanitizing (.field f) v) u = (.ok (some x), u')) :
    Yields (Readable w.Resembles) (convertField d sanitizing (.field f) x) (some x) := by
  have array : ∀ u, Readable w.Resembles u →
      exec (holdsArray d (.field f)) u = (.ok (w.field f).isArray, u) := fun u h => by
    rw [← h.2.field f]
    exact exec_fieldIsArray d h.1.plain f
  unfold convertField at run ⊢
  rw [exec_bind_ok (array u h)] at run
  refine (yields_of_still array).bind ?_
  cases many : (w.field f).isArray with
  | false =>
    rw [many] at run
    obtain ⟨y, u₁, converted, last⟩ := exec_bind_eq_ok.mp
      (show exec (convertBy d (.field f) v >>= _) u = _ from run)
    obtain rfl := Option.some.inj (exec_pure_eq_ok.mp last).1
    exact (stays f there v y u u₁ h (alike v List.mem_cons_self) converted).bind (yields_pure _)
  | true =>
    rw [many] at run
    cases sequence : v.sequence? with
    | some items =>
      rw [sequence] at run alike
      obtain ⟨xs, u₁, converted, last⟩ := exec_bind_eq_ok.mp
        (show exec (items.mapM (convertBy d (.field f)) >>= _) u = _ from run)
      obtain rfl := Option.some.inj (exec_pure_eq_ok.mp last).1
      have each := forall_of_mapM items (fun i inside u y u₂ h run =>
        ⟨(converts.values u h f there i).of_ok run,
          stays f there i y u u₂ h (alike i (List.mem_cons_of_mem v inside)) run⟩) h converted
      exact (yields_mapM each).bind (yields_pure _)
    | none =>
      rw [sequence] at run
      cases sanitizing with
      | true => cases (exec_pure_eq_ok.mp (show exec (pure none) u = _ from run)).1
      | false =>
        obtain ⟨y, u₁, converted, last⟩ := exec_bind_eq_ok.mp
          (show exec (convertBy d (.field f) v >>= _) u = _ from run)
        obtain rfl := Option.some.inj (exec_pure_eq_ok.mp last).1
        have each := stays f there v y u u₁ h (alike v List.mem_cons_self) converted
        have all : ∀ z ∈ [y], Yields (Readable w.Resembles) (convertBy d (.field f) z) z := by
          simpa using each
        exact (yields_mapM all).bind (yields_pure _)

theorem entryStays_of_convertEntry (sanitizing : Bool) (converted : Entries)
    {entry : Value × Value} (keyed : entry.1.hashable = true)
    (alike : ∀ i ∈ entry.2 :: entry.2.sequence?.getD [], w.WordedAlike d i) {u u' : World}
    (h : Readable w.Resembles u) {converted' : Entries}
    (run : exec (convertEntry d s sanitizing converted entry) u = (.ok converted', u')) :
    Readable w.Resembles u' ∧
      ∃ new, converted' = converted ++ new ∧ ∀ e ∈ new, w.EntryStays d s sanitizing e := by
  refine ⟨(converts.settles_convertEntry h sanitizing converted keyed).of_ok run, ?_⟩
  have found : ∀ u, Readable w.Resembles u →
      exec (findField d s entry.1) u = (.ok ((w.fieldNamed? s entry.1).getD .null), u) := fun u h => by
    rw [← h.2.fieldNamed? s]
    exact h.1.exec_findField d s keyed
  -- an entry that was kept is kept again, with its field's value or without a field
  have again : ∀ x, (∀ converted, Yields (Readable w.Resembles)
      (do
        let field := (w.fieldNamed? s entry.1).getD .null
        let value ← if field.isNull then pure (if sanitizing then none else some x)
          else convertField d sanitizing field x
        return converted ++ (value.map fun v => (entry.1, v)).toList)
      (converted ++ [(entry.1, x)])) → w.EntryStays d s sanitizing (entry.1, x) :=
    fun x gives converted => (yields_of_still found).bind (gives converted)
  unfold convertEntry at run
  rw [exec_bind_ok (found u h)] at run
  cases named : w.fieldNamed? s entry.1 with
  | none =>
    rw [named] at run again
    obtain ⟨rfl, -⟩ := exec_pure_eq_ok.mp run
    refine ⟨_, rfl, fun e there => ?_⟩
    cases sanitizing with
    | true => cases there
    | false =>
      obtain rfl := List.mem_singleton.mp there
      exact again entry.2 fun converted => yields_pure _
  | some v =>
    obtain ⟨f, rfl⟩ := h.1.field_of_fieldNamed? ((h.2.fieldNamed? s _).trans named)
    rw [named] at run again
    obtain ⟨value, u₁, first, last⟩ := exec_bind_eq_ok.mp
      (show exec (convertField d sanitizing (.field f) entry.2 >>= _) u = _ from run)
    obtain ⟨rfl, -⟩ := exec_pure_eq_ok.mp last
    refine ⟨_, rfl, fun e there => ?_⟩
    cases value with
    | none => cases there
    | some x =>
      obtain rfl := List.mem_singleton.mp there
      have field := yields_of_convertField converts stays sanitizing
        (converts.fields u h _ f ((h.2.fieldNamed? s _).trans named)) alike h first
      exact again x fun converted => field.bind (yields_pure _)

theorem entriesStay_of_convert (sanitizing : Bool) {record x : Value}
    (keyed : ∀ u, Readable w.Resembles u → ∀ entries, u.mapping? record = some entries →
      ∀ e ∈ entries, e.1.hashable = true ∧
        ∀ i ∈ e.2 :: e.2.sequence?.getD [], w.WordedAlike d i) {u u' : World}
    (h : Readable w.Resembles u) (mapping : (u.mapping? record).isSome = true)
    (run : exec (convert d s record sanitizing) u = (.ok x, u')) :
    Readable w.Resembles u' ∧
      ∃ new, x = .freshDict new ∧ ∀ e ∈ new, w.EntryStays d s sanitizing e := by
  cases record with
  | dict share entries =>
    obtain ⟨converted, u₁, folded, last⟩ := exec_bind_eq_ok.mp run
    obtain ⟨rfl, rfl⟩ := exec_pure_eq_ok.mp last
    obtain ⟨h', _, rfl, each⟩ := forall_of_foldlM entries (fun converted e there u₂ _ _ h₂ run =>
      entryStays_of_convertEntry converts stays sanitizing converted (keyed u h _ rfl e there).1
        (keyed u h _ rfl e there).2 h₂ run) h folded
    exact ⟨h', _, rfl, each⟩
  | live part readOnly =>
    obtain ⟨converted, u₁, walked, last⟩ := exec_bind_eq_ok.mp run
    obtain ⟨rfl, rfl⟩ := exec_pure_eq_ok.mp last
    rw [exec_walkPart] at walked
    generalize (u.partEntries part).length = size at walked
    -- A live part is walked by position, and its size is checked at each of them.
    have position : ∀ converted i u converted' u', Readable w.Resembles u →
        exec (convertAt d s sanitizing part size converted i) u = (.ok converted', u') →
        Readable w.Resembles u' ∧
          ∃ new, converted' = converted ++ new ∧ ∀ e ∈ new, w.EntryStays d s sanitizing e := by
      intro converted i u converted' u' h run
      unfold convertAt at run
      by_cases same : (u.partEntries part).length = size
      · rw [exec_bind_ok (exec_entriesOfSize same)] at run
        cases found : (u.partEntries part)[i]? with
        | none =>
          rw [found] at run
          obtain ⟨rfl, rfl⟩ := exec_pure_eq_ok.mp run
          exact ⟨h, [], by simp⟩
        | some entry =>
          rw [found] at run
          have there := keyed u h _ rfl entry (List.mem_of_getElem? found)
          exact entryStays_of_convertEntry converts stays sanitizing converted there.1 there.2 h run
      · rw [exec_bind_error (exec_entriesOfSize_of_ne same)] at run
        cases run
    obtain ⟨h', _, rfl, each⟩ := forall_of_foldlM _
      (fun converted i _ => position converted i) h walked
    exact ⟨h', _, rfl, each⟩
  | _ => cases mapping

omit converts stays in
/-- Entries that convert to themselves one by one convert to themselves together. -/
theorem yields_convertEntries {sanitizing : Bool} {entries : Entries}
    (each : ∀ e ∈ entries, w.EntryStays d s sanitizing e) :
    Yields (Readable w.Resembles) (convertEntries d s sanitizing entries) entries := by
  have fold : ∀ converted, Yields (Readable w.Resembles)
      (entries.foldlM (convertEntry d s sanitizing) converted) (converted ++ entries) := by
    induction entries with
    | nil =>
      intro converted
      rw [List.append_nil]
      exact yields_pure _
    | cons e rest ih =>
      intro converted
      have further := ih (fun e there => each e (List.mem_cons_of_mem _ there)) (converted ++ [e])
      rw [← List.append_cons] at further
      rw [List.foldlM_cons]
      exact (each e List.mem_cons_self converted).bind further
  exact fold []

end Records

/-! ## Schemas of the catalog -/

/-- The types of the fields of a schema, where they have types, are of kinds. -/
def World.OfCatalog (w : World) (s : Nat) : Prop :=
  ∀ n f t, w.fieldNamed? s n = some (.field f) → (w.field f).type = .type t → ∃ k, w.HasKind t k

/-- A schema is over the catalog if the types of its fields are known in a seeded registry or inherit
from known ones. -/
theorem World.Seeded.ofCatalog {w : World} {r : Nat} {known : List (String × CatalogKind)}
    (seeded : w.Seeded r known) {s : Nat}
    (fields : ∀ n f t, w.fieldNamed? s n = some (.field f) → (w.field f).type = .type t →
      t ∈ w.typesOf r ∧ ∃ e ∈ known, ∃ c, w.typeNamed? r e.1 = some c ∧ w.Inherits t c) :
    w.OfCatalog s := by
  intro n f t named held
  obtain ⟨registered, e, there, c, found, inherits⟩ := fields n f t named held
  obtain ⟨c', found', marshals⟩ := seeded.kinds e there
  obtain rfl := Option.some.inj (found.symm.trans found')
  exact ⟨e.2, seeded.sound.hasKind_of_inherits inherits registered marshals.toHasKind⟩

theorem World.OfCatalog.kinds {w : World} {s : Nat} (catalog : w.OfCatalog s) {f : Nat}
    (there : ∃ n, w.fieldNamed? s n = some (.field f)) (t : Nat)
    (held : (w.field f).type = .type t) : ∃ k, w.HasKind t k := by
  obtain ⟨n, found⟩ := there
  exact catalog n f t found held

/-- The fields of a schema over the catalog settle what becomes of their values. -/
theorem World.OfCatalog.converts {call : Provider} {depth : Nat}
    [(call.dispatch (depth + 1)).Within World.Develops] (serves : call.ServesCatalog) {w : World}
    {s : Nat} (catalog : w.OfCatalog s) :
    Converts (call.dispatch (depth + 1)) s (Readable w.Resembles)
      (fun f => ∃ n, w.fieldNamed? s n = some (.field f)) where
  sound _ h := h.1
  fields _ h n _ found := ⟨n, (h.2.fieldNamed? s n).symm.trans found⟩
  values _ h _ there v := settles_convertBy_catalog serves (catalog.kinds there) h v

/-- **Coercion.** In every session, for a schema over the catalog: a value is coerced to itself, to
no value, or to a value native to the type of its field, and a coercion fails only where a value that
is left cannot be written or shown. A mapping is converted, or one of its entries is obstructed, and
what it is converted to converts to itself. -/
theorem coercion_of_catalog {call : Provider} (user : call.Within World.Develops)
    (serves : call.ServesCatalog) {depth : Nat} {w₀ w : World} (start : w₀.NoObjects)
    (run : SchemaRun (call.dispatch (depth + 1)) w₀ w) (named : w.NamesAreTexts) {s : Nat}
    (catalog : w.OfCatalog s) :
    (∀ n f, w.fieldNamed? s n = some (.field f) → ∀ v,
      ((∃ e w', exec (convertBy (call.dispatch (depth + 1)) (.field f) v) w = (.error e, w'))
        ↔ w.Obstructed (call.dispatch (depth + 1)) f v) ∧
      (∀ e w', exec (convertBy (call.dispatch (depth + 1)) (.field f) v) w = (.error e, w') →
        e.IsWording) ∧
      ∀ x w', exec (convertBy (call.dispatch (depth + 1)) (.field f) v) w = (.ok x, w') →
        x = v ∨ ∃ t k, (w.field f).type = .type t ∧ w.HasKind t k ∧ k.Accepts x) ∧
    ∀ record sanitizing, (w.mapping? record).isSome = true → record.IsOpen w →
      (∀ entries, w.mapping? record = some entries → ∀ e ∈ entries, e.1.hashable = true) →
      ((∃ e w', exec (convert (call.dispatch (depth + 1)) s record sanitizing) w = (.error e, w'))
        ↔ w.RecordObstructed (call.dispatch (depth + 1)) s sanitizing record) ∧
      ∀ x w', exec (convert (call.dispatch (depth + 1)) s record sanitizing) w = (.ok x, w') →
        ∃ w'', exec (convert (call.dispatch (depth + 1)) s x sanitizing) w' = (.ok x, w'') := by
  have within := Provider.dispatch_develops user (depth + 1)
  have readable : Readable w.Resembles w := ⟨run.sound user start, .refl w⟩
  have converts : Converts (call.dispatch (depth + 1)) s (Readable w.Resembles) _ :=
    catalog.converts serves
  refine ⟨fun n f found v => ⟨?_, ?_, ?_⟩, fun record sanitizing mapping opened keyed => ?_⟩
  · exact (converts.values w readable f ⟨n, found⟩ v).fails_iff
  · exact fun e w' => wording_of_convertBy_error serves (catalog.kinds ⟨n, found⟩) readable
  · exact fun x w' => converted_accepted serves (catalog.kinds ⟨n, found⟩) readable
  have alike : ∀ v : Value, v.IsOpen w → w.WordedAlike (call.dispatch (depth + 1)) v :=
    fun v => wordedAlike_of_open named readable.1 call (depth + 1)
  have entries : ∀ u, Readable w.Resembles u → ∀ entries, u.mapping? record = some entries →
      ∀ e ∈ entries, e.1.hashable = true ∧ ∀ i ∈ e.2 :: e.2.sequence?.getD [],
        w.WordedAlike (call.dispatch (depth + 1)) i := by
    intro u h entries given e there
    rw [opened.mapping? h.2] at given
    have value := opened.entries given e there
    refine ⟨keyed entries given e there, List.forall_mem_cons.mpr ⟨alike _ value, fun i inside => ?_⟩⟩
    cases sequence : e.2.sequence? with
    | none =>
      rw [sequence] at inside
      cases inside
    | some items =>
      rw [sequence] at inside
      exact alike i (value.items sequence i inside)
  refine ⟨?_, fun x w' given => ?_⟩
  · exact (converts.settles_convert readable sanitizing mapping fun u h entries' given e there =>
      (entries u h entries' given e there).1).fails_iff
  · have stays : ∀ f, (∃ n, w.fieldNamed? s n = some (.field f)) →
        w.Stays (call.dispatch (depth + 1)) f :=
      fun f there v x u u' h alike => yields_of_convertBy serves (catalog.kinds there) h alike
    obtain ⟨h', new, rfl, each⟩ :=
      entriesStay_of_convert converts stays sanitizing entries readable mapping given
    obtain ⟨w'', again, -⟩ := yields_convertEntries each w' h'
    exact ⟨w'', exec_bind_ok again _⟩

/-- Whether what a field holds is of one of some kinds. -/
def World.holdsKind (w : World) (kinds : List CatalogKind) : FieldType → Bool
  | .type t => kinds.any fun k => decide (w.HasKind t k)
  | .schema _ => true

theorem World.kind_of_holdsKind {w : World} (kinds : List CatalogKind)
    (fields : ∀ f ∈ w.fields.toList, w.holdsKind kinds f.type = true)
    (default : w.holdsKind kinds (default : FieldNode).type = true) {f t : Nat}
    (held : (w.field f).type = .type t) : ∃ k, w.HasKind t k := by
  have holds : w.holdsKind kinds (w.field f).type = true := getD_of_all w.fields fields default f
  rw [held, holdsKind, List.any_eq_true] at holds
  obtain ⟨k, -, kind⟩ := holds
  exact ⟨k, of_decide_eq_true kind⟩

theorem World.ofCatalog_of_holdsKind {w : World} (kinds : List CatalogKind)
    (fields : ∀ f ∈ w.fields.toList, w.holdsKind kinds f.type = true)
    (default : w.holdsKind kinds (default : FieldNode).type = true) (s : Nat) : w.OfCatalog s :=
  fun _ _ _ _ held => World.kind_of_holdsKind kinds fields default held

theorem World.namesAreTexts_of_all {w : World}
    (all : ∀ s ∈ w.schemas.toList, s.collectionName.isNull || s.collectionName.text?.isSome) :
    w.NamesAreTexts := by
  intro s
  have name : (w.schema s).collectionName.isNull || (w.schema s).collectionName.text?.isSome :=
    getD_of_all w.schemas all rfl s
  cases named : (w.schema s).collectionName <;> rw [named] at name <;>
    first | exact .inl rfl | exact .inr ⟨_, rfl⟩ | cases name

/-- A seeded registry, a type derived from `Currency`, and a schema with fields of these types, one of
them an array. -/
def catalogSession : List SchemaOperation :=
  [.newRegistry, .define 0 (.seed true),
   .define 0 (.define (bareDefinition "Amount" (.str "Currency"))),
   .compile 0 (.ofFields [("amounts", .fresh [.str "Amount"]), ("at", .str "DateTime"),
     ("done", .str "YesNo")]) (.str "Orders") .null]

/-- Amounts are read from texts, but for what is no amount; to convert the result changes nothing. -/
theorem coercion_of_catalog_orders :
    let d := convertingOnly.dispatch 3
    let w := afterSession d catalogSession (.empty "" [])
    let record := Value.ofFields [("amounts", .tuple [.str " 12 ", .int 3, .str "x"]),
      ("at", .str "2024-05-06T07:08:09Z"), ("done", .int 1), ("note", .str " ")]
    convertingOnly.Within World.Develops ∧ convertingOnly.ServesCatalog ∧
    (World.empty "" []).NoObjects ∧ SchemaRun d (.empty "" []) w ∧ w.NamesAreTexts ∧
    w.OfCatalog 0 ∧ record.IsOpen w ∧
    ∃ x w' w'', exec (convert d 0 record false) w = (.ok x, w') ∧
      exec (convert d 0 x false) w' = (.ok x, w'') := by
  intro d w record
  have start : (World.empty "" []).NoObjects := ⟨rfl, rfl, rfl, rfl⟩
  have run : SchemaRun d (.empty "" []) w := by
    refine SchemaRun.afterSession catalogSession (fun o there w => ?_) _ .start
    simp only [catalogSession, List.mem_cons, List.not_mem_nil, or_false] at there
    rcases there with rfl | rfl | rfl | rfl <;> first | trivial | exact nofun
  obtain ⟨names, fields, default, converted⟩ :
      (∀ s ∈ w.schemas.toList, s.collectionName.isNull || s.collectionName.text?.isSome) ∧
      (∀ f ∈ w.fields.toList, w.holdsKind [.text, .number, .dateTime, .boolean] f.type = true) ∧
      w.holdsKind [.text, .number, .dateTime, .boolean] (default : FieldNode).type = true ∧
      (exec (convert d 0 record false) w).1.isOk = true := by decide +kernel
  have named : w.NamesAreTexts := World.namesAreTexts_of_all names
  have catalog : w.OfCatalog 0 := World.ofCatalog_of_holdsKind _ fields default 0
  have opened : record.IsOpen w := by
    refine .dict 0 (fun e there => ?_) (fun e there => ?_) <;>
      simp only [List.map_cons, List.map_nil, List.mem_cons, List.not_mem_nil, or_false] at there <;>
      rcases there with rfl | rfl | rfl | rfl
    case refine_2.inl =>
      refine .tuple fun v inside => ?_
      simp only [List.mem_cons, List.not_mem_nil, or_false] at inside
      rcases inside with rfl | rfl | rfl <;> exact .constant rfl
    all_goals exact .constant rfl
  have keyed : ∀ entries, w.mapping? record = some entries → ∀ e ∈ entries,
      e.1.hashable = true := by
    intro entries given e there
    obtain rfl := Option.some.inj given
    simp only [List.map_cons, List.map_nil, List.mem_cons, List.not_mem_nil, or_false] at there
    rcases there with rfl | rfl | rfl | rfl <;> rfl
  clear_value w
  rcases result : exec (convert d 0 record false) w with ⟨e | x, w'⟩
  · rw [result] at converted
    cases converted
  · obtain ⟨-, records⟩ := coercion_of_catalog convertingOnly_within servesCatalog_convertingOnly
      start run named catalog
    obtain ⟨w'', again⟩ := (records record false rfl opened keyed).2 x w' result
    exact ⟨convertingOnly_within, servesCatalog_convertingOnly, start, run, named, catalog, opened,
      x, w', w'', rfl, again⟩

end DataShape
