import DataShape.Proofs.Registry.Journal
import DataShape.Proofs.Schema.Agreement
import DataShape.Proofs.Schema.Conversion
import DataShape.Proofs.Schema.Uniform

/-! # Outcomes of conversions

Where values are worded and texts are read in the same way everywhere, a conversion ends in one
way, whatever was converted before: it has an outcome, a result or a fault, that is told by a world.
Two readings of a text may give different objects, so results are told up to a relation.

* `Ends` — an action ends as told in all worlds of a kind; `Agrees` — it ends in one way.
* `agrees_convertBy` — the conversion of a value.
* `World.conversion`, `World.fieldConversion`, `World.entryConversion` — what conversions come to.
* `World.FieldAlike`, `World.EntryAlike` — results that are told apart as values of data types only.
* `ends_convert` — a mapping is converted entry by entry. -/

namespace DataShape

/-! ## Actions that end as told -/

/-- Two outcomes match: results that are related, or the same fault. -/
inductive Matches {α β : Type} (E : α → β → Prop) : Except Fault α → Except Fault β → Prop
  | ok {x : α} {y : β} (h : E x y) : Matches E (.ok x) (.ok y)
  | error (e : Fault) : Matches E (.error e) (.error e)

/-- In all worlds of a kind an action ends as told, and leads to such worlds. -/
def Ends {α β : Type} (E : α → β → Prop) (S : World → Prop) (a : Action β) (r : Except Fault α) :
    Prop :=
  ∀ u, S u → ∃ r' u', exec a u = (r', u') ∧ Matches E r r' ∧ S u'

/-- An action ends in one way in all worlds of a kind. -/
def Agrees {α : Type} (E : α → α → Prop) (S : World → Prop) (a : Action α) : Prop :=
  ∃ r, Ends E S a r

section Ends

variable {α β γ δ : Type} {S : World → Prop} {E : α → β → Prop} {F : γ → δ → Prop}

theorem ends_pure {x : α} {y : β} (h : E x y) : Ends E S (pure y) (.ok x) :=
  fun u kind => ⟨.ok y, u, rfl, .ok h, kind⟩

theorem ends_throw (e : Fault) : Ends E S (throw e : Action β) (.error e) :=
  fun u kind => ⟨.error e, u, rfl, .error e, kind⟩

/-- Only the runs in worlds of the kind matter. -/
theorem Ends.congr {a b : Action β} {r : Except Fault α} (same : ∀ u, S u → exec a u = exec b u)
    (ends : Ends E S b r) : Ends E S a r := by
  intro u h
  rw [same u h]
  exact ends u h

/-- A sequence ends as its steps do, one after the other. -/
theorem Ends.bind {a : Action β} {r : Except Fault α} {f : β → Action δ} {g : α → Except Fault γ}
    (first : Ends E S a r) (second : ∀ x y, E x y → Ends F S (f y) (g x)) :
    Ends F S (a >>= f) (r >>= g) := by
  intro u h
  obtain ⟨r', u', run, matched, h'⟩ := first u h
  cases matched with
  | error e => exact ⟨.error e, u', exec_bind_error run _, .error e, h'⟩
  | ok related =>
    rw [exec_bind_ok run]
    exact second _ _ related u' h'

/-- After a look-up that finds the same everywhere a sequence ends as what follows. -/
theorem Ends.after {ε : Type} {a : Action ε} {x : ε} {f : ε → Action δ} {r : Except Fault γ}
    (first : ∀ u, S u → exec a u = (.ok x, u)) (second : Ends F S (f x) r) :
    Ends F S (a >>= f) r := by
  intro u h
  rw [exec_bind_ok (first u h)]
  exact second u h

/-- A list is mapped as its items are. -/
theorem ends_mapM {ε : Type} {f : ε → Action β} {g : ε → Except Fault α} (items : List ε)
    (each : ∀ x ∈ items, Ends E S (f x) (g x)) :
    Ends (List.Forall₂ E) S (items.mapM f) (items.mapM g) := by
  induction items with
  | nil => exact ends_pure .nil
  | cons x rest ih =>
    rw [List.mapM_cons, List.mapM_cons]
    refine (each x List.mem_cons_self).bind fun y y' related => ?_
    refine (ih fun z there => each z (List.mem_cons_of_mem x there)).bind fun ys ys' others => ?_
    exact ends_pure (.cons related others)

/-- A fold ends as its steps do, where related states lead to related ones. -/
theorem ends_foldlM {ε : Type} {step : β → ε → Action β} {next : α → ε → Except Fault α}
    (items : List ε) (each : ∀ x ∈ items, ∀ s s', E s s' → Ends E S (step s' x) (next s x)) :
    ∀ s s', E s s' → Ends E S (items.foldlM step s') (items.foldlM next s) := by
  induction items with
  | nil => exact fun s s' related => ends_pure related
  | cons x rest ih =>
    intro s s' related
    rw [List.foldlM_cons, List.foldlM_cons]
    exact (each x List.mem_cons_self s s' related).bind
      (ih fun y there => each y (List.mem_cons_of_mem x there))

end Ends

section Agrees

variable {α β : Type} {S : World → Prop} {E : α → α → Prop}

/-- What ends in one way ends as it does in any world of the kind. -/
theorem Agrees.ends {a : Action α} (equal : Equivalence E) (agrees : Agrees E S a) {w : World}
    (here : S w) : Ends E S a (exec a w).1 := by
  obtain ⟨r, ends⟩ := agrees
  obtain ⟨r₀, w', run, matched, -⟩ := ends w here
  intro u h
  obtain ⟨r', u', run', matched', h'⟩ := ends u h
  refine ⟨r', u', run', ?_, h'⟩
  rw [run]
  cases matched with
  | error e =>
    cases matched'
    exact .error e
  | ok related =>
    cases matched' with
    | ok related' => exact .ok (equal.trans (equal.symm related) related')

/-- After a uniform step a sequence ends in one way if what follows does. -/
theorem Uniform.agrees {a : Action β} {f : β → Action α} (first : Uniform S a)
    (second : ∀ x, Agrees E S (f x)) : Agrees E S (a >>= f) := by
  obtain ⟨r, first⟩ := first
  cases r with
  | error e =>
    refine ⟨.error e, fun u h => ?_⟩
    obtain ⟨u', run, h'⟩ := first u h
    exact ⟨.error e, u', exec_bind_error run _, .error e, h'⟩
  | ok x =>
    obtain ⟨r, second⟩ := second x
    refine ⟨r, fun u h => ?_⟩
    obtain ⟨u₁, run, h₁⟩ := first u h
    rw [exec_bind_ok run]
    exact second u₁ h₁

/-- What is tried first and what is done instead end in one way. -/
theorem Agrees.orElseOn {a : Action α} {handle : Fault → Action α} (accept : Fault → Bool)
    (first : Agrees E S a) (second : ∀ e, Agrees E S (handle e)) :
    Agrees E S (orElseOn accept a handle) := by
  obtain ⟨r, first⟩ := first
  cases r with
  | ok x =>
    refine ⟨.ok x, fun u h => ?_⟩
    obtain ⟨_, u', run, ⟨related⟩, h'⟩ := first u h
    exact ⟨_, u', exec_orElseOn_ok run _ _, .ok related, h'⟩
  | error e =>
    cases accepted : accept e with
    | false =>
      refine ⟨.error e, fun u h => ?_⟩
      obtain ⟨_, u', run, ⟨⟩, h'⟩ := first u h
      exact ⟨_, u', exec_orElseOn_throw run accepted _, .error e, h'⟩
    | true =>
      obtain ⟨r, second⟩ := second e
      refine ⟨r, fun u h => ?_⟩
      obtain ⟨_, u', run, ⟨⟩, h'⟩ := first u h
      rw [exec_orElseOn_error run accepted]
      exact second u' h'

end Agrees

/-! ## Values -/

section Values

variable {d : Dispatch} {w : World} {S : World → Prop} (near : w.Vicinity S)
  {E : Value → Value → Prop}

include near

theorem World.Vicinity.yields_writeLog (origin : LogOrigin) (level : LogLevel) (text : String) :
    Yields S (writeLog origin level text) ⟨⟩ := by
  intro u h
  refine ⟨_, rfl, ?_⟩
  dsimp only
  split
  · split
    · exact near.logged u _ h
    · exact h
  · exact h

/-- A value that was not read stays as it is, or it cannot be shown for the same reason. -/
theorem uniform_leaveUnread {v : Value} (shows : Uniform S (shown d v)) (f t : Nat) (e : Fault) :
    Uniform S (leaveUnread d f (.type t) v e) := by
  refine shows.bind fun text => ?_
  have name : ∀ u, S u → exec (textOf d (u.fieldName f)) u = (.ok (w.field f).name, u) := by
    intro u h
    rw [(near.sound u h).plain.fieldName, (near.resembles u h).field]
    rfl
  have typeName : ∀ u, S u → exec (nameOf d (.type t)) u = (.ok (.str (w.type t).name), u) := by
    intro u h
    show (Except.ok (u.typeName t), u) = _
    rw [(near.sound u h).plain.typeName, (near.resembles u h).type]
  have logged := near.yields_writeLog .schema .debug
    s!"Leaving {text} unconverted for field '{(w.field f).name}' ({(w.type t).name}): {e.message}"
  refine .congr (fun u h => ?_) (.following (f := fun _ => pure v) logged (uniform_pure v))
  rw [exec_bind_ok (exec_get u), exec_bind_ok (name u h), exec_bind_ok (typeName u h), textOf_str,
    pure_bind]

/-- **Conversion of a value.** Where its wording is uniform, and the type of the field reads each
text in one way, a value is converted in one way. -/
theorem agrees_convertBy (equal : Equivalence E) {f : Nat} {v : Value}
    (text : Uniform S (textOf d v)) (shows : Uniform S (shown d v))
    (reads : ∀ t c, (w.field f).type = .type t → w.reader? t = some c → ∀ text,
      Agrees E S (readText d (.type t) text)) : Agrees E S (convertBy d (.field f) v) := by
  have kept : Agrees E S (pure v) := ⟨.ok v, ends_pure (equal.refl v)⟩
  have body : Agrees E S (w.converting d f v) := by
    unfold World.converting
    split
    · next t null held =>
      split
      · exact ⟨_, ends_throw .wrongType⟩
      · exact kept
      · cases reader : w.reader? t with
        | none => exact kept
        | some c =>
          rw [Option.isSome_some, if_pos rfl, readThrough_eq]
          refine (text.agrees (reads t c held reader)).orElseOn _ fun e => ?_
          obtain ⟨r, leaves⟩ := uniform_leaveUnread near shows f t e
          refine ⟨r, fun u h => ?_⟩
          obtain ⟨u', run, h'⟩ := leaves u h
          refine ⟨r, u', run, ?_, h'⟩
          cases r with
          | error e => exact .error e
          | ok x => exact .ok (equal.refl x)
    · exact kept
  obtain ⟨r, ends⟩ := body
  refine ⟨r, ends.congr fun u h => ?_⟩
  have same : u.converting d f v = w.converting d f v := by
    unfold World.converting
    simp only [(near.resembles u h).field, (near.resembles u h).representation,
      (near.resembles u h).reader?]
  rw [(near.sound u h).plain.exec_convertBy, same]

/-- A value of a field that holds records stays as it is. -/
theorem World.Vicinity.exec_convertBy_of_schema {f inner : Nat}
    (held : (w.field f).type = .schema inner) (v : Value) {u : World} (h : S u) :
    exec (convertBy d (.field f) v) u = (.ok v, u) := by
  rw [(near.sound u h).plain.exec_convertBy, World.converting, (near.resembles u h).field, held]
  cases v.isNull <;> rfl

end Values

/-! ## What conversions come to -/

/-- Two lists that are related to a third one are related to each other. -/
theorem forall₂_both {α β γ : Type} {R : α → β → Prop} {S : α → γ → Prop} {T : β → γ → Prop}
    (both : ∀ x y z, R x y → S x z → T y z) {xs : List α} {ys : List β} {zs : List γ}
    (first : List.Forall₂ R xs ys) (second : List.Forall₂ S xs zs) : List.Forall₂ T ys zs := by
  induction first generalizing zs with
  | nil =>
    cases second
    exact .nil
  | cons h _ ih =>
    cases second with
    | cons h' rest => exact .cons (both _ _ _ h h') (ih rest)

/-- What is in the second of two related lists is related to something in the first one. -/
theorem exists_of_forall₂ {α β : Type} {R : α → β → Prop} {xs : List α} {ys : List β}
    (related : List.Forall₂ R xs ys) {y : β} (there : y ∈ ys) : ∃ x ∈ xs, R x y := by
  induction related with
  | nil => cases there
  | cons h _ ih =>
    rcases List.mem_cons.mp there with rfl | there
    · exact ⟨_, List.mem_cons_self, h⟩
    · obtain ⟨x, inside, h⟩ := ih there
      exact ⟨x, List.mem_cons_of_mem _ inside, h⟩

namespace World

section Conversion

variable (d : Dispatch) (w : World)

/-- The values that are converted for a field: the items of an array, of which a single value counts
as the only item, or the value itself. -/
def fieldItems (f : Nat) (v : Value) : List Value :=
  if (w.field f).isArray then v.sequence?.getD [v] else [v]

/-- What the conversion of a value for a field comes to. -/
def conversion (f : Nat) (v : Value) : Except Fault Value := (exec (convertBy d (.field f) v) w).1

/-- The same for an array item by item. -/
def fieldConversion (f : Nat) (v : Value) : Except Fault Value :=
  if (w.field f).isArray then .fresh <$> (v.sequence?.getD [v]).mapM (w.conversion d f)
  else w.conversion d f v

/-- What the conversion of an entry comes to; one without a field is kept. -/
def entryConversion (s : Nat) (e : Value × Value) : Except Fault (Value × Value) :=
  match w.fieldNamed? s e.1 with
  | some (.field f) => (e.1, ·) <$> w.fieldConversion d f e.2
  | _ => .ok e

end Conversion

section Alike

variable (w : World) (E : Value → Value → Prop)

/-- Two results for a value: of a data type they are related, a nested record stays as it is. -/
def ItemAlike (f : Nat) : Value → Value → Prop :=
  match (w.field f).type with
  | .type _ => E
  | .schema _ => (· = ·)

/-- Two results for the value of a field, related item by item for an array. -/
def FieldAlike (f : Nat) (x y : Value) : Prop :=
  if (w.field f).isArray then
    ∃ xs ys, x = .fresh xs ∧ y = .fresh ys ∧ List.Forall₂ (w.ItemAlike E f) xs ys
  else w.ItemAlike E f x y

/-- Two results for an entry. -/
def EntryAlike (s : Nat) (a b : Value × Value) : Prop :=
  a.1 = b.1 ∧ match w.fieldNamed? s a.1 with
    | some (.field f) => w.FieldAlike E f a.2 b.2
    | _ => a.2 = b.2

variable {w} {E}

theorem itemAlike_of_type {f t : Nat} (held : (w.field f).type = .type t) :
    w.ItemAlike E f = E := by
  rw [ItemAlike, held]

theorem itemAlike_of_schema {f inner : Nat} (held : (w.field f).type = .schema inner) :
    w.ItemAlike E f = (· = ·) := by
  rw [ItemAlike, held]

theorem itemAlike_equivalence (equal : Equivalence E) (f : Nat) :
    Equivalence (w.ItemAlike E f) := by
  cases held : (w.field f).type with
  | type t => rwa [itemAlike_of_type held]
  | schema inner =>
    rw [itemAlike_of_schema held]
    exact ⟨fun _ => rfl, Eq.symm, Eq.trans⟩

/-- Two results that are like a third one are alike. -/
theorem FieldAlike.both (equal : Equivalence E) {f : Nat} {x y z : Value}
    (first : w.FieldAlike E f x y) (second : w.FieldAlike E f x z) : w.FieldAlike E f y z := by
  have equal := itemAlike_equivalence (w := w) equal f
  have between : ∀ x y z, w.ItemAlike E f x y → w.ItemAlike E f x z → w.ItemAlike E f y z :=
    fun _ _ _ h h' => equal.trans (equal.symm h) h'
  unfold FieldAlike at *
  split at first
  · next array =>
    rw [if_pos array] at second ⊢
    obtain ⟨xs, ys, rfl, rfl, related⟩ := first
    obtain ⟨xs', zs, same, rfl, related'⟩ := second
    obtain ⟨-, rfl⟩ := Value.list.inj same
    exact ⟨ys, zs, rfl, rfl, forall₂_both between related related'⟩
  · next single =>
    rw [if_neg single] at second ⊢
    exact between x y z first second

/-- What is put together from related values is alike. -/
theorem FieldAlike.alike (refl : ∀ v, E v v) {x y : Value} (related : w.FieldAlike E f x y) :
    Alike E x y := by
  have item : ∀ {x y : Value}, w.ItemAlike E f x y → E x y := by
    intro x y related
    cases held : (w.field f).type with
    | type t => rwa [itemAlike_of_type held] at related
    | schema inner =>
      rw [itemAlike_of_schema held] at related
      exact related ▸ refl x
  unfold FieldAlike at related
  split at related
  · obtain ⟨xs, ys, rfl, rfl, related⟩ := related
    refine .list ?_
    induction related with
    | nil => exact .nil
    | cons first _ ih => exact .cons (.given (item first)) ih
  · exact .given (item related)

end Alike

variable (d : Dispatch) (w : World)

/-- What becomes of the values of some entries under a schema is told by a world. -/
def Converts (E : Value → Value → Prop) (S : World → Prop) (s : Nat) (entries : Entries) : Prop :=
  ∀ e ∈ entries, e.1.hashable = true ∧ ∀ f, w.fieldNamed? s e.1 = some (.field f) →
    ∀ i ∈ w.fieldItems f e.2,
      Ends (w.ItemAlike E f) S (convertBy d (.field f) i) (w.conversion d f i)

/-- An entry is converted to another one, as far as results are told apart. -/
def Converted (E : Value → Value → Prop) (s : Nat) (e e' : Value × Value) : Prop :=
  ∃ g, w.entryConversion d s e = .ok g ∧ w.EntryAlike E s g e'

variable {d} {w} {E : Value → Value → Prop} {s : Nat} {e e' : Value × Value}

theorem Converted.key (converted : w.Converted d E s e e') : e.1 = e'.1 := by
  obtain ⟨g, given, key, -⟩ := converted
  rw [← key]
  unfold entryConversion at given
  split at given
  · cases result : w.fieldConversion d _ e.2 <;> rw [result] at given
    · cases given
    · exact (Except.ok.inj given) ▸ rfl
  · exact (Except.ok.inj given) ▸ rfl

/-- The value of a field is converted. -/
theorem Converted.value (converted : w.Converted d E s e e') {f : Nat}
    (named : w.fieldNamed? s e.1 = some (.field f)) :
    ∃ x, w.fieldConversion d f e.2 = .ok x ∧ w.FieldAlike E f x e'.2 := by
  obtain ⟨g, given, -, alike⟩ := converted
  unfold entryConversion at given
  rw [named] at given
  dsimp only at given
  cases result : w.fieldConversion d f e.2 with
  | error fault =>
    rw [result] at given
    cases given
  | ok x =>
    rw [result] at given
    obtain rfl := Except.ok.inj given
    dsimp only at alike
    rw [named] at alike
    exact ⟨x, rfl, alike⟩

/-- A value without a field is kept. -/
theorem Converted.value_of_unnamed (converted : w.Converted d E s e e')
    (unnamed : w.fieldNamed? s e.1 = none) : e.2 = e'.2 := by
  obtain ⟨g, given, -, alike⟩ := converted
  unfold entryConversion at given
  rw [unnamed] at given
  obtain rfl := Except.ok.inj given
  rwa [unnamed] at alike

end World

/-- To put results behind each other is to map. -/
theorem foldlM_concat {α β : Type} (g : α → Except Fault β) (items : List α) :
    ∀ before : List β, items.foldlM (fun ys x => (fun y => ys ++ [y]) <$> g x) before
      = (before ++ ·) <$> items.mapM g := by
  induction items with
  | nil =>
    intro before
    show Except.ok before = Except.ok (before ++ [])
    rw [List.append_nil]
  | cons x rest ih =>
    intro before
    rw [List.foldlM_cons, List.mapM_cons]
    cases g x with
    | error e => rfl
    | ok y =>
      show rest.foldlM _ (before ++ [y]) = _
      rw [ih]
      show _ = (before ++ ·) <$> (rest.mapM g >>= fun ys => Except.ok (y :: ys))
      cases rest.mapM g with
      | error e => rfl
      | ok ys => exact congrArg Except.ok (List.append_assoc ..)

/-- A fold over the positions of a list, of which the last one is behind all items, is a fold over
the items. -/
theorem foldlM_positions {α σ : Type} (next : σ → α → Except Fault σ) (items : List α) :
    ∀ (front : List α) (s : σ), (List.range' front.length (items.length + 1)).foldlM
      (fun s i => match (front ++ items)[i]? with
        | none => .ok s
        | some x => next s x) s = items.foldlM next s := by
  induction items with
  | nil =>
    intro front s
    simp [pure, Except.pure, bind, Except.bind]
  | cons x rest ih =>
    intro front s
    rw [List.length_cons, List.range'_succ, List.foldlM_cons, List.foldlM_cons]
    have here : (front ++ x :: rest)[front.length]? = some x := by simp
    rw [here]
    refine bind_congr fun s' => ?_
    simpa using ih (front ++ [x]) s'

/-- A list is mapped just if its items are, one by one. -/
theorem mapM_eq_ok_iff {α β : Type} {g : α → Except Fault β} {items : List α} {ys : List β} :
    items.mapM g = .ok ys ↔ List.Forall₂ (fun x y => g x = .ok y) items ys := by
  induction items generalizing ys with
  | nil =>
    rw [List.forall₂_nil_left_iff]
    exact ⟨fun h => (Except.ok.inj h).symm, fun h => congrArg Except.ok h.symm⟩
  | cons x rest ih =>
    rw [List.mapM_cons, List.forall₂_cons_left_iff]
    cases first : g x with
    | error e => simp [bind, Except.bind]
    | ok y =>
      simp only [← ih]
      cases rest.mapM g <;> simp [bind, Except.bind, pure, Except.pure, eq_comm]

/-- A list cannot be mapped just if one of its items cannot. -/
theorem mapM_fails_iff {α β : Type} {g : α → Except Fault β} {items : List α} :
    (∃ e, items.mapM g = .error e) ↔ ∃ x ∈ items, ∃ e, g x = .error e := by
  induction items with
  | nil => exact ⟨fun ⟨_, h⟩ => (by cases h), fun ⟨_, h, _⟩ => (by cases h)⟩
  | cons x rest ih =>
    rw [List.mapM_cons, List.exists_mem_cons_iff, ← ih]
    cases first : g x with
    | error e => simp [bind, Except.bind]
    | ok y => cases rest.mapM g <;> simp [bind, Except.bind, pure, Except.pure]

/-- Under a text two lists of entries with the same keys have entries that are related. -/
theorem get?_of_forall₂ {R : Value × Value → Value × Value → Prop} {es fs : Entries}
    (related : List.Forall₂ R es fs) (key : ∀ e f, R e f → e.1 = f.1) (m : String) :
    Table.get? es (.str m) = none ∧ Table.get? fs (.str m) = none ∨
      ∃ v y, Table.get? es (.str m) = some v ∧ Table.get? fs (.str m) = some y ∧
        (.str m, v) ∈ es ∧ R (.str m, v) (.str m, y) := by
  induction related with
  | nil => exact .inl ⟨rfl, rfl⟩
  | @cons e f _ _ first _ ih =>
    obtain ⟨k, v⟩ := e
    obtain ⟨k', y⟩ := f
    obtain rfl : k = k' := key _ _ first
    simp only [Table.get?_cons]
    cases here : k == Value.str m with
    | true =>
      rw [Value.beq_text, decide_eq_true_eq] at here
      obtain rfl := Value.eq_str_of_text? here
      exact .inr ⟨v, y, rfl, rfl, List.mem_cons_self, first⟩
    | false =>
      rcases ih with absent | ⟨v, y, found, found', there, h⟩
      · exact .inl absent
      · exact .inr ⟨v, y, found, found', List.mem_cons_of_mem _ there, h⟩

/-! ## Records -/

section Records

variable {d : Dispatch} {w : World} {S : World → Prop} (near : w.Vicinity S)
  {E : Value → Value → Prop} {s : Nat}

include near

/-- What becomes of the values of nested records is told in any case. -/
theorem World.Vicinity.ends_convertBy_of_schema {f inner : Nat} (here : S w)
    (held : (w.field f).type = .schema inner) (v : Value) :
    Ends (w.ItemAlike E f) S (convertBy d (.field f) v) (w.conversion d f v) := by
  intro u h
  rw [World.conversion, near.exec_convertBy_of_schema held v here, World.itemAlike_of_schema held]
  exact ⟨_, _, near.exec_convertBy_of_schema held v h, .ok rfl, h⟩

theorem ends_convertField {f : Nat} {v : Value}
    (each : ∀ i ∈ w.fieldItems f v,
      Ends (w.ItemAlike E f) S (convertBy d (.field f) i) (w.conversion d f i)) :
    Ends (fun x y => ∃ z, y = some z ∧ w.FieldAlike E f x z) S (convertField d false (.field f) v)
      (w.fieldConversion d f v) := by
  have array : ∀ u, S u → exec (holdsArray d (.field f)) u = (.ok (w.field f).isArray, u) := by
    intro u h
    rw [← (near.resembles u h).field f]
    exact exec_fieldIsArray d (near.sound u h).plain f
  unfold convertField World.fieldConversion
  refine .after array ?_
  unfold World.fieldItems at each
  unfold World.FieldAlike
  cases many : (w.field f).isArray with
  | false =>
    simp only [many, Bool.false_eq_true, if_false] at each ⊢
    rw [← bind_pure (w.conversion d f v)]
    exact (each v List.mem_cons_self).bind fun x y related => ends_pure ⟨y, rfl, related⟩
  | true =>
    simp only [many, if_true] at each ⊢
    rw [map_eq_pure_bind]
    cases sequence : v.sequence? with
    | some items =>
      rw [sequence] at each
      exact (ends_mapM items each).bind fun xs ys related =>
        ends_pure ⟨_, rfl, xs, ys, rfl, rfl, related⟩
    | none =>
      rw [sequence] at each
      rw [Option.getD_none, List.mapM_cons, bind_assoc]
      refine (each v List.mem_cons_self).bind fun x y related => ?_
      exact ends_pure ⟨_, rfl, [x], [y], rfl, rfl, .cons related .nil⟩

theorem ends_convertEntry (sound : w.SoundSchemas) {entries : Entries}
    (converts : w.Converts d E S s entries) {e : Value × Value} (there : e ∈ entries)
    {before before' : Entries} (alike : List.Forall₂ (w.EntryAlike E s) before before') :
    Ends (List.Forall₂ (w.EntryAlike E s)) S (convertEntry d s false before' e)
      ((fun x => before ++ [x]) <$> w.entryConversion d s e) := by
  obtain ⟨keyed, values⟩ := converts e there
  have found : ∀ u, S u →
      exec (findField d s e.1) u = (.ok ((w.fieldNamed? s e.1).getD .null), u) := fun u h => by
    rw [← (near.resembles u h).fieldNamed? s]
    exact (near.sound u h).exec_findField d s keyed
  have concat : ∀ {v v' : Value}, w.EntryAlike E s (e.1, v) (e.1, v') →
      List.Forall₂ (w.EntryAlike E s) (before ++ [(e.1, v)]) (before' ++ [(e.1, v')]) :=
    fun related => List.rel_append alike (.cons related .nil)
  unfold convertEntry World.entryConversion
  refine .after found ?_
  cases named : w.fieldNamed? s e.1 with
  | none => exact ends_pure (concat ⟨rfl, by rw [named]⟩)
  | some v =>
    obtain ⟨f, rfl⟩ := sound.field_of_fieldNamed? named
    have told : (fun x => before ++ [x]) <$> (e.1, ·) <$> w.fieldConversion d f e.2
        = w.fieldConversion d f e.2 >>= fun x => .ok (before ++ [(e.1, x)]) := by
      cases w.fieldConversion d f e.2 <;> rfl
    dsimp only
    rw [told]
    refine (ends_convertField near (values f named)).bind ?_
    rintro x _ ⟨z, rfl, related⟩
    exact ends_pure (concat ⟨rfl, by rw [named]; exact related⟩)

/-- **Conversion of a mapping.** A mapping with the same entries in all worlds of a kind is
converted entry by entry, until one of them fails. -/
theorem ends_convert (sound : w.SoundSchemas) (here : S w) {record : Value} {entries : Entries}
    (mapping : ∀ u, S u → u.mapping? record = some entries)
    (converts : w.Converts d E S s entries) :
    Ends (fun es x => ∃ fs, x = .freshDict fs ∧ List.Forall₂ (w.EntryAlike E s) es fs) S
      (convert d s record false) (entries.mapM (w.entryConversion d s)) := by
  have result : ∀ {a : Action Entries},
      Ends (List.Forall₂ (w.EntryAlike E s)) S a (entries.foldlM
        (fun es e => (fun x => es ++ [x]) <$> w.entryConversion d s e) []) →
      Ends (fun es x => ∃ fs, x = Value.freshDict fs ∧ List.Forall₂ (w.EntryAlike E s) es fs) S
        (do return .freshDict (← a)) (entries.mapM (w.entryConversion d s)) := by
    intro a ends
    rw [foldlM_concat] at ends
    have told : entries.mapM (w.entryConversion d s)
        = (([] ++ ·) <$> entries.mapM (w.entryConversion d s)) >>= .ok := by
      cases entries.mapM (w.entryConversion d s) <;> rfl
    rw [told]
    exact ends.bind fun es fs alike => ends_pure ⟨fs, rfl, alike⟩
  have step : ∀ e ∈ entries, ∀ es es', List.Forall₂ (w.EntryAlike E s) es es' →
      Ends (List.Forall₂ (w.EntryAlike E s)) S (convertEntry d s false es' e)
        ((fun x => es ++ [x]) <$> w.entryConversion d s e) :=
    fun e there es es' alike => ends_convertEntry near sound converts there alike
  have given := mapping w here
  cases record with
  | dict share own =>
    obtain rfl := Option.some.inj given
    exact result (ends_foldlM own step [] [] .nil)
  | live part readOnly =>
    refine result ?_
    -- The part is the same in all these worlds, so the walk by position comes to each of its entries.
    have whole : ∀ u, S u → u.partEntries part = entries :=
      fun u h => Option.some.inj (mapping u h)
    have walked : ∀ u, S u → exec (walkPart part (fun converted entry => do
          return (← convertEntry d s false converted entry, true)) []) u
        = exec ((List.range (entries.length + 1)).foldlM
            (convertAt d s false part entries.length) []) u := by
      intro u h
      rw [exec_walkPart, whole u h]
    refine .congr walked ?_
    have positions := foldlM_positions
      (fun es e => (fun x => es ++ [x]) <$> w.entryConversion d s e) entries [] []
    rw [← positions, List.length_nil, ← List.range_eq_range']
    refine ends_foldlM _ (fun i _ es es' alike => ?_) [] [] .nil
    have sized : ∀ u, S u → exec (entriesOfSize part entries.length) u = (.ok entries, u) := by
      intro u h
      rw [exec_entriesOfSize (by rw [whole u h]), whole u h]
    unfold convertAt
    refine .after sized ?_
    rw [List.nil_append]
    cases found : entries[i]? with
    | none => exact ends_pure alike
    | some e => exact step e (List.mem_of_getElem? found) es es' alike
  | _ => cases given

/-- So it fails where an entry cannot be converted, or every entry is converted to one that is told
by the world. -/
theorem exec_convert_cases (sound : w.SoundSchemas) (here : S w) {record : Value}
    {entries : Entries}
    (mapping : ∀ u, S u → u.mapping? record = some entries)
    (converts : w.Converts d E S s entries) {u : World} (h : S u) :
    (∃ e u', exec (convert d s record false) u = (.error e, u') ∧
      ∃ e ∈ entries, ∃ fault, w.entryConversion d s e = .error fault) ∨
    ∃ fs u', exec (convert d s record false) u = (.ok (.freshDict fs), u') ∧ S u' ∧
      List.Forall₂ (w.Converted d E s) entries fs := by
  obtain ⟨r, u', run, matched, h'⟩ := ends_convert near sound here mapping converts u h
  cases all : entries.mapM (w.entryConversion d s) with
  | error e =>
    rw [all] at matched
    cases matched
    exact .inl ⟨e, u', run, mapM_fails_iff.mp ⟨e, all⟩⟩
  | ok es =>
    rw [all] at matched
    obtain ⟨fs, rfl, alike⟩ : ∃ fs, r = .ok (.freshDict fs) ∧
        List.Forall₂ (w.EntryAlike E s) es fs := by
      cases matched with
      | ok related =>
        obtain ⟨fs, rfl, alike⟩ := related
        exact ⟨fs, rfl, alike⟩
    have first := (mapM_eq_ok_iff.mp all).flip
    exact .inr ⟨fs, u', run, h', forall₂_both (fun g e e' given alike => ⟨g, given, alike⟩) first
      alike⟩

end Records

end DataShape
