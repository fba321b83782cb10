import DataShape.Proofs.Schema.Reader
import DataShape.Proofs.Schema.Run
import DataShape.Proofs.Walk

/-! # Conversion of records

A record is converted entry by entry, an array item by item, and a value at a time. A conversion
goes on as long as no value is obstructed; it never fails for another reason, but for a mapping that
changes its size meanwhile.

* `World.RecordObstructed` — what keeps a record from being converted.
* `Converts` — the fields of a schema settle what becomes of their values.
* `Converts.settles_convert` — a record is converted, or obstructed.
* `convert_fails_iff` — a conversion fails just where the record is obstructed, in every session. -/

namespace DataShape

/-! ## Obstructed records -/

/-- The value of a field is obstructed, or one of its items in the world that those before it lead
to. -/
def World.FieldObstructed (d : Dispatch) (sanitizing : Bool) (w : World) (f : Nat) (v : Value) :
    Prop :=
  if (w.field f).isArray then
    match v.sequence? with
    | some items =>
        Blocked (·.mapM (convertBy d (.field f))) (fun w i => w.Obstructed d f i) items w
    | none => sanitizing = false ∧ w.Obstructed d f v
  else w.Obstructed d f v

/-- An entry is obstructed if the value of its field is; one without a field never is. -/
def World.EntryObstructed (d : Dispatch) (s : Nat) (sanitizing : Bool) (w : World)
    (entry : Value × Value) : Prop :=
  ∃ f, w.fieldNamed? s entry.1 = some (.field f) ∧ w.FieldObstructed d sanitizing f entry.2

/-- Convert the entry at a position of a part, which must have as many entries as at first. Behind
the last entry only that is checked. -/
def convertAt (d : Dispatch) (s : Nat) (sanitizing : Bool) (part : Part) (size : Nat)
    (converted : Entries) (i : Nat) : Action Entries := do
  match (← entriesOfSize part size)[i]? with
  | none => return converted
  | some entry => convertEntry d s sanitizing converted entry

/-- A position of a part is obstructed if the part has more or less entries than at first, or if the
entry at the position is obstructed. -/
def World.PositionObstructed (d : Dispatch) (s : Nat) (sanitizing : Bool) (part : Part) (size : Nat)
    (w : World) (i : Nat) : Prop :=
  (w.partEntries part).length ≠ size ∨
    ∃ entry, (w.partEntries part)[i]? = some entry ∧ w.EntryObstructed d s sanitizing entry

/-- A record is obstructed if one of its entries is, in the world that the entries before it lead
to. -/
def World.RecordObstructed (d : Dispatch) (s : Nat) (sanitizing : Bool) (w : World) :
    Value → Prop
  | .dict _ entries =>
      Blocked (convertEntries d s sanitizing) (World.EntryObstructed d s sanitizing) entries w
  | .live part _ =>
      let size := (w.partEntries part).length
      Blocked (·.foldlM (convertAt d s sanitizing part size) [])
        (World.PositionObstructed d s sanitizing part size) (List.range (size + 1)) w
  | _ => False

/-! ## Conversion of entries -/

/-- In worlds of a kind schemas are sound, and the fields that a schema has there settle what becomes
of their values. -/
structure Converts (d : Dispatch) (s : Nat) (S : World → Prop) (P : Nat → Prop) : Prop where
  sound : ∀ w, S w → w.SoundSchemas
  fields : ∀ w, S w → ∀ n f, w.fieldNamed? s n = some (.field f) → P f
  values : ∀ w, S w → ∀ f, P f → ∀ v, Settles S (convertBy d (.field f) v) w (w.Obstructed d f v)

namespace Converts

variable {d : Dispatch} {s : Nat} {S : World → Prop} {P : Nat → Prop}
  (converts : Converts d s S P) {w : World}

include converts

theorem settles_convertField (h : S w) (sanitizing : Bool) {f : Nat} (there : P f) (v : Value) :
    Settles S (convertField d sanitizing (.field f) v) w (w.FieldObstructed d sanitizing f v) := by
  have array : exec (holdsArray d (.field f)) w = (.ok (w.field f).isArray, w) :=
    exec_fieldIsArray d (converts.sound w h).plain f
  unfold convertField World.FieldObstructed
  refine .after array ?_
  cases (w.field f).isArray with
  | false => exact (converts.values w h f there v).bind_pure _
  | true =>
    cases v.sequence? with
    | some items =>
      exact (settles_mapM items (fun i _ u h => converts.values u h f there i) w h).bind_pure _
    | none =>
      cases sanitizing with
      | true => exact settles_pure h _ nofun
      | false =>
        have single := converts.values w h f there v
        simpa using single.bind_pure fun x => some (Value.fresh [x])

theorem settles_convertEntry (h : S w) (sanitizing : Bool) (converted : Entries)
    {entry : Value × Value} (keyed : entry.1.hashable = true) :
    Settles S (convertEntry d s sanitizing converted entry) w
      (w.EntryObstructed d s sanitizing entry) := by
  have sound := converts.sound w h
  unfold convertEntry World.EntryObstructed
  refine .after (sound.exec_findField d s keyed) ?_
  cases named : w.fieldNamed? s entry.1 with
  | none =>
    refine .after rfl (settles_pure h _ ?_)
    rintro ⟨f, found, -⟩
    cases found
  | some v =>
    obtain ⟨f, rfl⟩ := sound.field_of_fieldNamed? named
    have here : (∃ g, some (Value.field f) = some (.field g) ∧
        w.FieldObstructed d sanitizing g entry.2) ↔ w.FieldObstructed d sanitizing f entry.2 := by
      simp
    rw [here]
    exact (converts.settles_convertField h sanitizing (converts.fields w h _ f named)
      entry.2).bind_pure _

theorem settles_convertEntries (h : S w) (sanitizing : Bool) (entries : Entries)
    (keyed : ∀ e ∈ entries, e.1.hashable = true) :
    Settles S (convertEntries d s sanitizing entries) w
      (Blocked (convertEntries d s sanitizing) (World.EntryObstructed d s sanitizing) entries w) :=
  have steps : ∀ converted, ∀ e ∈ entries, ∀ u, S u → Settles S
      (convertEntry d s sanitizing converted e) u (u.EntryObstructed d s sanitizing e) :=
    fun converted e there _ h =>
      converts.settles_convertEntry h sanitizing converted (keyed e there)
  settles_foldlM entries steps [] w h

theorem settles_convertAt (h : S w) (sanitizing : Bool) (part : Part) (size : Nat)
    (keyed : ∀ e ∈ w.partEntries part, e.1.hashable = true) (converted : Entries) (i : Nat) :
    Settles S (convertAt d s sanitizing part size converted i) w
      (w.PositionObstructed d s sanitizing part size i) := by
  unfold convertAt World.PositionObstructed
  by_cases same : (w.partEntries part).length = size
  · refine .after (exec_entriesOfSize same) ?_
    cases found : (w.partEntries part)[i]? with
    | none => exact settles_pure h _ (by simp [same])
    | some entry =>
      have there := List.mem_of_getElem? found
      simpa [same] using converts.settles_convertEntry h sanitizing converted (keyed entry there)
  · exact .inr ⟨.inl same, .resized, w, exec_bind_error (exec_entriesOfSize_of_ne same) _⟩

end Converts

/-! ## Records -/

/-- To walk the last entries of a part is to convert them position by position, and to check the
size of the part once more. By induction on how many are left. -/
theorem exec_walkRest (d : Dispatch) (s : Nat) (sanitizing : Bool) (part : Part) (size : Nat) :
    ∀ (left : Nat), left ≤ size → ∀ (converted : Entries) (w : World),
      exec (walkRest part size (fun converted entry => do
        return (← convertEntry d s sanitizing converted entry, true)) left converted) w
      = exec ((List.range' (size - left) (left + 1)).foldlM
          (convertAt d s sanitizing part size) converted) w := by
  intro left
  induction left with
  | zero =>
    intro _ converted w
    rw [walkRest, Nat.sub_zero, Nat.zero_add, List.range'_one, List.foldlM_cons]
    simp only [List.foldlM_nil, bind_pure]
    rw [convertAt]
    by_cases same : (w.partEntries part).length = size
    · have sized := exec_entriesOfSize same
      rw [exec_bind_ok sized, List.getElem?_eq_none (Nat.le_of_eq same),
        exec_bind_ok (show exec (discard (entriesOfSize part size)) w = (.ok ⟨⟩, w) by
          rw [exec_discard_eq, sized])]
    · have resized := exec_entriesOfSize_of_ne same
      rw [exec_bind_error resized,
        exec_bind_error (show exec (discard (entriesOfSize part size)) w = (.error .resized, w) by
          rw [exec_discard_eq, resized])]
  | succ left ih =>
    intro inside converted w
    -- The first of the positions that are left is the entry that is converted now.
    have split : List.range' (size - (left + 1)) (left + 1 + 1)
        = (size - (left + 1)) :: List.range' (size - left) (left + 1) := by
      rw [List.range'_succ]
      congr 2
      omega
    rw [walkRest, split, List.foldlM_cons, convertAt]
    by_cases same : (w.partEntries part).length = size
    · have sized := exec_entriesOfSize same
      obtain ⟨entry, found⟩ : ∃ entry, (w.partEntries part)[size - (left + 1)]? = some entry :=
        ⟨_, List.getElem?_eq_getElem (by omega)⟩
      rw [exec_bind_ok sized, bind_assoc, exec_bind_ok sized, found]
      dsimp only
      rw [bind_assoc]
      rcases run : exec (convertEntry d s sanitizing converted entry) w with ⟨e | converted', w'⟩
      · rw [exec_bind_error run, exec_bind_error run]
      · rw [exec_bind_ok run, exec_bind_ok run]
        exact ih (by omega) converted' w'
    · have resized := exec_entriesOfSize_of_ne same
      rw [exec_bind_error resized, bind_assoc, exec_bind_error resized]

theorem exec_walkPart (d : Dispatch) (s : Nat) (sanitizing : Bool) (part : Part) (w : World) :
    exec (walkPart part (fun converted entry => do
        return (← convertEntry d s sanitizing converted entry, true)) []) w
      = exec ((List.range ((w.partEntries part).length + 1)).foldlM
          (convertAt d s sanitizing part (w.partEntries part).length) []) w := by
  unfold walkPart
  rw [exec_bind_ok (exec_get w), exec_walkRest d s sanitizing part _ _ (Nat.le_refl _),
    Nat.sub_self, List.range_eq_range']

/-- A mapping is converted, or one of its entries is obstructed. -/
theorem Converts.settles_convert {d : Dispatch} {s : Nat} {S : World → Prop} {P : Nat → Prop}
    (converts : Converts d s S P) {w : World} (h : S w) (sanitizing : Bool) {record : Value}
    (mapping : (w.mapping? record).isSome = true)
    (keyed : ∀ w, S w → ∀ entries, w.mapping? record = some entries →
      ∀ e ∈ entries, e.1.hashable = true) :
    Settles S (convert d s record sanitizing) w (w.RecordObstructed d s sanitizing record) := by
  cases record with
  | dict share entries =>
    exact (converts.settles_convertEntries h sanitizing entries (keyed w h entries rfl)).bind_pure _
  | live part readOnly =>
    have walked := settles_foldlM (List.range ((w.partEntries part).length + 1))
      (fun converted i _ w' h' => converts.settles_convertAt h' sanitizing part
        (w.partEntries part).length (keyed w' h' _ rfl) converted i) [] w h
    exact (walked.congr (exec_walkPart d s sanitizing part w)).bind_pure _
  | _ => cases mapping

/-- Where all types are polite, the fields of every schema settle what becomes of their values. -/
theorem Dispatch.Polite.converts {d : Dispatch} {Q : World → Prop} (polite : d.Polite Q)
    (display : ∀ (v : Value) (w : World), w.Plain → Words (d.display v) w)
    [d.Within World.Develops] (s : Nat) : Converts d s (Readable Q) fun _ => True where
  sound _ h := h.1
  fields _ _ _ _ _ := trivial
  values _ h _ _ v := h.settles_convertBy (fun t _ => polite.readsPolitely t) display v

/-- A conversion fails just where the record is obstructed, in every session. Otherwise it gives a
mapping, and a value in it that was not read is the value of the record. -/
theorem convert_fails_iff {call : Provider} (user : call.Within World.Develops) {depth : Nat}
    {w₀ w : World} (start : w₀.NoObjects) (run : SchemaRun (call.dispatch depth) w₀ w)
    {Q : World → Prop} (polite : (call.dispatch depth).Polite Q) (kept : Q w) {record : Value}
    (mapping : (w.mapping? record).isSome = true)
    (keyed : ∀ w, Q w → ∀ entries, w.mapping? record = some entries →
      ∀ e ∈ entries, e.1.hashable = true) (s : Nat) (sanitizing : Bool) :
    ((∃ e w', exec (convert (call.dispatch depth) s record sanitizing) w = (.error e, w'))
      ↔ w.RecordObstructed (call.dispatch depth) s sanitizing record) ∧
    (∀ x w', exec (convert (call.dispatch depth) s record sanitizing) w = (.ok x, w') →
      ∃ converted, x = .freshDict converted) ∧
    ∀ w₁, Readable Q w₁ → ∀ f v x w₂,
      exec (convertBy (call.dispatch depth) (.field f) v) w₁ = (.ok x, w₂) →
      x = v ∨ ∃ t c text w₃, w₁.Reads f v t c ∧
        exec (textOf (call.dispatch depth) v) w₁ = (.ok text, w₃) ∧
        exec (readText (call.dispatch depth) (.type t) text) w₃ = (.ok x, w₂) := by
  have within := Provider.dispatch_develops user depth
  have readable : Readable Q w := ⟨run.sound user start, kept⟩
  have settles := (polite.converts (Provider.words_display call depth) s).settles_convert readable
    sanitizing mapping fun w h => keyed w h.2
  refine ⟨settles.fails_iff, fun x w' given => ?_, fun w₁ h f v x w₂ given => ?_⟩
  · cases record with
    | dict share entries =>
      obtain ⟨converted, _, -, last⟩ := exec_bind_eq_ok.mp given
      exact ⟨converted, (exec_pure_eq_ok.mp last).1.symm⟩
    | live part readOnly =>
      obtain ⟨converted, _, -, last⟩ := exec_bind_eq_ok.mp given
      exact ⟨converted, (exec_pure_eq_ok.mp last).1.symm⟩
    | _ => cases mapping
  · exact converted_eq_or_read h.1.plain given

/-- A type that reads texts through a getter, and a schema with a field of that type. -/
def accessorSession : List SchemaOperation :=
  [.newRegistry, .define 0 (.define (bareDefinition "T" .null)),
   .define 0 (.install (.target .type) (.ofFields [("name", .str "from_string"),
     ("get", .function 1 (some "const") .forward [.str "v"])])),
   .compile 0 (.ofFields [("f", .str "T")]) .null .null]

/-- A type has no native representation, and its own reader is no function. -/
def TypeNode.readsNothing (n : TypeNode) : Bool :=
  (Table.get? n.attributes (.str "py_type")).isNone &&
    ((n.ownMember? (.str "from_string")).bind Value.capability?).all Capability.isAccessor

/-- Types that read nothing are polite, whatever happens to other objects. -/
theorem polite_of_readsNothing (d : Dispatch) {w : World}
    (h : (w.types.toList.all TypeNode.readsNothing) = true) :
    d.Polite fun w' => w'.types = w.types := by
  have all : ∀ w' : World, w'.types = w.types → ∀ t, (w'.type t).readsNothing = true := by
    intro w' same t
    rw [World.type, same]
    exact getD_of_all w.types (List.all_eq_true.mp h) rfl t
  have both : ∀ w' : World, w'.types = w.types → ∀ t,
      Table.get? (w'.type t).attributes (.str "py_type") = none ∧
      ∀ c : Capability, (w'.type t).ownMember? (.str "from_string") = some c.toValue →
        c.isAccessor = true := by
    intro w' same t
    have node := all w' same t
    rw [TypeNode.readsNothing, Bool.and_eq_true] at node
    refine ⟨Option.isNone_iff_eq_none.mp node.1, fun c found => ?_⟩
    simpa [found] using node.2
  refine ⟨fun w' same t v found => ?_, fun w' same t c reader host f bound => ?_,
    fun w' w'' same relisted => relisted.types.trans same, fun w' l same => same⟩
  · rw [(both w' same t).1] at found
    cases found
  · have accessor := (both w' same t).2 c reader
    have null : c.function = .null := by
      unfold Capability.isAccessor at accessor
      cases function : c.function <;> first | rfl | (rw [function] at accessor; cases accessor)
    unfold Capability.bind at bound
    rw [null] at bound
    obtain ⟨e, failed⟩ := exec_bind_throw (β := Value) (textOf d c.name)
      (fun name => .access (.notFunction name)) w'
    rw [failed] at bound
    cases bound

/-- A record with a value that is not native to the type cannot be converted. -/
theorem convert_fails_on_accessor :
    let d := answering.dispatch 2
    let w := afterSession d accessorSession (.empty "" [])
    let record := Value.ofFields [("f", .int 1)]
    answering.Within World.Develops ∧ (World.empty "" []).NoObjects ∧
    SchemaRun d (.empty "" []) w ∧ (d.Polite fun w' => w'.types = w.types) ∧
    (w.mapping? record).isSome = true ∧
    (∀ w' : World, w'.types = w.types → ∀ entries, w'.mapping? record = some entries →
      ∀ e ∈ entries, e.1.hashable = true) ∧
    w.RecordObstructed d 0 false record := by
  intro d w record
  have user : answering.Within World.Develops := answering_within
  have start : (World.empty "" []).NoObjects := ⟨rfl, rfl, rfl, rfl⟩
  have run : SchemaRun d (.empty "" []) w := by
    refine SchemaRun.afterSession accessorSession (fun o there w => ?_) _ .start
    simp only [accessorSession, List.mem_cons, List.not_mem_nil, or_false] at there
    rcases there with rfl | rfl | rfl | rfl <;> first | trivial | exact nofun
  have polite : d.Polite fun w' => w'.types = w.types :=
    polite_of_readsNothing d (by decide +kernel)
  have keyed : ∀ w' : World, w'.types = w.types → ∀ entries, w'.mapping? record = some entries →
      ∀ e ∈ entries, e.1.hashable = true := by
    intro w' _ entries given e there
    obtain rfl := Option.some.inj given
    simp only [List.map_cons, List.map_nil, List.mem_singleton] at there
    rw [there]
    rfl
  have failing : (match (exec (convert d 0 record false) w).1 with
      | .error (.notImplemented _ capability _ _) => capability == "from_string"
      | _ => false) = true := by decide +kernel
  have fails : ∃ e w', exec (convert d 0 record false) w = (.error e, w') := by
    rcases converted : exec (convert d 0 record false) w with ⟨e | x, w'⟩
    · exact ⟨e, w', rfl⟩
    · rw [converted] at failing
      cases failing
  clear_value w
  have mapping : (w.mapping? record).isSome = true := rfl
  exact ⟨user, start, run, polite, mapping, keyed,
    (convert_fails_iff user start run polite rfl mapping keyed 0 false).1.mp fails⟩

end DataShape
