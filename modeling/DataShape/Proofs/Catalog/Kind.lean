import DataShape.Catalog
import DataShape.Proofs.Schema.Reader

/-! # Kinds of built-in types

The types of the catalog are of seven kinds. A kind has a native representation and, but for the
kind of all objects, a conversion to texts and one from texts. A type is of a kind if it has these
or inherits them, whatever else was added to it.

* `CatalogKind` — the kinds.
* `World.HasKind`, `World.Marshals` — what a type has of a kind: how it reads, and how it writes.
* `HasKind.of_base` — a type that sets neither representation nor reader is of the kind of its base.
* `Provider.ServesCatalog` — conversions are called as what they are.
* `reads_or_rejects` — a reader gives no value or a native one, or it refuses the text for good. -/

namespace DataShape

/-- The kinds of the types of the catalog. -/
inductive CatalogKind where
  | text | number | boolean | object | dateTime | date | time
deriving DecidableEq, Repr

namespace CatalogKind

/-- The native representation of a kind. -/
def representation : CatalogKind → Value
  | text => .native .str
  | number => .tuple [.native .int, .native .float]
  | boolean => .native .bool
  | object => .native .object
  | dateTime => .native .datetime
  | date => .native .date
  | time => .native .time

/-- The conversions of a kind to texts and from texts. -/
def conversions? : CatalogKind → Option (Marshaller × Marshaller)
  | text => some (.identity, .identity)
  | number => some (.numberToText, .numberFromText)
  | boolean => some (.booleanToText, .booleanFromText)
  | object => none
  | dateTime => some (.isoToText, .dateTimeFromText)
  | date => some (.isoToText, .dateFromText)
  | time => some (.isoToText, .timeFromText)

/-- The conversion of a kind to texts. -/
def writer? (k : CatalogKind) : Option Marshaller := k.conversions?.map Prod.fst

/-- The conversion of a kind from texts. -/
def reader? (k : CatalogKind) : Option Marshaller := k.conversions?.map Prod.snd

theorem isRepresentation (k : CatalogKind) : k.representation.IsRepresentation := by
  cases k <;> first | exact .native _ | exact .several (by simp)

/-- Whether a value is native to a kind. -/
def Holds (k : CatalogKind) (v : Value) : Prop := hasRepresentation? k.representation v = some true

/-- What a coercion may give: no value, or one that is native to the kind. -/
def Accepts (k : CatalogKind) (v : Value) : Prop := v = .null ∨ k.Holds v

end CatalogKind

/-- The first answer of a list is the same if every member answers the same. -/
theorem findSome?_eq_of_forall {α β : Type} {f g : α → Option β} {l : List α}
    (same : ∀ a ∈ l, f a = g a) : l.findSome? f = l.findSome? g := by
  induction l with
  | nil => rfl
  | cons a rest ih =>
    rw [List.findSome?_cons, List.findSome?_cons, same a List.mem_cons_self,
      ih fun b there => same b (List.mem_cons_of_mem a there)]

/-- The capability under which a conversion of the catalog is installed. -/
def Marshaller.capability (m : Marshaller) (slot : String) (identity : Nat) : Capability :=
  ⟨.str slot, .static identity none m.toValue, .null, .null⟩

namespace World

/-- A type has or inherits a conversion under a name, or it has nothing under the name. -/
def HasConversion (w : World) (t : Nat) (slot : String) : Option Marshaller → Prop
  | none => w.memberAlong? (w.lineage t) (.str slot) = none
  | some m => ∃ n, w.memberAlong? (w.lineage t) (.str slot) = some (m.capability slot n).toValue

/-- A type has or inherits the native representation and the reader of a kind. -/
structure HasKind (w : World) (t : Nat) (k : CatalogKind) : Prop where
  native : w.attributeAlong? (w.lineage t) (.str "py_type") = some k.representation
  reader : w.HasConversion t "from_string" k.reader?

/-- A type of a kind that also writes as the kind does. -/
structure Marshals (w : World) (t : Nat) (k : CatalogKind) : Prop extends w.HasKind t k where
  writer : w.HasConversion t "to_string" k.writer?

section Same

/-! What a type has of a kind depends on the types of its lineage only. -/

variable {w w' : World} {t : Nat} {k : CatalogKind} (line : w'.lineage t = w.lineage t)
  (nodes : ∀ i ∈ w.lineage t, w'.type i = w.type i)

include line nodes

theorem HasConversion.of_same {slot : String} {m : Option Marshaller}
    (given : w.HasConversion t slot m) : w'.HasConversion t slot m := by
  have same : w'.memberAlong? (w'.lineage t) (.str slot)
      = w.memberAlong? (w.lineage t) (.str slot) := by
    rw [line]
    exact findSome?_eq_of_forall fun i there => by rw [nodes i there]
  unfold HasConversion
  rw [same]
  exact given

theorem HasKind.of_same (given : w.HasKind t k) : w'.HasKind t k where
  native := by
    rw [line, ← given.native]
    exact findSome?_eq_of_forall fun i there => by rw [nodes i there]
  reader := given.reader.of_same line nodes

theorem Marshals.of_same (given : w.Marshals t k) : w'.Marshals t k :=
  ⟨given.toHasKind.of_same line nodes, given.writer.of_same line nodes⟩

end Same

end World

/-! ## Telling the kind of a type -/

/-- Whether a value is the native representation of a kind. -/
def CatalogKind.isRepresentedBy : CatalogKind → Value → Bool
  | text, .native .str => true
  | number, .tuple [.native .int, .native .float] => true
  | boolean, .native .bool => true
  | object, .native .object => true
  | dateTime, .native .datetime => true
  | date, .native .date => true
  | time, .native .time => true
  | _, _ => false

theorem CatalogKind.isRepresentedBy_iff {k : CatalogKind} {v : Value} :
    k.isRepresentedBy v = true ↔ v = k.representation := by
  constructor
  · intro h
    unfold isRepresentedBy at h
    split at h <;> first | rfl | cases h
  · rintro rfl
    cases k <;> rfl

/-- Whether a value is the capability under which a conversion is installed. -/
def Marshaller.isInstalledAs (m : Marshaller) (slot : String) : Value → Bool
  | .capability (.str name) (.static _ none (.function 0 (some called) (.marshal m') [])) .null .null =>
      name == slot && m' == m && called == m.name
  | _ => false

theorem Marshaller.isInstalledAs_iff {m : Marshaller} {slot : String} {v : Value} :
    m.isInstalledAs slot v = true ↔ ∃ n, v = (m.capability slot n).toValue := by
  constructor
  · intro h
    unfold isInstalledAs at h
    split at h
    · next n _ _ =>
      simp only [Bool.and_eq_true, beq_iff_eq] at h
      obtain ⟨⟨rfl, rfl⟩, rfl⟩ := h
      exact ⟨n, rfl⟩
    · cases h
  · rintro ⟨n, rfl⟩
    simp [capability, Capability.toValue, toValue, isInstalledAs]

namespace World

instance {w : World} {t : Nat} {slot : String} {m : Option Marshaller} :
    Decidable (w.HasConversion t slot m) :=
  match m with
  | none => decidable_of_iff ((w.memberAlong? (w.lineage t) (.str slot)).isNone = true)
      Option.isNone_iff_eq_none
  | some m => decidable_of_iff
      ((w.memberAlong? (w.lineage t) (.str slot)).any (m.isInstalledAs slot) = true) <| by
    rw [Option.any_eq_true]
    constructor
    · rintro ⟨v, found, installed⟩
      obtain ⟨n, rfl⟩ := Marshaller.isInstalledAs_iff.mp installed
      exact ⟨n, found⟩
    · rintro ⟨n, found⟩
      exact ⟨_, found, Marshaller.isInstalledAs_iff.mpr ⟨n, rfl⟩⟩

instance {w : World} {t : Nat} {k : CatalogKind} : Decidable (w.HasKind t k) :=
  decidable_of_iff ((w.attributeAlong? (w.lineage t) (.str "py_type")).any k.isRepresentedBy = true ∧
    w.HasConversion t "from_string" k.reader?) <| by
  rw [Option.any_eq_true]
  constructor
  · rintro ⟨⟨v, found, represented⟩, reader⟩
    exact ⟨CatalogKind.isRepresentedBy_iff.mp represented ▸ found, reader⟩
  · rintro ⟨native, reader⟩
    exact ⟨⟨_, native, CatalogKind.isRepresentedBy_iff.mpr rfl⟩, reader⟩

instance {w : World} {t : Nat} {k : CatalogKind} : Decidable (w.Marshals t k) :=
  decidable_of_iff (w.HasKind t k ∧ w.HasConversion t "to_string" k.writer?)
    ⟨fun ⟨kind, writer⟩ => ⟨kind, writer⟩, fun h => ⟨h.toHasKind, h.writer⟩⟩

/-! ## Types that inherit -/

/-- A type that has nothing of its own under a name has what its base has there. -/
theorem HasConversion.of_base {w : World} {t b : Nat} {slot : String} {m : Option Marshaller}
    (line : w.lineage t = t :: w.lineage b) (own : (w.type t).ownMember? (.str slot) = none)
    (given : w.HasConversion b slot m) : w.HasConversion t slot m := by
  have same : w.memberAlong? (w.lineage t) (.str slot) = w.memberAlong? (w.lineage b) (.str slot) := by
    rw [line, memberAlong?, List.findSome?_cons, own]
    rfl
  unfold HasConversion
  rw [same]
  exact given

/-- A type has a conversion that was installed on itself. -/
theorem HasConversion.of_own {w : World} {t n : Nat} {slot : String} {m : Marshaller}
    (own : (w.type t).ownMember? (.str slot) = some (m.capability slot n).toValue) :
    w.HasConversion t slot (some m) := by
  obtain ⟨rest, line⟩ := ancestry_head (fun i => (w.type i).base) w.types.size t
  refine ⟨n, ?_⟩
  rw [lineage, line]
  exact memberAlong?_own rest own

/-- **Derived types.** A type that sets neither a native representation nor a reader, as an
attribute or as a capability, is of the kind of its base. -/
theorem HasKind.of_base {w : World} {t b : Nat} {k : CatalogKind}
    (line : w.lineage t = t :: w.lineage b)
    (native : Table.get? (w.type t).attributes (.str "py_type") = none)
    (reader : (w.type t).ownMember? (.str "from_string") = none) (given : w.HasKind b k) :
    w.HasKind t k where
  native := by
    rw [line, attributeAlong?, List.findSome?_cons, native]
    exact given.native
  reader := .of_base line reader given.reader

theorem HasKind.representation {w : World} {t : Nat} {k : CatalogKind} (h : w.HasKind t k) :
    w.representation t = k.representation := by
  rw [World.representation, h.native]
  cases k <;> rfl

/-- The capability through which a type of a kind reads is the conversion of the kind. -/
theorem HasKind.reader_eq {w : World} {t : Nat} {k : CatalogKind} (h : w.HasKind t k)
    {c : Capability} (reads : w.reader? t = some c) :
    ∃ m n, k.reader? = some m ∧ c = m.capability "from_string" n := by
  have given := h.reader
  rw [World.reader?] at reads
  cases reader : k.reader? with
  | none =>
    rw [reader] at given
    rw [show w.memberAlong? (w.lineage t) (.str "from_string") = none from given] at reads
    cases reads
  | some m =>
    rw [reader] at given
    obtain ⟨n, found⟩ := given
    rw [found] at reads
    exact ⟨m, n, rfl, (Option.some.inj reads).symm⟩

end World

/-! ## Readers -/

/-- A provider calls the conversions of the catalog as what they are. -/
def Provider.ServesCatalog (call : Provider) : Prop :=
  ∀ (d : Dispatch) (m : Marshaller) (v : Value), call d m.toValue [v] [] = m.apply d v

/-- The engine itself does. -/
theorem servesCatalog_callValue : Provider.ServesCatalog callValue := fun _ _ _ => rfl

/-- A conversion follows a relation if the ways to leave the engine do. -/
instance along_apply {R : World → World → Prop} {d : Dispatch} [d.Within R]
    (m : Marshaller) (v : Value) : Along R (m.apply d v) := by
  have mark : ∀ x, Along R (markNumber x) := fun x => by
    unfold markNumber
    split <;> infer_instance
  cases m <;> unfold Marshaller.apply <;> dsimp only
  all_goals first
    | infer_instance
    | (split <;> first | infer_instance | (split <;> infer_instance))

/-- A provider that has no functions but the conversions of the catalog. -/
def convertingOnly : Provider := fun d f arguments _ =>
  match f, arguments with
  | .function 0 _ (.marshal m) [], [v] => m.apply d v
  | _, _ => throw .wrongType

theorem convertingOnly_within {R : World → World → Prop} [Frame R] : convertingOnly.Within R := by
  intro d within f arguments named
  unfold convertingOnly
  split <;> infer_instance

theorem servesCatalog_convertingOnly : convertingOnly.ServesCatalog := fun _ _ _ => rfl

/-- To invoke a conversion on a type is to apply it. -/
theorem World.HasConversion.exec_invoke {call : Provider} (serves : call.ServesCatalog)
    (depth : Nat) {w : World} (plain : w.Plain) {t : Nat} {slot : String} {m : Marshaller}
    (has : w.HasConversion t slot (some m)) (v : Value) :
    exec (invoke (call.dispatch (depth + 1)) (.type t) (.str slot) [v]) w
      = exec (m.apply (call.dispatch depth) v) w := by
  obtain ⟨n, found⟩ := has
  unfold invoke invokeOwn
  rw [plain.exec_orStandIn, exec_bind_ok (plain.exec_capabilityOn _ t _), found]
  show exec (call (call.dispatch depth) m.toValue [v] []) w = _
  rw [serves]

/-- A conversion refuses a text in every world, and changes nothing. -/
def Marshaller.Rejects (m : Marshaller) (s : String) : Prop :=
  ∃ e : Fault, e.isCoercionFault = true ∧ ∀ d w, exec (m.apply d (.str s)) w = (.error e, w)

/-- A conversion gives what a kind accepts for a text in every world, and at most gives out an
identity. -/
def Marshaller.Reads (m : Marshaller) (k : CatalogKind) (s : String) : Prop :=
  ∀ d w, ∃ x n, exec (m.apply d (.str s)) w = (.ok x, { w with nextIdentity := n }) ∧ k.Accepts x

section Readers

variable {k : CatalogKind} {m : Marshaller} {s : String}

/-- A conversion whose result does not depend on the world reads or rejects a text. -/
theorem reads_or_rejects_of_except {r : Except Fault Value}
    (run : ∀ d, m.apply d (.str s) = ofExcept r) (accepts : ∀ x, r = .ok x → k.Accepts x)
    (coercion : ∀ e, r = .error e → e.isCoercionFault = true) : m.Reads k s ∨ m.Rejects s := by
  cases r with
  | ok x =>
    refine .inl fun d w => ⟨x, w.nextIdentity, ?_, accepts x rfl⟩
    rw [run]
    rfl
  | error e =>
    refine .inr ⟨e, coercion e rfl, fun d w => ?_⟩
    rw [run]
    rfl

/-- A reader of moments gives no value for a blank text, else a moment, or it refuses the text. -/
theorem moment_reads_or_rejects {α : Type} {reader : String → Except IsoFault α} (make : α → Value)
    (run : ∀ d, m.apply d (.str s) = ofExcept (momentOf reader make (.str s)))
    (native : ∀ a, k.Holds (make a)) : m.Reads k s ∨ m.Rejects s := by
  refine reads_or_rejects_of_except run (fun x given => ?_) fun e refused => ?_
  · unfold momentOf at given
    dsimp only at given
    split at given
    · exact .inl (Except.ok.inj given).symm
    · split at given
      · exact .inr (Except.ok.inj given ▸ native _)
      · cases given
  · unfold momentOf at refused
    dsimp only at refused
    split at refused
    · cases refused
    · split at refused
      · cases refused
      · next fault _ =>
        rw [← Except.error.inj refused]
        cases fault <;> rfl

/-- A text without blanks around it is an integer, a real number or refused. -/
theorem numberOfText_cases (s : String) :
    (∃ n, numberOfText s = .ok (.int n)) ∨ (∃ x, numberOfText s = .ok (.float x)) ∨
      numberOfText s = .error (notNumber s) := by
  unfold numberOfText
  split
  · exact .inl ⟨_, rfl⟩
  · split
    · exact .inr (.inl ⟨_, rfl⟩)
    · exact .inr (.inr rfl)

theorem numberFromText_apply (d : Dispatch) (s : String) :
    Marshaller.numberFromText.apply d (.str s) = if (Text.trim s).isEmpty then pure .null
      else ofExcept (numberOfText (Text.trim s)) >>= markNumber := by
  unfold Marshaller.apply
  simp [Value.isNull]

theorem booleanFromText_apply (d : Dispatch) (s : String) :
    Marshaller.booleanFromText.apply d (.str s) = if (Text.trim s).isEmpty then pure .null
      else pure (.bool (booleanOfText (Text.trim s))) := by
  unfold Marshaller.apply
  simp [Value.isNull]

/-- The reader of numbers: a number that is none gets a mark of its own. -/
theorem numberFromText_reads_or_rejects (s : String) :
    Marshaller.numberFromText.Reads .number s ∨ Marshaller.numberFromText.Rejects s := by
  cases blank : (Text.trim s).isEmpty with
  | true =>
    refine .inl fun d w => ⟨.null, w.nextIdentity, ?_, .inl rfl⟩
    rw [numberFromText_apply, blank]
    rfl
  | false =>
    have run : ∀ d w, exec (Marshaller.numberFromText.apply d (.str s)) w
        = exec (ofExcept (numberOfText (Text.trim s)) >>= markNumber) w := by
      intro d w
      rw [numberFromText_apply, blank]
      rfl
    rcases numberOfText_cases (Text.trim s) with ⟨n, given⟩ | ⟨x, given⟩ | refused
    · refine .inl fun d w => ⟨.int n, w.nextIdentity, ?_, .inr rfl⟩
      rw [run, given]
      rfl
    · refine .inl fun d w => ?_
      rw [run, given]
      cases x with
      | nan mark => exact ⟨.float (.nan w.nextIdentity), w.nextIdentity + 1, rfl, .inr rfl⟩
      | finite a b c => exact ⟨_, w.nextIdentity, rfl, .inr rfl⟩
      | infinite a => exact ⟨_, w.nextIdentity, rfl, .inr rfl⟩
    · refine .inr ⟨notNumber (Text.trim s), rfl, fun d w => ?_⟩
      rw [run, refused]
      rfl

/-- **Readers of the catalog.** The reader of a kind gives no value or one native to the kind for a
text, or it refuses the text in every world, as readers refuse. -/
theorem reads_or_rejects (reader : k.reader? = some m) (s : String) : m.Reads k s ∨ m.Rejects s := by
  cases k with
  | object => cases reader
  | number =>
    obtain rfl := Option.some.inj reader
    exact numberFromText_reads_or_rejects s
  | text =>
    obtain rfl := Option.some.inj reader
    exact reads_or_rejects_of_except (r := .ok (.str s)) (fun _ => rfl)
      (fun x h => Except.ok.inj h ▸ .inr rfl) nofun
  | boolean =>
    obtain rfl := Option.some.inj reader
    refine .inl fun d w => ?_
    rw [booleanFromText_apply]
    split
    · exact ⟨.null, w.nextIdentity, rfl, .inl rfl⟩
    · exact ⟨_, w.nextIdentity, rfl, .inr rfl⟩
  | dateTime =>
    obtain rfl := Option.some.inj reader
    exact moment_reads_or_rejects .datetime (fun _ => by rw [Marshaller.apply, dateTimeOf]) fun _ => rfl
  | date =>
    obtain rfl := Option.some.inj reader
    exact moment_reads_or_rejects .date (fun _ => by rw [Marshaller.apply, dateOf]) fun _ => rfl
  | time =>
    obtain rfl := Option.some.inj reader
    exact moment_reads_or_rejects .time (fun _ => by rw [Marshaller.apply, timeOf]) fun _ => rfl

end Readers

end DataShape
