import DataShape.Proofs.Schema.Lookup
import DataShape.Proofs.Settling
import DataShape.Proofs.Wording
import DataShape.Schema.Record

/-! # Reading texts

A value that is not native to the type of its field is written as a text and read through the
`from_string` of the type; what cannot be read so stays as it is. Functions that fail only as
readers do are passed over. Two things are not: a capability of that name that is no function but is
read and written, and a value that cannot be written.

* `World.reader?` — the capability through which a type reads texts.
* `Dispatch.Polite` — worlds in which functions that read texts fail only as readers do;
  `Dispatch.ReadsPolitely` — the same for one type.
* `World.Obstructed` — what keeps a value from being converted.
* `Readable.settles_convertBy` — a value is converted, or left as it is, or obstructed.
* `converted_eq_or_read` — what a value is converted to. -/

namespace DataShape

/-! ## Representations and readers -/

/-- A native representation: none, a native type, or several of these. -/
inductive Value.IsRepresentation : Value → Prop where
  | none : IsRepresentation .null
  | native (t : NativeType) : IsRepresentation (.native t)
  | several {classes : List Value} (h : ∀ c ∈ classes, ∃ t, c = .native t) :
      IsRepresentation (.tuple classes)

theorem exists_instanceOfAny? (v : Value) {classes : List Value}
    (h : ∀ c ∈ classes, ∃ t, c = .native t) : ∃ b, instanceOfAny? v classes = some b := by
  induction classes with
  | nil => exact ⟨false, rfl⟩
  | cons c rest ih =>
    obtain ⟨t, rfl⟩ := h c List.mem_cons_self
    obtain ⟨b, others⟩ := ih fun c there => h c (List.mem_cons_of_mem _ there)
    rw [instanceOfAny?, instanceOf?, Option.bind_some, others]
    split
    · exact ⟨true, rfl⟩
    · exact ⟨b, rfl⟩

/-- Whether a value has a native representation can always be told. -/
theorem Value.IsRepresentation.exists_hasRepresentation? {r : Value} (h : r.IsRepresentation)
    (v : Value) : ∃ b, hasRepresentation? r v = some b := by
  have bool : ∀ b (classes : List Value), (∀ c ∈ classes, ∃ t, c = .native t) →
      ∃ b', (if (Value.native .bool).isIn classes then instanceOfAny? (.bool b) classes
        else some false) = some b' := by
    intro b classes native
    split
    · exact exists_instanceOfAny? _ native
    · exact ⟨false, rfl⟩
  have single : ∀ t, ∀ c ∈ [Value.native t], ∃ t', c = .native t' := by simp
  cases h with
  | none => exact ⟨false, rfl⟩
  | native t =>
    cases v with
    | bool b => exact bool b _ (single t)
    | _ => exact exists_instanceOfAny? _ (single t)
  | several native =>
    cases v with
    | bool b => exact bool b _ native
    | _ => exact exists_instanceOfAny? _ native

namespace World

/-- The native representation that a type has or inherits, empty where there is none. -/
def representation (w : World) (t : Nat) : Value :=
  match (w.attributeAlong? (w.lineage t) (.str "py_type")).getD .missing with
  | .missing => .null
  | v => v

/-- The capability through which a type reads texts, its own or an inherited one. -/
def reader? (w : World) (t : Nat) : Option Capability :=
  (w.memberAlong? (w.lineage t) (.str "from_string")).bind Value.capability?

theorem Relisted.reader? {w w' : World} (h : w.Relisted w') (t : Nat) :
    w'.reader? t = w.reader? t := by
  unfold World.reader? lineage memberAlong?
  rw [h.types]
  simp only [h.type]

namespace Plain

variable {w : World} (plain : w.Plain) (d : Dispatch)

include plain

theorem exec_nativeType (t : Nat) : exec (nativeType d t) w = (.ok (w.representation t), w) := by
  have inherited : exec (typeAttribute d t (.str "py_type")) w
      = (.ok ((w.attributeAlong? (w.lineage t) (.str "py_type")).getD .missing), w) := by
    unfold typeAttribute inheritedAttribute
    rw [plain.exec_orStandIn]
    exact exec_bind_ok (plain.exec_searchLineage ..) _
  unfold nativeType representation
  rw [exec_bind_ok inherited]
  split <;> simp_all

/-- Whether a value is native to a type is told without effect, if it can be told. -/
theorem exec_countsAsNative (t : Nat) (v : Value) : exec (countsAsNative d (.type t) v) w
    = ((hasRepresentation? (w.representation t) v).elim (.error .wrongType) .ok, w) := by
  unfold countsAsNative isNative
  rw [plain.exec_orStandIn, exec_bind_ok (plain.exec_nativeType d t)]
  cases hasRepresentation? (w.representation t) v <;> rfl

/-- A type finds a capability without effect; what it has under the name otherwise is none. -/
theorem exec_capabilityOn (t : Nat) (slot : String) : exec (capabilityOn d (.type t) (.str slot)) w
    = (.ok (((w.memberAlong? (w.lineage t) (.str slot)).bind Value.capability?).elim .null
        Capability.toValue), w) := by
  have member : exec (findMember d (.type t) (.str slot)) w
      = (.ok ((w.memberAlong? (w.lineage t) (.str slot)).getD .missing), w) := by
    unfold findMember ownSearch typeMember
    rw [plain.exec_orStandIn]
    exact exec_bind_ok (plain.exec_searchLineage ..) _
  unfold capabilityOn ownCapability
  rw [plain.exec_orStandIn, exec_bind_ok member]
  cases w.memberAlong? (w.lineage t) (.str slot) with
  | none => rfl
  | some v => cases v <;> rfl

theorem exec_canRead (t : Nat) :
    exec (canRead d (.type t)) w = (.ok (w.reader? t).isSome, w) := by
  unfold canRead hasCapability hasOwnCapability
  rw [plain.exec_orStandIn, exec_bind_ok (plain.exec_capabilityOn d t _)]
  unfold reader?
  cases (w.memberAlong? (w.lineage t) (.str "from_string")).bind Value.capability? <;> rfl

end Plain

end World

/-- What a conversion does with a value that it could not read: the value is shown for the log, and
stays as it is. -/
def leaveUnread (d : Dispatch) (field : Nat) (type value : Value) (fault : Fault) :
    Action Value := do
  let text ← shown d value
  let name ← textOf d ((← get).fieldName field)
  let typeName ← textOf d (← nameOf d type)
  writeLog .schema .debug
    s!"Leaving {text} unconverted for field '{name}' ({typeName}): {fault.message}"
  return value

theorem readThrough_eq (d : Dispatch) (field : Nat) (type value : Value) :
    readThrough d field type value = orElseOn Fault.isCoercionFault
      (textOf d value >>= readText d type) (leaveUnread d field type value) := rfl

/-- A value that was not read is left unchanged. -/
theorem eq_of_leaveUnread {d : Dispatch} {field : Nat} {type value x : Value} {fault : Fault}
    {w w' : World} (run : exec (leaveUnread d field type value fault) w = (.ok x, w')) :
    x = value := by
  unfold leaveUnread at run
  obtain ⟨_, _, -, run⟩ := exec_bind_eq_ok.mp run
  obtain ⟨_, _, -, run⟩ := exec_bind_eq_ok.mp run
  obtain ⟨_, _, -, run⟩ := exec_bind_eq_ok.mp run
  obtain ⟨_, _, -, run⟩ := exec_bind_eq_ok.mp run
  obtain ⟨_, _, -, run⟩ := exec_bind_eq_ok.mp run
  obtain ⟨_, _, -, run⟩ := exec_bind_eq_ok.mp run
  exact (exec_pure_eq_ok.mp run).1.symm

/-- Worlds in which all native representations are such, and functions that read texts fail only as
readers do and lead to worlds of the same kind. -/
structure Dispatch.Polite (d : Dispatch) (Q : World → Prop) : Prop where
  native : ∀ w, Q w → ∀ t v, Table.get? (w.type t).attributes (.str "py_type") = some v →
    v.IsRepresentation
  reads : ∀ w, Q w → ∀ t (c : Capability),
    (w.type t).ownMember? (.str "from_string") = some c.toValue →
    ∀ host f, exec (c.bind d (.type host)) w = (.ok f, w) → ∀ text,
      Q (exec (d.call f [.str text] []) w).2 ∧
      ∀ e, (exec (d.call f [.str text] []) w).1 = .error e → e.isCoercionFault = true
  relisted : ∀ w w', Q w → w.Relisted w' → Q w'
  logged : ∀ w l, Q w → Q { w with log := l }

/-- The same for one type: in worlds of a kind it has a native representation, and a function through
which it reads texts fails only as readers do and leads to worlds of the same kind. -/
structure Dispatch.ReadsPolitely (d : Dispatch) (Q : World → Prop) (t : Nat) : Prop where
  native : ∀ w, Q w → (w.representation t).IsRepresentation
  reads : ∀ w, Q w → ∀ c, w.reader? t = some c → ∀ f, exec (c.bind d (.type t)) w = (.ok f, w) →
    ∀ text, Q (exec (d.call f [.str text] []) w).2 ∧
      ∀ e, (exec (d.call f [.str text] []) w).1 = .error e → e.isCoercionFault = true
  relisted : ∀ w w', Q w → w.Relisted w' → Q w'
  logged : ∀ w l, Q w → Q { w with log := l }

/-- Where all types are polite each of them is: what it has it has from a type of its lineage. -/
theorem Dispatch.Polite.readsPolitely {d : Dispatch} {Q : World → Prop} (polite : d.Polite Q)
    (t : Nat) : d.ReadsPolitely Q t where
  native w kept := by
    unfold World.representation
    cases found : w.attributeAlong? (w.lineage t) (.str "py_type") with
    | none => exact .none
    | some v =>
      obtain ⟨i, -, own⟩ := List.exists_of_findSome?_eq_some found
      have native := polite.native w kept i v own
      rw [Option.getD_some]
      split
      · exact .none
      · exact native
  reads w kept c reader f bound text := by
    obtain ⟨v, found, isReader⟩ := Option.bind_eq_some_iff.mp reader
    obtain ⟨i, -, own⟩ := List.exists_of_findSome?_eq_some found
    have same : v = c.toValue := by
      cases v with
      | capability name f g s =>
        obtain rfl := Option.some.inj isReader
        rfl
      | _ => cases isReader
    exact polite.reads w kept i c (same ▸ own) t f bound text
  relisted := polite.relisted
  logged := polite.logged

namespace World

section Obstruction

variable (d : Dispatch) (w : World)

/-- The value of a field is read through a capability of the type of the field: it is there, and it
is not native to the type. -/
structure Reads (f : Nat) (v : Value) (t : Nat) (c : Capability) : Prop where
  given : v.isNull = false
  type : (w.field f).type = .type t
  foreign : hasRepresentation? (w.representation t) v = some false
  reader : w.reader? t = some c

/-- What keeps a value from being converted for a field: it is to be read through a capability that
is no function, it is nested too deeply to be written, or it could not be read and cannot be shown
then. -/
inductive Obstructed (f : Nat) (v : Value) : Prop where
  | accessor {t : Nat} {c : Capability} (reads : w.Reads f v t c) (accessor : c.isAccessor = true)
      {text : String} {w₁ : World} (written : exec (textOf d v) w = (.ok text, w₁))
  | tooDeep {t : Nat} {c : Capability} (reads : w.Reads f v t c) {w₁ : World}
      (unwritten : exec (textOf d v) w = (.error .tooDeep, w₁))
  | unshown {t : Nat} {c : Capability} (reads : w.Reads f v t c) {e e' : Fault} {w₁ w₂ : World}
      (failed : exec (textOf d v >>= readText d (.type t)) w = (.error e, w₁))
      (passed : e.isCoercionFault = true) (unshown : exec (shown d v) w₁ = (.error e', w₂))

end Obstruction

variable {d : Dispatch} {w : World} {f t : Nat} {v : Value} {c : Capability}

/-- A value is read through one capability of one type. -/
theorem Reads.unique (reads : w.Reads f v t c) {t' : Nat} {c' : Capability}
    (reads' : w.Reads f v t' c') : t' = t ∧ c' = c := by
  obtain rfl := FieldType.type.inj (reads'.type.symm.trans reads.type)
  exact ⟨rfl, Option.some.inj (reads'.reader.symm.trans reads.reader)⟩

/-- A value that is not to be read is not obstructed. -/
theorem not_obstructed (unread : ∀ t c, ¬ w.Reads f v t c) : ¬ w.Obstructed d f v := by
  rintro (⟨reads, -, -⟩ | ⟨reads, -⟩ | ⟨reads, -, -, -⟩) <;> exact unread _ _ reads

/-- A value that a function read is not obstructed. -/
theorem Reads.not_obstructed_of_read (reads : w.Reads f v t c) (function : c.isAccessor = false)
    {text : String} {x : Value} {w₁ w₂ : World} (written : exec (textOf d v) w = (.ok text, w₁))
    (run : exec (textOf d v >>= readText d (.type t)) w = (.ok x, w₂)) : ¬ w.Obstructed d f v := by
  rintro (⟨reads', accessor, -⟩ | ⟨reads', unwritten⟩ | ⟨reads', failed, -, -⟩)
  · obtain ⟨-, rfl⟩ := reads.unique reads'
    rw [function] at accessor
    cases accessor
  · rw [written] at unwritten
    cases unwritten
  · obtain ⟨rfl, -⟩ := reads.unique reads'
    rw [run] at failed
    cases failed

/-- A value that could not be read is not obstructed if it can be shown, unless the reader is no
function. -/
theorem Reads.not_obstructed_of_shown (reads : w.Reads f v t c) {e : Fault} {text : String}
    {w₁ w₂ : World} (run : exec (textOf d v >>= readText d (.type t)) w = (.error e, w₁))
    (passed : e.isCoercionFault = true) (shows : exec (shown d v) w₁ = (.ok text, w₂))
    (function : ∀ text w', exec (textOf d v) w = (.ok text, w') → c.isAccessor = false) :
    ¬ w.Obstructed d f v := by
  rintro (⟨reads', accessor, written⟩ | ⟨reads', unwritten⟩ | ⟨reads', failed, -, unshown⟩)
  · obtain ⟨-, rfl⟩ := reads.unique reads'
    rw [function _ _ written] at accessor
    cases accessor
  · rw [exec_bind_error unwritten] at run
    obtain ⟨fault, -⟩ := Prod.mk.inj run
    rw [← Except.error.inj fault] at passed
    cases passed
  · obtain ⟨rfl, -⟩ := reads.unique reads'
    rw [run] at failed
    obtain ⟨-, rfl⟩ := Prod.mk.inj failed
    rw [shows] at unshown
    cases unshown

end World

/-- A capability with a function binds it to a type, or the function cannot be bound. -/
theorem Capability.exec_bind_function (c : Capability) (d : Dispatch)
    (function : c.isAccessor = false) (t : Nat) (w : World) :
    (∃ f, exec (c.bind d (.type t)) w = (.ok f, w)) ∨
      ∃ e : Fault, e.isCoercionFault = true ∧ exec (c.bind d (.type t)) w = (.error e, w) := by
  unfold bind
  split
  · next absent =>
    rw [isAccessor, absent] at function
    cases function
  · exact .inl ⟨_, rfl⟩
  · rw [exec_ite]
    split
    · exact .inl ⟨_, rfl⟩
    · exact .inr ⟨_, rfl, rfl⟩

/-! ## Conversion of values -/

section Values

variable {d : Dispatch} {Q : World → Prop}

/-- Worlds with sound schemas in which texts are read politely. -/
def Readable (Q : World → Prop) (w : World) : Prop := w.SoundSchemas ∧ Q w

variable {t : Nat} (polite : d.ReadsPolitely Q t)
  (display : ∀ (v : Value) (w : World), w.Plain → Words (d.display v) w) {w : World}

include polite

namespace Readable

theorem logged (h : Readable Q w) (l : Array LogRecord) : Readable Q { w with log := l } :=
  ⟨(Frame.log (R := World.Develops) w l h.1).1, polite.logged w l h.2⟩

theorem exec_writeLog (h : Readable Q w) (origin : LogOrigin) (level : LogLevel) (text : String) :
    ∃ w', exec (writeLog origin level text) w = (.ok ⟨⟩, w') ∧ Readable Q w' := by
  refine ⟨_, rfl, ?_⟩
  dsimp only
  split
  · split
    · exact h.logged polite _
    · exact h
  · exact h

theorem relisted {α : Type} {a : Action α} [along : Along World.Develops a]
    (h : Readable Q w) (words : Words a w) : Readable Q (exec a w).2 :=
  ⟨(along.out w h.1).1, polite.relisted w _ h.2 words.1⟩

end Readable

variable [d.Within World.Develops]

/-- A reader that is a function gives a result or fails as readers do; one that is no function is
not implemented. -/
theorem Readable.exec_readText (h : Readable Q w) {c : Capability}
    (reader : w.reader? t = some c) (text : String) :
    (c.isAccessor = true ∧ ∃ e w', exec (readText d (.type t) text) w = (.error e, w') ∧
      e.isCoercionFault = false) ∨
    (c.isAccessor = false ∧ Readable Q (exec (readText d (.type t) text) w).2 ∧
      ∀ e, (exec (readText d (.type t) text) w).1 = .error e → e.isCoercionFault = true) := by
  have plain := h.1.plain
  have invoked : exec (readText d (.type t) text) w
      = exec (boundFunction d (.type t) c.toValue >>= fun bound =>
          bound.elim (capabilityMissing d (.type t) (.str "from_string"))
            fun f => d.call f [.str text] []) w := by
    unfold readText invoke invokeOwn
    rw [plain.exec_orStandIn, exec_bind_ok (plain.exec_capabilityOn d t _),
      show (w.memberAlong? (w.lineage t) (.str "from_string")).bind _ = some c from reader]
    show exec (boundFunction d (.type t) c.toValue >>= _) w = _
    congr 2
    funext bound
    cases bound <;> rfl
  rw [invoked]
  cases accessor : c.isAccessor with
  | true =>
    -- An accessor has no function to be bound, so the reader counts as missing.
    have none : exec (boundFunction d (.type t) c.toValue) w = (.ok none, w) := by
      show exec (if c.function.isNull then pure none
        else some <$> Capability.bind d c (.type t)) w = _
      rw [if_pos (show c.function.isNull = true from accessor)]
      rfl
    have name : exec (hostName d (.type t)) w = (.ok (.str (w.type t).name), w) := by
      unfold hostName ownHostName
      rw [plain.exec_orStandIn, exec_bind_ok (exec_get w), plain.typeName]
      rfl
    refine .inl ⟨rfl, .notImplemented (.str "from_string") "from_string" (.str (w.type t).name)
      (w.type t).name, w, ?_, rfl⟩
    rw [exec_bind_ok none, Option.elim_none]
    unfold capabilityMissing
    rw [exec_bind_ok name]
    rfl
  | false =>
    refine .inr ⟨rfl, ?_⟩
    have bound : exec (boundFunction d (.type t) c.toValue) w
        = exec (some <$> Capability.bind d c (.type t)) w := by
      have function : ¬ c.function.isNull = true := by
        simpa [Capability.isAccessor] using accessor
      show exec (if c.function.isNull then pure none
        else some <$> Capability.bind d c (.type t)) w = _
      rw [if_neg function]
    rcases c.exec_bind_function d accessor t w with ⟨f, run⟩ | ⟨e, passed, run⟩
    · have found : exec (boundFunction d (.type t) c.toValue) w = (.ok (some f), w) := by
        rw [bound, exec_map, run]
      rw [exec_bind_ok found, Option.elim_some]
      -- What is bound is called, and is polite as all readers are.
      have polite' := polite.reads w h.2 c reader f run text
      exact ⟨⟨(Along.out (R := World.Develops) w h.1).1, polite'.1⟩, polite'.2⟩
    · have failed : exec (boundFunction d (.type t) c.toValue) w = (.error e, w) := by
        rw [bound, exec_map, run]
      rw [exec_bind_error failed]
      exact ⟨h, fun e' same => Except.error.inj same ▸ passed⟩

include display

/-- A value that was not read stays as it is, if it can be shown. -/
theorem Readable.exec_leaveUnread (h : Readable Q w) (f : Nat) (v : Value) (fault : Fault) :
    (∃ e w', exec (shown d v) w = (.error e, w') ∧
      exec (leaveUnread d f (.type t) v fault) w = (.error e, w')) ∨
    (∃ text w₁ w', exec (shown d v) w = (.ok text, w₁) ∧
      exec (leaveUnread d f (.type t) v fault) w = (.ok v, w') ∧ Readable Q w') := by
  have words : Words (shown d v) w := words_shown display v h.1.plain
  have h₁ := h.relisted polite words
  rcases run : exec (shown d v) w with ⟨e | text, w₁⟩
  · exact .inl ⟨e, w₁, rfl, exec_bind_error run _⟩
  · rw [run] at h₁
    dsimp only at h₁
    have name : exec (textOf d (w₁.fieldName f)) w₁ = (.ok (w₁.field f).name, w₁) := by
      rw [h₁.1.plain.fieldName]
      rfl
    have typeName : exec (nameOf d (.type t)) w₁ = (.ok (.str (w₁.type t).name), w₁) := by
      show (Except.ok (w₁.typeName t), w₁) = _
      rw [h₁.1.plain.typeName]
    obtain ⟨w', leave, h'⟩ : ∃ w', exec (leaveUnread d f (.type t) v fault) w = (.ok v, w') ∧
        Readable Q w' := by
      unfold leaveUnread
      rw [exec_bind_ok run, exec_bind_ok (exec_get w₁), exec_bind_ok name, exec_bind_ok typeName,
        textOf_str, pure_bind]
      obtain ⟨w', logged, h'⟩ := h₁.exec_writeLog polite .schema .debug _
      exact ⟨w', exec_bind_ok logged _, h'⟩
    exact .inr ⟨text, w₁, w', rfl, leave, h'⟩

/-- A fault that is passed over leaves the value as it is, unless it cannot be shown. -/
theorem Readable.settles_of_passed {f : Nat} {v : Value} {c : Capability} (reads : w.Reads f v t c)
    {e : Fault} {w₁ : World} (run : exec (textOf d v >>= readText d (.type t)) w = (.error e, w₁))
    (passed : e.isCoercionFault = true) (h₁ : Readable Q w₁)
    (function : ∀ text w', exec (textOf d v) w = (.ok text, w') → c.isAccessor = false) :
    Settles (Readable Q) (readThrough d f (.type t) v) w (w.Obstructed d f v) := by
  have accepted : exec (readThrough d f (.type t) v) w
      = exec (leaveUnread d f (.type t) v e) w₁ := by
    rw [readThrough_eq, exec_orElseOn_error run passed]
  rcases h₁.exec_leaveUnread polite display f v e with
    ⟨e', w₂, unshown, leave⟩ | ⟨text, w₂, w₃, shows, leave, h₃⟩
  · exact .inr ⟨.unshown reads run passed unshown, e', w₂, accepted.trans leave⟩
  · exact .inl ⟨reads.not_obstructed_of_shown run passed shows function, v, w₃,
      accepted.trans leave, h₃⟩

/-- A value that is to be read is read, or left as it is, or obstructed. -/
theorem Readable.settles_readThrough (h : Readable Q w) {f : Nat} {v : Value} {c : Capability}
    (reads : w.Reads f v t c) :
    Settles (Readable Q) (readThrough d f (.type t) v) w (w.Obstructed d f v) := by
  have words : Words (textOf d v) w := words_textOf display v h.1.plain
  have h₁ := h.relisted polite words
  obtain ⟨relisted, faults⟩ := words
  have raised : ∀ {e w₁}, exec (textOf d v >>= readText d (.type t)) w = (.error e, w₁) →
      e.isCoercionFault = false → exec (readThrough d f (.type t) v) w = (.error e, w₁) := by
    intro e w₁ run passed
    rw [readThrough_eq, exec_orElseOn_throw run passed]
  rcases written : exec (textOf d v) w with ⟨e | text, w₁⟩ <;>
    rw [written] at relisted faults h₁
  -- the value could not be written: a long integer counts as unread, deep nesting does not
  · have run : exec (textOf d v >>= readText d (.type t)) w = (.error e, w₁) :=
      exec_bind_error written _
    cases faults e rfl with
    | tooLong =>
      refine Readable.settles_of_passed polite display reads run rfl h₁ fun text w₂ written' => ?_
      rw [written] at written'
      cases written'
    | tooDeep => exact .inr ⟨.tooDeep reads written, _, w₁, raised run rfl⟩
  · have run : exec (textOf d v >>= readText d (.type t)) w
        = exec (readText d (.type t) text) w₁ := exec_bind_ok written _
    have reader : w₁.reader? t = some c := by rw [relisted.reader?, reads.reader]
    rcases h₁.exec_readText polite reader text with
      ⟨accessor, e, w₂, failed, refused⟩ | ⟨function, h₂, coercion⟩
    · exact .inr ⟨.accessor reads accessor written, e, w₂, raised (run.trans failed) refused⟩
    · rcases outcome : exec (readText d (.type t) text) w₁ with ⟨e | x, w₂⟩ <;>
        rw [outcome] at h₂ coercion run
      · exact Readable.settles_of_passed polite display reads run (coercion e rfl) h₂
          fun _ _ _ => function
      · refine .inl ⟨reads.not_obstructed_of_read function written run, x, w₂, ?_, h₂⟩
        rw [readThrough_eq]
        exact exec_orElseOn_ok run _ _

end Values

/-- What is done with a value of a field: it is read where the type of the field can read, unless it
is not there or native to the type. -/
def World.converting (d : Dispatch) (w : World) (f : Nat) (v : Value) : Action Value :=
  match v.isNull, (w.field f).type with
  | false, .type t =>
      match hasRepresentation? (w.representation t) v with
      | none => throw .wrongType
      | some true => pure v
      | some false => if (w.reader? t).isSome then readThrough d f (.type t) v else pure v
  | _, _ => pure v

/-- In a plain world that is all that a conversion does. -/
theorem World.Plain.exec_convertBy {w : World} (plain : w.Plain) (d : Dispatch) (f : Nat)
    (v : Value) : exec (convertBy d (.field f) v) w = exec (w.converting d f v) w := by
  have whole : exec (convertBy d (.field f) v) w = exec (convertValue d f v) w :=
    plain.exec_orStandIn ..
  rw [whole]
  unfold convertValue World.converting
  cases null : v.isNull with
  | true =>
    obtain rfl : v = .null := by cases v <;> first | rfl | cases null
    rfl
  | false =>
    rw [if_neg Bool.false_ne_true, exec_bind_ok (exec_get w), plain.fieldType]
    cases (w.field f).type with
    | schema s => rfl
    | type t =>
      have counts := plain.exec_countsAsNative d t v
      dsimp only [FieldType.toValue]
      cases native : hasRepresentation? (w.representation t) v with
      | none =>
        rw [native] at counts
        exact exec_bind_error counts _
      | some b =>
        rw [native] at counts
        rw [exec_bind_ok counts]
        cases b with
        | true => rfl
        | false =>
          simp only [Bool.false_eq_true, if_false]
          rw [exec_bind_ok (plain.exec_canRead d t)]

/-- A value that is to be read is read through the reader. -/
theorem World.Reads.exec_convertBy {d : Dispatch} {w : World} (plain : w.Plain) {f t : Nat}
    {v : Value} {c : Capability} (reads : w.Reads f v t c) :
    exec (convertBy d (.field f) v) w = exec (readThrough d f (.type t) v) w := by
  rw [plain.exec_convertBy, World.converting, reads.given, reads.type]
  dsimp only
  rw [reads.foreign, reads.reader]
  rfl

/-- Any other value stays as it is, unless it cannot be told whether it is native. -/
theorem World.exec_convertBy_of_unread {w : World} (plain : w.Plain) (d : Dispatch) {f : Nat}
    {v : Value} (unread : ∀ t c, ¬ w.Reads f v t c) :
    exec (convertBy d (.field f) v) w = (.ok v, w) ∨
      exec (convertBy d (.field f) v) w = (.error .wrongType, w) ∧
      ∃ t, (w.field f).type = .type t ∧ hasRepresentation? (w.representation t) v = none := by
  rw [plain.exec_convertBy, World.converting]
  split
  · next t null held =>
    split
    · next untold => exact .inr ⟨rfl, t, held, untold⟩
    · exact .inl rfl
    · next native =>
      cases reader : w.reader? t with
      | none => exact .inl rfl
      | some c => exact absurd ⟨null, held, native, reader⟩ (unread t c)
  · exact .inl rfl

/-- Where types have native representations this can always be told. -/
theorem World.exec_convertBy_of_not_reads {w : World} (plain : w.Plain) (d : Dispatch) {f : Nat}
    {v : Value} (native : ∀ t, (w.field f).type = .type t → (w.representation t).IsRepresentation)
    (unread : ∀ t c, ¬ w.Reads f v t c) : exec (convertBy d (.field f) v) w = (.ok v, w) := by
  rcases World.exec_convertBy_of_unread plain d unread with kept | ⟨-, t, held, untold⟩
  · exact kept
  · obtain ⟨b, told⟩ := (native t held).exists_hasRepresentation? v
    rw [untold] at told
    cases told

/-- A value is converted, or left as it is, or obstructed. -/
theorem Readable.settles_convertBy {d : Dispatch} {Q : World → Prop} {w : World} {f : Nat}
    (polite : ∀ t, (w.field f).type = .type t → d.ReadsPolitely Q t)
    (display : ∀ (v : Value) (w : World), w.Plain → Words (d.display v) w)
    [d.Within World.Develops] (h : Readable Q w) (v : Value) :
    Settles (Readable Q) (convertBy d (.field f) v) w (w.Obstructed d f v) := by
  have plain := h.1.plain
  by_cases reads : ∃ t c, w.Reads f v t c
  · obtain ⟨t, c, reads⟩ := reads
    exact .congr (reads.exec_convertBy plain)
      (h.settles_readThrough (polite t reads.type) display reads)
  · have unread : ∀ t c, ¬ w.Reads f v t c := fun t c there => reads ⟨t, c, there⟩
    exact .congr (w.exec_convertBy_of_not_reads plain d
      (fun t held => (polite t held).native w h.2) unread)
      (settles_pure h v (World.not_obstructed unread))

/-- What a value is converted to is the value itself, or what the reader of its type gave for its
text. -/
theorem converted_eq_or_read {d : Dispatch} {w w' : World} (plain : w.Plain) {f : Nat} {v x : Value}
    (run : exec (convertBy d (.field f) v) w = (.ok x, w')) :
    x = v ∨ ∃ t c text w₁, w.Reads f v t c ∧ exec (textOf d v) w = (.ok text, w₁) ∧
      exec (readText d (.type t) text) w₁ = (.ok x, w') := by
  by_cases reads : ∃ t c, w.Reads f v t c
  · obtain ⟨t, c, reads⟩ := reads
    rw [reads.exec_convertBy plain, readThrough_eq] at run
    rcases read : exec (textOf d v >>= readText d (.type t)) w with ⟨e | y, w₂⟩
    · cases passed : e.isCoercionFault with
      | true =>
        rw [exec_orElseOn_error read passed] at run
        exact .inl (eq_of_leaveUnread run)
      | false =>
        rw [exec_orElseOn_throw read passed] at run
        cases run
    · rw [exec_orElseOn_ok read] at run
      obtain ⟨same, rfl⟩ := Prod.mk.inj run
      obtain rfl := Except.ok.inj same
      obtain ⟨text, w₃, written, last⟩ := exec_bind_eq_ok.mp read
      exact .inr ⟨t, c, text, w₃, reads, written, last⟩
  · have unread : ∀ t c, ¬ w.Reads f v t c := fun t c there => reads ⟨t, c, there⟩
    rcases World.exec_convertBy_of_unread plain d unread with kept | ⟨refused, -⟩
    · rw [kept] at run
      exact .inl (Except.ok.inj (Prod.mk.inj run).1).symm
    · rw [refused] at run
      cases run

end DataShape
