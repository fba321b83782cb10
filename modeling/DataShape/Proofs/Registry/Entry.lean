import DataShape.Proofs.Registry.Installing

/-! # Reading entries

An entry of a provider is read before anything is installed. The name of a capability is a text,
unless it is an object that says of itself that it is an identifier; such an object is asked, so
only for such a name a function of a provider is called while an entry is read. An ordinary entry
has none: reading it is idle in a plain world, and all its capabilities are named by texts.

* `World.Ordinary` — entries whose names are not asked.
* `idles_readEntry` — reading an ordinary entry.
* `gives_readEntry` — whatever the entry is, its capabilities have names that can be keys. -/

namespace DataShape

/-! ## Names -/

/-- An object that can have a member of any name: a host, or a plain object. -/
def Value.isOpen : Value → Bool
  | .record .. => true
  | v => v.isHost

/-- What tells apart the values that can name a capability: texts, hosts and plain objects. -/
def Value.mark? : Value → Option (Nat × Nat × String)
  | .str s => some (0, 0, s)
  | .type id => some (1, id, "")
  | .field id => some (2, id, "")
  | .schema id => some (3, id, "")
  | .record id _ => some (4, id, "")
  | _ => none

/-- Whether a value is a plain object. -/
def Value.isRecord : Value → Bool
  | .record .. => true
  | _ => false

section Members

variable (d : Dispatch) {v : Value}

/-- No other value says of itself that it is an identifier. -/
theorem exec_readMember_isidentifier (closed : v.isOpen = false) (w : World) :
    exec (readMember d v "isidentifier") w = (.error (.access .plain), w) := by
  have absent : computedMember? d v "isidentifier" = none := by
    cases v with
    | predicate p => cases p <;> rfl
    | record | type | field | schema => cases closed
    | _ => rfl
  have bare : w.heldUnder? v "isidentifier" = none := by
    cases v <;> first | rfl | cases closed
  have lacks : v.provides "isidentifier" = false := by
    cases v <;> rfl
  have free : v.isHost = false := by
    cases v <;> first | rfl | cases closed
  unfold readMember
  rw [absent]
  unfold plainMember
  rw [exec_bind_ok (exec_get w), bare, lacks, free]
  rfl

/-- What has no name as a callable has no member that names it, unless it is a plain object. -/
theorem exec_readMember_name (closed : v.isRecord = false) (nameless : v.functionName? = none)
    {w : World} (plain : w.Plain) :
    exec (readMember d v "__name__") w = (.error (.access .plain), w) := by
  have absent : computedMember? d v "__name__" = none := by
    cases v with
    | record => cases closed
    | native t => cases nameless
    | method r n => unfold Value.functionName? at nameless; split at nameless <;> simp_all
    | function i name r c =>
      obtain rfl : name = none := nameless
      rfl
    | static i name f =>
      show ((Value.static i name f).functionName?.map Value.str).map pure = none
      rw [nameless]
      rfl
    | bound f r =>
      show ((Value.bound f r).functionName?.map Value.str).map pure = none
      rw [nameless]
      rfl
    | predicate p => cases p <;> rfl
    | _ => rfl
  have bare : w.heldUnder? v "__name__" = none := by
    unfold World.heldUnder?
    rw [plain.storedOn]
    cases v <;> rfl
  have lacks : v.provides "__name__" = false := by
    cases v <;> rfl
  unfold readMember
  rw [absent]
  unfold plainMember
  rw [exec_bind_ok (exec_get w), bare, lacks]
  cases v <;> rfl

end Members

/-- A value that cannot name a capability has no member of any name. -/
theorem Value.isOpen_of_mark?_eq_none {v : Value} (h : v.mark? = none) : v.isOpen = false := by
  cases v <;> first | rfl | cases h

/-- One that can name a capability can be a key. -/
theorem Value.hashable_of_mark? {v : Value} (h : v.mark?.isSome = true) : v.hashable = true := by
  cases v <;> first | rfl | cases h

/-! ## Ordinary entries -/

/-- The part of an entry under a key. -/
def entryPart (entries : Entries) (key : String) : Value :=
  (Table.get? entries (.str key)).getD .null

/-- A part of an entry that takes its name from what it is: anything but a plain object. -/
def Value.NamesItself (part : Value) : Prop := part.unwrapped.isRecord = false

/-- An entry whose names are not asked whether they are identifiers. -/
structure World.Ordinary (w : World) (entry : Value) : Prop where
  name : ∀ entries, w.mapping? entry = some entries → (entryPart entries "name").isOpen = false
  parts : ∀ entries, w.mapping? entry = some entries →
    ∀ key ∈ ["func", "get", "set"], (entryPart entries key).NamesItself
  callable : w.mapping? entry = none → entry.NamesItself

/-- A capability that is named by a text. -/
def Capability.Texted (c : Capability) : Prop := ∃ s, c.name = .str s

section Ordinary

variable {call : Provider} {depth : Nat} {w : World} (plain : w.Plain)

include plain

/-- What names itself does so by a text. -/
theorem idles_ownName {v : Value} (closed : v.isRecord = false) :
    Idles (fun name => ∃ s, name = .str s) (ownName (call.dispatch (depth + 1)) v) w := by
  unfold ownName
  split
  · next name _ => exact idles_pure ⟨name, rfl⟩
  · next nameless =>
    have read : exec ((call.dispatch (depth + 1)).member v "__name__") w
        = (.error (.access .plain), w) :=
      exec_readMember_name (call.dispatch depth) closed nameless plain
    unfold Idles
    rw [exec_orElseOn_error read rfl]
    exact idles_pure ⟨"", rfl⟩

theorem idles_isCapabilityName {name : Value} (closed : name.isOpen = false) :
    Idles (fun given => given = true → ∃ s, name = .str s)
      (isCapabilityName (call.dispatch (depth + 1)) name) w := by
  unfold isCapabilityName
  split
  · next s => exact idles_pure fun _ => ⟨s, rfl⟩
  · refine (Idles.of_along (truthOf _ name) plain).bind fun counts w₁ _ _ => ?_
    cases counts with
    | false => exact idles_pure fun same => absurd same Bool.false_ne_true
    | true =>
      have asked : exec ((call.dispatch (depth + 1)).member name "isidentifier") w₁
          = (.error (.access .plain), w₁) := exec_readMember_isidentifier _ closed w₁
      have called : exec (callMember (call.dispatch (depth + 1)) name "isidentifier" []) w₁
          = (.error (.access .plain), w₁) := exec_bind_error asked _
      rw [if_pos rfl, Idles, exec_bind_error called]
      exact idles_throw _

theorem idles_makeCapability {name : Value} (closed : name.isOpen = false)
    (function getter setter : Value) :
    Idles Capability.Texted
      (makeCapability (call.dispatch (depth + 1)) name function getter setter) w := by
  unfold makeCapability
  refine (idles_isCapabilityName plain closed).bind fun given w₁ resembles text => ?_
  have plain₁ := resembles.plain plain
  have words := fun (a : Action String) [along : Along World.Idle a] (fault : String → Fault) =>
    idles_bind_throw (P := Capability.Texted) fault (along.out w₁ plain₁)
  cases given with
  | false => exact words (shown _ name) _
  | true =>
    rw [if_neg (by simp)]
    split
    · exact words (textOf _ name) _
    · split
      · exact words (textOf _ name) _
      · exact idles_pure (text rfl)

theorem idles_capabilityName {part explicit : Value} (closed : explicit.isOpen = false)
    (named : part.NamesItself) :
    Idles (fun name => name.isOpen = false)
      (capabilityName (call.dispatch (depth + 1)) part explicit) w := by
  unfold capabilityName
  refine (Idles.of_along (truthOf _ explicit) plain).bind fun counts w₁ resembles _ => ?_
  have plain₁ := resembles.plain plain
  cases counts with
  | true => exact idles_pure closed
  | false =>
    rw [if_neg Bool.false_ne_true]
    refine (idles_ownName plain₁ named).bind fun name w₂ resembles₂ text => ?_
    have plain₂ := resembles₂.plain plain₁
    refine (Idles.of_along (truthOf _ name) plain₂).bind fun counts w₃ _ _ => ?_
    split
    · exact idles_throw _
    · obtain ⟨s, rfl⟩ := text
      exact idles_pure rfl

/-- One capability of a name that is not asked. -/
theorem idles_single {name : Value} (closed : name.isOpen = false)
    (function getter setter : Value) :
    Idles (fun cs => ∀ c ∈ cs, c.Texted) (do
      return [← makeCapability (call.dispatch (depth + 1)) name function getter setter]) w := by
  refine (idles_makeCapability plain closed function getter setter).bind fun c w₁ _ text => ?_
  refine idles_pure fun c' there => ?_
  obtain rfl := List.mem_singleton.mp there
  exact text

/-- What follows the name of a part, where there is one. -/
theorem idles_partName {α : Type} {P : α → Prop} {part explicit : Value}
    (closed : explicit.isOpen = false) (named : part.NamesItself)
    {next : Option Value → Action α}
    (rest : ∀ name w', w.Resembles w' → (∀ n ∈ name, n.isOpen = false) → Idles P (next name) w') :
    Idles P (if part.isNull then do
        let name ← pure none
        next name
      else do
        let name ← some <$> capabilityName (call.dispatch (depth + 1)) part explicit
        next name) w := by
  split
  · exact rest none w (.refl w) nofun
  · rw [map_eq_pure_bind, bind_assoc]
    refine (idles_capabilityName plain closed named).bind fun name w₁ resembles closed => ?_
    exact rest (some name) w₁ resembles fun n same => Option.mem_some.mp same ▸ closed

theorem idles_entryAccessors {explicit getter setter : Value} (closed : explicit.isOpen = false)
    (get : getter.NamesItself) (set : setter.NamesItself) :
    Idles (fun cs => ∀ c ∈ cs, c.Texted)
      (entryAccessors (call.dispatch (depth + 1)) explicit getter setter) w := by
  unfold entryAccessors
  refine idles_partName plain closed get fun getName w₁ resembles getClosed => ?_
  have plain₁ := resembles.plain plain
  refine idles_partName plain₁ closed set fun setName w₂ resembles₂ setClosed => ?_
  have plain₂ := resembles₂.plain plain₁
  cases getName with
  | none =>
    cases setName with
    | none => exact idles_pure nofun
    | some s => exact idles_single plain₂ (setClosed s rfl) ..
  | some g =>
    cases setName with
    | none => exact idles_single plain₂ (getClosed g rfl) ..
    | some s =>
      -- Equal names make one capability of both functions, other names make one of each.
      have compared : exec (areEqual g s) w₂ = (.ok (w₂.equal g s), w₂) := rfl
      refine Idles.after compared ?_
      split
      · exact idles_single plain₂ (getClosed g rfl) ..
      · refine (idles_makeCapability plain₂ (getClosed g rfl) ..).bind
          fun c w₃ resembles₃ text => ?_
        have plain₃ := resembles₃.plain plain₂
        refine (idles_makeCapability plain₃ (setClosed s rfl) ..).bind fun c' w₄ _ text' => ?_
        refine idles_pure fun c'' there => ?_
        rcases List.mem_cons.mp there with rfl | there
        · exact text
        · obtain rfl := List.mem_singleton.mp there
          exact text'

theorem idles_entryFunction {explicit function : Value} (closed : explicit.isOpen = false)
    (named : function.NamesItself) :
    Idles (fun cs => ∀ c ∈ cs, c.Texted)
      (entryFunction (call.dispatch (depth + 1)) explicit function) w := by
  unfold entryFunction
  split
  · exact idles_pure nofun
  · split
    · exact idles_bind_throw _ ((along_idle_shown function).out w plain)
    · refine (idles_capabilityName plain closed named).bind fun name w₁ resembles closed => ?_
      exact idles_single (resembles.plain plain) closed ..

theorem idles_readMapping {entries : Entries} (closed : (entryPart entries "name").isOpen = false)
    (named : ∀ key ∈ ["func", "get", "set"], (entryPart entries key).NamesItself) :
    Idles (fun reading => ∀ c ∈ reading.capabilities, c.Texted)
      (readMapping (call.dispatch (depth + 1)) entries) w := by
  unfold readMapping
  dsimp only
  split
  · split
    · exact idles_throw _
    · exact idles_bind_throw _ ((along_idle_shown _).out w plain)
  · refine (idles_entryAccessors plain closed (named "get" (by simp))
      (named "set" (by simp))).bind fun accessors w₁ resembles texts => ?_
    refine (idles_entryFunction (resembles.plain plain) closed
      (named "func" (by simp))).bind fun functions w₂ _ texts' => ?_
    split
    · exact idles_throw _
    · exact idles_pure fun c there => (List.mem_append.mp there).elim (texts c) (texts' c)

/-- **Ordinary entries.** To read one is idle, and the capabilities that it asks for are named by
texts. -/
theorem idles_readEntry {entry : Value} (ordinary : w.Ordinary entry) :
    Idles (fun reading => ∀ c ∈ reading.capabilities, c.Texted)
      (readEntry (call.dispatch (depth + 1)) entry) w := by
  unfold readEntry
  refine Idles.after (exec_mappingOf? entry w) ?_
  split
  · next entries mapped =>
    exact idles_readMapping plain (ordinary.name entries mapped) (ordinary.parts entries mapped)
  · next unmapped =>
    split
    · refine (idles_capabilityName plain (show Value.null.isOpen = false from rfl)
        (ordinary.callable unmapped)).bind fun name w₁ resembles closed => ?_
      refine (idles_makeCapability (resembles.plain plain) closed ..).bind fun c w₂ _ text => ?_
      refine idles_pure fun c' there => ?_
      obtain rfl := List.mem_singleton.mp there
      exact text
    · exact idles_bind_throw _ ((along_idle_shown entry).out w plain)

end Ordinary

/-! ## Names of capabilities -/

/-- Whatever an action gives, in whatever world, is of a kind. -/
def Gives {α : Type} (P : α → Prop) (a : Action α) : Prop :=
  ∀ w x w', exec a w = (.ok x, w') → P x

section Gives

variable {α β : Type} {P : β → Prop}

theorem gives_pure {x : β} (h : P x) : Gives P (pure x) := fun _ _ _ run =>
  (exec_pure_eq_ok.mp run).1 ▸ h

theorem gives_throw (e : Fault) : Gives P (throw e : Action β) := fun _ _ _ run => by cases run

/-- Only what a sequence ends with matters. -/
theorem gives_bind {a : Action α} {f : α → Action β} (h : ∀ x, Gives P (f x)) :
    Gives P (a >>= f) := by
  intro w y w' run
  obtain ⟨x, w₁, -, run⟩ := exec_bind_eq_ok.mp run
  exact h x w₁ y w' run

/-- What the first step gives may matter for what follows. -/
theorem Gives.bind {Q : α → Prop} {a : Action α} {f : α → Action β} (first : Gives Q a)
    (h : ∀ x, Q x → Gives P (f x)) : Gives P (a >>= f) := by
  intro w y w' run
  obtain ⟨x, w₁, given, run⟩ := exec_bind_eq_ok.mp run
  exact h x (first w x w₁ given) w₁ y w' run

end Gives

section Keyed

variable {call : Provider} {depth : Nat}

/-- A capability whose name can be a key. -/
def Capability.Keyed (c : Capability) : Prop := c.name.hashable = true

/-- What says that it is an identifier can name a capability. -/
theorem gives_isCapabilityName (name : Value) :
    Gives (fun given => given = true → name.mark?.isSome = true)
      (isCapabilityName (call.dispatch (depth + 1)) name) := by
  unfold isCapabilityName
  split
  · exact gives_pure fun _ => rfl
  · refine gives_bind fun counts => ?_
    cases marked : name.mark? with
    | some mark => exact fun _ _ _ _ _ => rfl
    | none =>
      cases counts with
      | false => exact gives_pure fun same => absurd same Bool.false_ne_true
      | true =>
        intro w given w' run
        have asked : exec ((call.dispatch (depth + 1)).member name "isidentifier") w
            = (.error (.access .plain), w) :=
          exec_readMember_isidentifier _ (Value.isOpen_of_mark?_eq_none marked) w
        have called : exec (callMember (call.dispatch (depth + 1)) name "isidentifier" []) w
            = (.error (.access .plain), w) := exec_bind_error asked _
        rw [if_pos rfl, exec_bind_error called] at run
        cases run

/-- A capability that is made has the given parts, under a name that can be one. -/
theorem gives_makeCapability (name function getter setter : Value) :
    Gives (fun c => c = ⟨name, function, getter, setter⟩ ∧ name.mark?.isSome = true)
      (makeCapability (call.dispatch (depth + 1)) name function getter setter) := by
  unfold makeCapability
  refine (gives_isCapabilityName name).bind fun given marked => ?_
  cases given with
  | false => exact gives_bind fun _ => gives_throw _
  | true =>
    rw [if_neg (by simp)]
    split
    · exact gives_bind fun _ => gives_throw _
    · split
      · exact gives_bind fun _ => gives_throw _
      · exact gives_pure ⟨rfl, marked rfl⟩

/-- Its name can be a key. -/
theorem gives_keyed (name function getter setter : Value) :
    Gives Capability.Keyed
      (makeCapability (call.dispatch (depth + 1)) name function getter setter) := by
  intro w c w' run
  obtain ⟨rfl, marked⟩ := gives_makeCapability name function getter setter w c w' run
  exact Value.hashable_of_mark? marked

theorem gives_single (name function getter setter : Value) :
    Gives (fun cs => ∀ c ∈ cs, c.Keyed) (do
      return [← makeCapability (call.dispatch (depth + 1)) name function getter setter]) := by
  refine (gives_keyed name function getter setter).bind fun c keyed => ?_
  refine gives_pure fun c' there => ?_
  obtain rfl := List.mem_singleton.mp there
  exact keyed

/-- Only what follows the name of a part matters. -/
theorem gives_partName {α : Type} {P : α → Prop} {d : Dispatch} {part explicit : Value}
    {next : Option Value → Action α} (rest : ∀ name, Gives P (next name)) :
    Gives P (if part.isNull then do
        let name ← pure none
        next name
      else do
        let name ← some <$> capabilityName d part explicit
        next name) := by
  split
  · exact rest none
  · exact gives_bind rest

theorem gives_entryAccessors (explicit getter setter : Value) :
    Gives (fun cs => ∀ c ∈ cs, c.Keyed)
      (entryAccessors (call.dispatch (depth + 1)) explicit getter setter) := by
  unfold entryAccessors
  refine gives_partName fun getName => gives_partName fun setName => ?_
  cases getName with
  | none =>
    cases setName with
    | none => exact gives_pure nofun
    | some s => exact gives_single _ _ _ _
  | some g =>
    cases setName with
    | none => exact gives_single _ _ _ _
    | some s =>
      refine gives_bind fun same => ?_
      split
      · exact gives_single _ _ _ _
      · refine (gives_keyed _ _ _ _).bind fun c keyed => ?_
        refine (gives_keyed _ _ _ _).bind fun c' keyed' => ?_
        refine gives_pure fun c'' there => ?_
        rcases List.mem_cons.mp there with rfl | there
        · exact keyed
        · obtain rfl := List.mem_singleton.mp there
          exact keyed'

theorem gives_readMapping (entries : Entries) :
    Gives (fun reading => ∀ c ∈ reading.capabilities, c.Keyed)
      (readMapping (call.dispatch (depth + 1)) entries) := by
  have functions : ∀ explicit function : Value, Gives (fun cs => ∀ c ∈ cs, c.Keyed)
      (entryFunction (call.dispatch (depth + 1)) explicit function) := by
    intro explicit function
    unfold entryFunction
    split
    · exact gives_pure nofun
    · split
      · exact gives_bind fun _ => gives_throw _
      · exact gives_bind fun _ => gives_single _ _ _ _
  unfold readMapping
  dsimp only
  split
  · split
    · exact gives_throw _
    · exact gives_bind fun _ => gives_throw _
  · refine (gives_entryAccessors _ _ _).bind fun accessors keyed => ?_
    refine (functions _ _).bind fun functions keyed' => ?_
    split
    · exact gives_throw _
    · exact gives_pure fun c there => (List.mem_append.mp there).elim (keyed c) (keyed' c)

/-- The capabilities of an entry have names that can be keys. -/
theorem gives_readEntry (entry : Value) :
    Gives (fun reading => ∀ c ∈ reading.capabilities, c.Keyed)
      (readEntry (call.dispatch (depth + 1)) entry) := by
  unfold readEntry
  refine gives_bind fun entries => ?_
  split
  · exact gives_readMapping _
  · split
    · refine gives_bind fun name => (gives_keyed _ _ _ _).bind fun c keyed => ?_
      refine gives_pure fun c' there => ?_
      obtain rfl := List.mem_singleton.mp there
      exact keyed
    · exact gives_bind fun _ => gives_throw _

end Keyed

end DataShape
