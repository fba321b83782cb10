import DataShape.Proofs.Schema.Flags

/-! # Values that are read without effect

A projection looks up the declared names in a record, and in the records that it finds there. It
gives a result of its own only where these look-ups have no effect. So it is for data, and for
objects that hold data; objects of a provider may have members that are as quiet.

* `World.Quiet` — a record that is read without effect, at every depth.
* `QuietSet.composed` — mappings and lists made of such records are read without effect.
* `Value.Inert` — data and objects that hold data, which are quiet in all worlds.
* `World.exec_uiExclude_of_inert` — flags of fields with such attributes are read without effect. -/

namespace DataShape

/-! ## Quiet records -/

namespace World

/-- The values of a set are read without effect: what a record among them has under a declared name
is always the same value, which is again one of them, and so are the items of a sequence. -/
structure QuietSet (d : Dispatch) (w : World) (P : Value → Prop) : Prop where
  read : ∀ v, P v → v.isRecordLike = true → ∀ s, ∀ name ∈ w.declared s,
    ∃ x, P x ∧ ∀ w', w.Relisted w' → exec (lookupKey d v name) w' = (.ok x, w')
  items : ∀ v items, P v → v.sequence? = some items → ∀ i ∈ items, P i

/-- A record is read without effect, and so is whatever is found in it. -/
def Quiet (d : Dispatch) (w : World) (r : Value) : Prop := ∃ P, w.QuietSet d P ∧ P r

end World

/-- Values that are composed from given ones by lists and mappings. -/
inductive Composed (P : Value → Prop) : Value → Prop where
  | given {v : Value} (h : P v) : Composed P v
  | null : Composed P .null
  | missing : Composed P .missing
  | list {items : List Value} (h : ∀ v ∈ items, Composed P v) : Composed P (.fresh items)
  | dict {entries : Entries} (h : ∀ v ∈ Table.values entries, Composed P v) :
      Composed P (.freshDict entries)

/-- What a composed mapping has under a text is composed. -/
theorem Composed.getD {P : Value → Prop} {entries : Entries}
    (h : ∀ v ∈ Table.values entries, Composed P v) (k : Value) :
    Composed P ((Table.get? entries k).getD .missing) := by
  cases found : Table.get? entries k with
  | none => exact .missing
  | some v => exact h v (Table.mem_values_of_get? found)

/-- Values that are composed from quiet ones are quiet. -/
theorem World.QuietSet.composed {d : Dispatch} {w : World} {P : Value → Prop}
    (sound : w.SoundSchemas) (quiet : w.QuietSet d P) : w.QuietSet d (Composed P) where
  read v h like s name there := by
    obtain ⟨m, rfl⟩ := sound.declared_texts s name there
    cases h with
    | given h =>
      obtain ⟨x, member, still⟩ := quiet.read v h like s _ there
      exact ⟨x, .given member, still⟩
    | null => cases like
    | missing => exact ⟨.missing, .missing, fun _ _ => rfl⟩
    | list => cases like
    | dict h => exact ⟨_, Composed.getD h (.str m), fun _ _ => rfl⟩
  items v items h sequence := by
    cases h with
    | given h => exact fun i there => .given (quiet.items v items h sequence i there)
    | null => cases sequence
    | missing => cases sequence
    | list h =>
      obtain rfl := Option.some.inj sequence
      exact h
    | dict => cases sequence

/-! ## Inert values -/

/-- Values without parts: data, native types, options and targets. -/
def Value.isAtom : Value → Bool
  | .null | .missing | .bool _ | .int _ | .float _ | .str _ | .bytes _ => true
  | .date _ | .datetime _ | .time _ | .native _ | .option _ | .target _ => true
  | _ => false

/-- Data, and objects that hold data: no function is asked for what is found in them. -/
inductive Value.Inert : Value → Prop where
  | atom {v : Value} (h : v.isAtom = true) : Inert v
  | list (share : Nat) {items : List Value} (h : ∀ v ∈ items, Inert v) : Inert (.list share items)
  | tuple {items : List Value} (h : ∀ v ∈ items, Inert v) : Inert (.tuple items)
  | dict (share : Nat) {entries : Entries} (h : ∀ v ∈ Table.values entries, Inert v) :
      Inert (.dict share entries)
  | record (id : Nat) {attributes : Entries} (h : ∀ v ∈ Table.values attributes, Inert v) :
      Inert (.record id attributes)
  | method {receiver : Value} (name : String) (h : Inert receiver) : Inert (.method receiver name)

mutual

/-- Whether a value is inert. -/
def Value.isInert : Value → Bool
  | .list _ items => allInert items
  | .tuple items => allInert items
  | .dict _ entries => entriesInert entries
  | .record _ attributes => entriesInert attributes
  | .method receiver _ => receiver.isInert
  | v => v.isAtom
termination_by structural v => v

/-- Whether all items are inert. -/
def allInert : List Value → Bool
  | [] => true
  | v :: vs => v.isInert && allInert vs
termination_by structural vs => vs

/-- Whether the values of all entries are inert. -/
def entriesInert : List (Value × Value) → Bool
  | [] => true
  | e :: es => entryInert e && entriesInert es
termination_by structural es => es

/-- Whether the value of an entry is inert. -/
def entryInert : Value × Value → Bool
  | (_, v) => v.isInert
termination_by structural e => e

end

mutual

/-- A value that passes the test is inert, as the values in it are. -/
theorem Value.inert_of_isInert (v : Value) (h : v.isInert = true) : v.Inert := by
  cases v with
  | list share items => exact .list share (inert_of_allInert items h)
  | tuple items => exact .tuple (inert_of_allInert items h)
  | dict share entries => exact .dict share (inert_of_entriesInert entries h)
  | record id attributes => exact .record id (inert_of_entriesInert attributes h)
  | method receiver name => exact .method name (Value.inert_of_isInert receiver h)
  | _ => exact .atom h
termination_by structural v

theorem inert_of_allInert (items : List Value) (h : allInert items = true) :
    ∀ v ∈ items, v.Inert := by
  cases items with
  | nil => exact nofun
  | cons v vs =>
    rw [allInert, Bool.and_eq_true] at h
    exact List.forall_mem_cons.mpr ⟨Value.inert_of_isInert v h.1, inert_of_allInert vs h.2⟩
termination_by structural items

theorem inert_of_entriesInert (entries : Entries) (h : entriesInert entries = true) :
    ∀ v ∈ Table.values entries, v.Inert := by
  cases entries with
  | nil => exact nofun
  | cons e es =>
    rw [entriesInert, Bool.and_eq_true] at h
    exact List.forall_mem_cons.mpr ⟨inert_of_entryInert e h.1, inert_of_entriesInert es h.2⟩
termination_by structural entries

theorem inert_of_entryInert (e : Value × Value) (h : entryInert e = true) : e.2.Inert := by
  cases e with
  | mk k v => exact Value.inert_of_isInert v h
termination_by structural e

end

namespace Value.Inert

variable {v : Value}

theorem str (s : String) : Inert (.str s) := .atom rfl

/-- No inert value is a host. -/
theorem not_host (h : v.Inert) : v.isHost = false := by
  cases h with
  | atom h => cases v <;> first | rfl | cases h
  | _ => rfl

/-- What an inert mapping has under a key is inert. -/
theorem get? {entries : Entries} (h : ∀ v ∈ Table.values entries, Inert v) {k x : Value}
    (found : Table.get? entries k = some x) : x.Inert := h x (Table.mem_values_of_get? found)

/-- The names of a callable are texts, and the receiver of an inert one is inert. -/
theorem callableMember? (h : v.Inert) {name : String} {x : Value}
    (found : v.callableMember? name = some x) : x.Inert := by
  unfold Value.callableMember? at found
  split at found
  · obtain ⟨s, -, rfl⟩ := Option.map_eq_some_iff.mp found
    exact .str s
  · obtain ⟨s, -, rfl⟩ := Option.map_eq_some_iff.mp found
    exact .str s
  · cases h with | atom h => cases h
  · cases h with | atom h => cases h
  · cases h with | atom h => cases h
  · cases h with | atom h => cases h
  · cases h with
    | atom h => cases h
    | method _ h =>
      obtain rfl := Option.some.inj found
      exact h
  · cases found

/-- The own members of an inert value are inert. -/
theorem memberNamed? (h : v.Inert) {name : String} {x : Value}
    (found : v.memberNamed? name = some x) : x.Inert := by
  unfold Value.memberNamed? at found
  split at found
  case h_9 attributes _ =>
    cases h with
    | atom h => cases h
    | record _ h => exact get? h found
  case h_10 => exact h.callableMember? found
  all_goals first
    | exact Option.some.inj found ▸ .str _
    | (cases h with | atom h => cases h)

/-- The own values of an inert value are the same in all worlds, and inert. -/
theorem ownValues? (h : v.Inert) :
    ∃ all, (∀ x, all = some x → x.Inert) ∧ ∀ w : World, w.ownValues? v = all := by
  have no : (∀ w : World, w.ownValues? v = none) →
      ∃ all, (∀ x, all = some x → x.Inert) ∧ ∀ w : World, w.ownValues? v = all :=
    fun same => ⟨none, nofun, same⟩
  have yes : ∀ {entries : Entries}, (∀ x ∈ Table.values entries, x.Inert) →
      (∀ w : World, w.ownValues? v = some (.freshDict entries)) →
      ∃ all, (∀ x, all = some x → x.Inert) ∧ ∀ w : World, w.ownValues? v = all := by
    refine fun inert same => ⟨_, fun x found => ?_, same⟩
    rw [← Option.some.inj found]
    exact .dict 0 inert
  cases h with
  | atom h =>
    cases v with
    | missing => exact yes (by simp [Table.values]) fun _ => rfl
    | option o =>
      have texts : ∀ x ∈ Table.values
          [(Value.str "label", Value.str o.label), (.str "value", .str o.value)], x.Inert := by
        simp [Table.values, str]
      exact yes texts fun _ => rfl
    | _ => first | exact no fun _ => rfl | cases h
  | record id h => exact yes h fun _ => rfl
  | _ => exact no fun _ => rfl

/-- What an inert value holds under a name is the same in all worlds, and inert. -/
theorem heldUnder? (h : v.Inert) (name : String) :
    ∃ held, (∀ x, held = some x → x.Inert) ∧ ∀ w : World, w.heldUnder? v name = held := by
  by_cases all : name = "__dict__"
  · subst all
    exact h.ownValues?
  · refine ⟨none, nofun, fun w => ?_⟩
    unfold World.heldUnder?
    rw [if_neg (by simpa using all)]
    cases h with
    | atom h => cases v <;> first | rfl | cases h
    | _ => rfl

/-- A member of an inert value is inert and read without effect, or it is absent, in all worlds. -/
theorem exec_readMember (h : v.Inert) (d : Dispatch) (name : String) :
    (∃ x, x.Inert ∧ ∀ w, exec (readMember d v name) w = (.ok x, w)) ∨
      ∃ e : Fault, e.isAbsence = true ∧ ∀ w, exec (readMember d v name) w = (.error e, w) := by
  have own : computedMember? d v name = (v.memberNamed? name).map pure := by
    have host := h.not_host
    cases v <;> first | rfl | cases host
  obtain ⟨held, inert, same⟩ := h.heldUnder? name
  unfold readMember
  rw [own]
  cases named : v.memberNamed? name with
  | some x =>
    refine .inl ⟨x, h.memberNamed? named, fun w => ?_⟩
    simp [h.not_host]
  | none =>
    simp only [Option.map_none]
    cases held with
    | some x =>
      refine .inl ⟨x, inert x rfl, fun w => ?_⟩
      unfold plainMember
      rw [exec_bind_ok (exec_get w), same w]
      rfl
    | none =>
      have plain : ∀ w, exec (plainMember d v name) w = exec
          (if v.provides name then pure (.method v name) else throw (.access .plain)) w := by
        intro w
        unfold plainMember
        rw [exec_bind_ok (exec_get w), same w]
        simp [h.not_host]
      simp only [plain]
      cases v.provides name with
      | true => exact .inl ⟨_, .method name h, fun _ => rfl⟩
      | false => exact .inr ⟨_, rfl, fun _ => rfl⟩

/-- Looking a name up in an inert value gives the same inert value in all worlds. -/
theorem exec_lookupKey (h : v.Inert) (call : Provider) (depth : Nat) (name : String) :
    ∃ x, x.Inert ∧
      ∀ w, exec (lookupKey (call.dispatch (depth + 1)) v (.str name)) w = (.ok x, w) := by
  -- what is no mapping is asked for a member, and a member that is absent counts as missing
  have object : v.isPresent = true → (∀ w : World, w.mapping? v = none) →
      ∃ x, x.Inert ∧
        ∀ w, exec (lookupKey (call.dispatch (depth + 1)) v (.str name)) w = (.ok x, w) := by
    intro present noMapping
    have asked : ∀ w, exec (lookupKey (call.dispatch (depth + 1)) v (.str name)) w
        = exec (memberOrMissing (call.dispatch (depth + 1)) v name) w := by
      intro w
      have mapping : exec (mappingOf? v) w = (.ok none, w) := by
        show (Except.ok (w.mapping? v), w) = _
        rw [noMapping]
      cases v <;> first
        | exact exec_bind_ok mapping _
        | cases present
    simp only [asked]
    rcases h.exec_readMember (call.dispatch depth) name with ⟨x, inert, run⟩ | ⟨e, absent, run⟩
    · exact ⟨x, inert, fun w => exec_orElseOn_ok (run w) _ _⟩
    · exact ⟨.missing, .atom rfl, fun w => exec_orElseOn_error (run w) absent _⟩
  cases h with
  | atom h =>
    cases v <;> first
      | exact object rfl fun _ => rfl
      | exact ⟨.missing, .atom rfl, fun _ => rfl⟩
      | cases h
  | @dict share entries h =>
    refine ⟨(Table.get? entries (Value.str name)).getD .missing, ?_, fun _ => rfl⟩
    cases found : Table.get? entries (Value.str name) with
    | none => exact .atom rfl
    | some x => exact get? h found
  | _ => exact object rfl fun _ => rfl

/-- Following a path through an inert value, by induction on the path. -/
theorem exec_followKeys (h : v.Inert) (call : Provider) (depth : Nat) {fallback : Value}
    (other : fallback.Inert) (path : List String) :
    ∃ x, x.Inert ∧ ∀ w, exec (followKeys (call.dispatch (depth + 1)) fallback v (path.map .str)) w
      = (.ok x, w) := by
  induction path generalizing v with
  | nil => exact ⟨v, h, fun _ => rfl⟩
  | cons name rest ih =>
    obtain ⟨x, inert, run⟩ := h.exec_lookupKey call depth name
    obtain ⟨y, inert', run'⟩ := ih inert
    refine ⟨if x.isMissing then fallback else y, ?_, fun w => ?_⟩
    · split
      · exact other
      · exact inert'
    · rw [List.map_cons, followKeys, exec_bind_ok (run w), exec_ite, run']
      split <;> rfl

/-- Whether an inert value counts as true is seen without effect. -/
theorem exec_truthOf (h : v.Inert) (d : Dispatch) (w : World) :
    exec (truthOf d v) w = (.ok v.isTrue, w) := by
  unfold truthOf
  rw [if_neg]
  · rfl
  · cases h with
    | atom h => cases v <;> first | exact Bool.false_ne_true | cases h
    | _ => exact Bool.false_ne_true

end Value.Inert

section Dispatched

variable (call : Provider) (depth : Nat) {w : World}

/-- Inert values are read without effect. -/
theorem World.quietSet_inert (sound : w.SoundSchemas) :
    w.QuietSet (call.dispatch (depth + 1)) Value.Inert where
  read v inert _ s name there := by
    obtain ⟨m, rfl⟩ := sound.declared_texts s name there
    obtain ⟨x, inert', run⟩ := inert.exec_lookupKey call depth m
    exact ⟨x, inert', fun w' _ => run w'⟩
  items v items inert sequence := by
    cases inert with
    | atom h => cases v <;> first | contradiction
    | list _ h =>
      obtain rfl := Option.some.inj sequence
      exact h
    | tuple h =>
      obtain rfl := Option.some.inj sequence
      exact h
    | _ => cases sequence

/-- Inert records are read without effect. -/
theorem Value.Inert.quiet {r : Value} (h : r.Inert) (sound : w.SoundSchemas) :
    w.Quiet (call.dispatch (depth + 1)) r := ⟨Value.Inert, w.quietSet_inert call depth sound, h⟩

/-- The flag of a field whose attributes for user interfaces are inert is read without effect, and
it is the same as long as the field stays as it is. -/
theorem World.exec_uiExclude_of_inert {f : Nat}
    (inert : ∀ ui, Table.get? (w.field f).attributes (.str "ui") = some ui → ui.Inert) :
    ∃ b, ∀ w' : World, w'.Plain → w'.fields = w.fields →
      exec (uiExclude (call.dispatch (depth + 1)) f) w' = (.ok b, w') := by
  have followed : ∃ x : Value, x.Inert ∧ ∀ w' : World, w'.Plain → w'.fields = w.fields →
      exec (fieldAttribute (call.dispatch (depth + 1)) f "ui.exclude" (.bool false)) w'
        = (.ok x, w') := by
    obtain ⟨ui, given⟩ : ∃ ui, (Table.get? (w.field f).attributes (.str "ui")).getD .missing = ui :=
      ⟨_, rfl⟩
    -- Without an attribute the path ends at once, with a value that is as inert.
    have inert' : ui.Inert := by
      cases found : Table.get? (w.field f).attributes (.str "ui") with
      | none => exact given ▸ found ▸ .atom rfl
      | some v =>
        rw [found, Option.getD_some] at given
        exact given ▸ inert v found
    obtain ⟨x, inert'', run⟩ := inert'.exec_followKeys call depth (.atom (v := .bool false) rfl)
      ["exclude"]
    refine ⟨if ui.isMissing then .bool false else x, ?_, fun w' plain fields => ?_⟩
    · split
      · exact .atom rfl
      · exact inert''
    · have field : w'.field f = w.field f := by
        rw [World.field, fields]
        rfl
      have looked : exec (lookupKey (call.dispatch (depth + 1))
          (.freshDict (w.field f).attributes) (.str "ui")) w' = (.ok ui, w') := by
        rw [← given]
        rfl
      unfold fieldAttribute
      rw [exec_bind_ok (exec_get w'), plain.fieldAttributes, field]
      show exec (followKeys _ _ _ [.str "ui", .str "exclude"]) w' = _
      rw [followKeys, exec_bind_ok looked, exec_ite]
      split
      · rfl
      · exact run w'
  obtain ⟨x, inert', run⟩ := followed
  refine ⟨x.isTrue, fun w' plain fields => ?_⟩
  unfold uiExclude
  rw [exec_bind_ok (run w' plain fields)]
  exact inert'.exec_truthOf _ w'

/-- Where all attributes of all fields are inert, all flags are read without effect. -/
theorem World.exec_uiExclude_of_entriesInert
    (inert : (w.fields.toList.all fun n => entriesInert n.attributes) = true) (f : Nat) :
    ∃ b, ∀ w' : World, w'.Plain → w'.fields = w.fields →
      exec (uiExclude (call.dispatch (depth + 1)) f) w' = (.ok b, w') := by
  refine World.exec_uiExclude_of_inert call depth fun ui given => ?_
  have all : entriesInert (w.field f).attributes = true :=
    getD_of_all w.fields (List.all_eq_true.mp inert) rfl f
  exact inert_of_entriesInert _ all ui (Table.mem_values_of_get? given)

end Dispatched

end DataShape
