import DataShape.Proofs.Schema.Commute
import DataShape.Proofs.Schema.Default
import DataShape.Proofs.Schema.Founded
import DataShape.Proofs.Schema.History

/-! # Schemas that extend others

A schema that descends from another one, without declaring a name of it again, does for these names
what the other one does: it lists them first, finds the same fields under them, projects and
converts their values alike and gives them the same defaults. What it adds comes behind.

* `World.Descends` — through any number of parents.
* `Descends.declared`, `Descends.fieldNamed?`, `Descends.reference` — names, fields and lists.
* `World.projected?_of_part` — a projection onto more names is projected like its record.
* `Descends.alike_convert`, `Descends.exec_defaultRecord` — conversions and records of defaults.
* `World.Conservative`, `descendant_conservative` — all of it, in every session. -/

namespace DataShape

/-- To merge names into others is to put some of them behind. -/
theorem mergeNames_eq_append (own : List Value) : ∀ inherited : List Value,
    ∃ rest, rest ⊆ own ∧ mergeNames inherited own = inherited ++ rest := by
  induction own with
  | nil => exact fun inherited => ⟨[], List.Subset.refl _, (List.append_nil _).symm⟩
  | cons n others ih =>
    intro inherited
    have step : mergeNames inherited (n :: others)
        = mergeNames (if n.isIn inherited then inherited else inherited ++ [n]) others := rfl
    rw [step]
    split
    · obtain ⟨rest, inside, merged⟩ := ih inherited
      exact ⟨rest, List.subset_cons_of_subset n inside, merged⟩
    · obtain ⟨rest, inside, merged⟩ := ih (inherited ++ [n])
      refine ⟨n :: rest, List.cons_subset_cons n inside, ?_⟩
      rw [merged, List.append_assoc]
      rfl

namespace World

/-! ## Descent -/

/-- A schema descends from another one through its parents, none of which, nor itself, declares a
name again that the other one has. -/
inductive Descends (w : World) (p : Nat) : Nat → Prop where
  | self : w.Descends p p
  | child {c q : Nat} (parent : (w.schema c).parent = some q) (above : w.Descends p q)
      (fresh : ∀ n ∈ (w.schema c).fields.keys, n ∉ w.declared p) : w.Descends p c

variable {w : World} {p c : Nat}

namespace Descends

variable (descends : w.Descends p c) (sound : w.SoundSchemas)

include descends sound

/-- A name that the first schema has leads to the same field. By induction on the descent: no schema
on the way has a field of its own under the name. -/
theorem fieldNamed? {n : Value} (there : n ∈ w.declared p) :
    w.fieldNamed? c n = w.fieldNamed? p n := by
  induction descends with
  | self => rfl
  | @child c q parent above fresh ih =>
    obtain ⟨m, rfl⟩ := sound.declared_texts p n there
    have own : (w.schema c).fields.get? (.str m) = none := by
      by_contra found
      obtain ⟨v, found⟩ := Option.ne_none_iff_exists'.mp found
      obtain ⟨key, inside, same⟩ := Table.exists_key_of_get? found
      obtain ⟨k, rfl⟩ := sound.ownNames_texts c key inside
      rw [Value.beq_str, beq_iff_eq] at same
      exact fresh _ inside (same ▸ there)
    rw [fieldNamed?_eq sound.older, own, parent, Option.none_or, Option.bind_some, ih]

theorem fieldUnder {n : Value} (there : n ∈ w.declared p) :
    w.fieldUnder c n = w.fieldUnder p n := by
  rw [World.fieldUnder, World.fieldUnder, descends.fieldNamed? sound there]

omit descends in
/-- Whether a child declares a name again can be asked. -/
theorem child_of_unknown {q : Nat} (parent : (w.schema c).parent = some q) (above : w.Descends p q)
    (unknown : ((w.schema c).fields.keys.all fun n => !n.isIn (w.declared p)) = true) :
    w.Descends p c := by
  refine .child parent above fun n there inside => ?_
  obtain ⟨m, rfl⟩ := sound.declared_texts p n inside
  have known := ((sound.declared_texts p).isIn_iff m).mpr inside
  have new := List.all_eq_true.mp unknown _ there
  rw [known] at new
  cases new

/-- The names of the first schema come first, and no other name is one of them. -/
theorem declared : ∃ rest, w.declared c = w.declared p ++ rest ∧ ∀ n ∈ rest, n ∉ w.declared p := by
  suffices whole : ∃ rest, w.declared c = w.declared p ++ rest by
    obtain ⟨rest, whole⟩ := whole
    have distinct := sound.declared_nodup c
    rw [whole] at distinct
    exact ⟨rest, whole, fun n there inside => List.disjoint_of_nodup_append distinct inside there⟩
  induction descends with
  | self => exact ⟨[], (List.append_nil _).symm⟩
  | @child c q parent above fresh ih =>
    obtain ⟨rest, whole⟩ := ih
    obtain ⟨own, -, merged⟩ := mergeNames_eq_append (w.schema c).fields.keys (w.declared q)
    refine ⟨rest ++ own, ?_⟩
    rw [declared_eq sound.older, parent, Option.elim_some, merged, whole, List.append_assoc]

/-- So it is for what is listed. -/
theorem reference (hidden : Nat → Bool) (uiOnly : Bool) :
    ∃ rest, w.reference hidden c ⟨uiOnly, false⟩ = w.reference hidden p ⟨uiOnly, false⟩ ++ rest ∧
      ∀ n ∈ rest, n ∉ w.declared p := by
  obtain ⟨rest, whole, others⟩ := descends.declared sound
  unfold World.reference World.covered
  simp only [Bool.false_eq_true, if_false, whole]
  cases uiOnly with
  | false => exact ⟨rest, rfl, others⟩
  | true =>
    refine ⟨rest.filter fun n => !hidden (w.fieldUnder c n), ?_, fun n there =>
      others n (List.mem_of_mem_filter there)⟩
    simp only [if_true]
    rw [List.filter_append]
    refine congrArg (· ++ _) (List.filter_congr fun n there => ?_)
    rw [descends.fieldUnder sound there]

end Descends

/-- What a schema lists with faithful lists is the reference list. -/
theorem SoundSchemas.listed_eq_reference {call : Provider} {depth : Nat} {hidden : Nat → Bool}
    {uiOnly : Bool} (sound : w.SoundSchemas) (faithful : w.Faithful call)
    (flags : uiOnly = true → w.FlagsTold call depth hidden) (s : Nat) :
    w.listed (call.dispatch depth) uiOnly s = w.reference hidden s ⟨uiOnly, false⟩ := by
  cases uiOnly with
  | false => rfl
  | true =>
    rw [listed, if_pos rfl]
    cases kept : (w.schema s).fieldLists.get? shownOnly with
    | some names => exact faithful s _ names kept hidden fun _ n _ => (flags rfl _).2
    | none =>
      refine List.filter_congr fun n there => ?_
      rw [shows, sound.fieldNamed?_eq_fieldUnder there]
      have answer := (flags rfl (w.fieldUnder s n)).1 w sound.plain sound.unshared rfl
      show (!w.excludes _ _) = _
      rw [World.excludes, answer]

/-! ## Projections -/

/-- What a schema projects is projected like the record itself by one that lists a part of its
names, with the same fields. -/
theorem projected?_of_part {d : Dispatch} {uiOnly : Bool} (sound : w.SoundSchemas)
    (part : w.listed d uiOnly p ⊆ w.listed d uiOnly c)
    (under : ∀ n ∈ w.listed d uiOnly p, w.fieldUnder c n = w.fieldUnder p n) (depth : Nat)
    {r x : Value} (h : w.projected? d uiOnly depth c r = some x) :
    ∃ y, w.projected? d uiOnly depth p r = some y ∧
      ∀ k, x.depth < k → w.projected? d uiOnly k p x = some y := by
  cases depth with
  | zero => cases h
  | succ depth =>
    have both : ∀ n ∈ w.listed d uiOnly p,
        n ∈ w.listed d uiOnly c ↔ n ∈ w.listed d (uiOnly || uiOnly) p := fun n there =>
      iff_of_true (part there) (by rwa [Bool.or_self])
    have again := sound.projected?_again (projected?_compose sound depth) both under h
    rwa [Bool.or_self] at again

/-! ## Conversions -/

/-- In all worlds that resemble a world a mapping has the given entries under keys, and their values
and the items of these are worded alike. -/
structure ReadsAlike (d : Dispatch) (w : World) (record : Value) (entries : Entries) : Prop where
  mapping : ∀ u, Readable w.Resembles u → u.mapping? record = some entries
  keyed : ∀ e ∈ entries, e.1.hashable = true
  worded : ∀ e ∈ entries, ∀ v ∈ e.2 :: e.2.sequence?.getD [], w.WordedAlike d v

/-- A mapping that does not hold the lists that a schema keeps is so. -/
theorem readsAlike_of_open (named : w.NamesAreTexts) (sound : w.SoundSchemas) (call : Provider)
    (depth : Nat) {record : Value} {entries : Entries} (mapping : w.mapping? record = some entries)
    (opened : record.IsOpen w) (keyed : ∀ e ∈ entries, e.1.hashable = true) :
    w.ReadsAlike (call.dispatch depth) record entries where
  mapping u h := (opened.mapping? h.2).trans mapping
  keyed := keyed
  worded e there v item := by
    have value := opened.entries mapping e there
    refine wordedAlike_of_open named sound call depth ?_
    rcases List.mem_cons.mp item with rfl | item
    · exact value
    · cases sequence : e.2.sequence? with
      | none =>
        rw [sequence] at item
        cases item
      | some items =>
        rw [sequence] at item
        exact value.items sequence v item

/-- The types of fields read each text in one way, in all worlds that resemble a world. -/
def ReadersAgree (d : Dispatch) (w : World) (E : Value → Value → Prop) : Prop :=
  ∀ f t c, (w.field f).type = .type t → w.reader? t = some c → ∀ text,
    Agrees E (Readable w.Resembles) (readText d (.type t) text)

/-- Types of the kinds of the catalog do, but for the marks of numbers that are none. -/
theorem readersAgree_of_kinds {call : Provider} (serves : call.ServesCatalog) (depth : Nat)
    (kinds : ∀ f t, (w.field f).type = .type t → ∃ k, w.HasKind t k) :
    w.ReadersAgree (call.dispatch (depth + 1)) Value.EqualUpToMarks :=
  fun f t _ held reader text => (kinds f t held).elim fun _ kind =>
    kind.agrees_readText w.vicinity_readable serves reader text

section Conversion

variable {d : Dispatch} {E : Value → Value → Prop} (equal : Equivalence E)
  (reads : w.ReadersAgree d E) (sound : w.SoundSchemas) {record : Value} {entries : Entries}
  (alike : w.ReadsAlike d record entries)

include equal reads sound alike

/-- What becomes of such values is told by a world, under every schema. -/
theorem ReadsAlike.converts (s : Nat) :
    w.Converts d E (Readable w.Resembles) s entries := by
  refine fun e there => ⟨alike.keyed e there, fun f _ i inside => ?_⟩
  have here : Readable w.Resembles w := ⟨sound, .refl w⟩
  have near := w.vicinity_readable
  have item : i ∈ e.2 :: e.2.sequence?.getD [] := by
    unfold fieldItems at inside
    split at inside
    · cases sequence : e.2.sequence? with
      | none =>
        rw [sequence] at inside
        exact List.mem_singleton.mp inside ▸ List.mem_cons_self
      | some items =>
        rw [sequence] at inside
        exact List.mem_cons_of_mem _ inside
    · exact List.mem_singleton.mp inside ▸ List.mem_cons_self
  cases held : (w.field f).type with
  | schema inner => exact near.ends_convertBy_of_schema here held i
  | type t =>
    rw [itemAlike_of_type held]
    have worded := alike.worded e there i item
    exact (agrees_convertBy near equal worded.text worded.shown
      (reads f)).ends equal here

/-- **Conversions by a descendant.** Where both schemas convert a mapping, the results have the same
names of the first schema, with values that are alike. -/
theorem Descends.alike_convert (descends : w.Descends p c) {x y : Value} {w₁ w₂ : World}
    (below : exec (convert d c record false) w = (.ok x, w₁))
    (above : exec (convert d p record false) w₁ = (.ok y, w₂)) :
    ∃ fs gs, x = .freshDict fs ∧ y = .freshDict gs ∧
      ∀ n ∈ w.declared p, Option.Rel (Alike E) (Table.get? fs n) (Table.get? gs n) := by
  have here : Readable w.Resembles w := ⟨sound, .refl w⟩
  have converted : ∀ s u, Readable w.Resembles u → ∀ z u',
      exec (convert d s record false) u = (.ok z, u') → ∃ es, z = .freshDict es ∧
        Readable w.Resembles u' ∧ List.Forall₂ (w.Converted d E s) entries es := by
    intro s u h z u' given
    rcases exec_convert_cases w.vicinity_readable sound here alike.mapping
      (alike.converts equal reads sound s) h with ⟨_, _, run, -⟩ | ⟨es, u₁, run, h', related⟩
    · rw [given] at run
      cases run
    · rw [given] at run
      obtain ⟨same, rfl⟩ := Prod.mk.inj run
      exact ⟨es, Except.ok.inj same, h', related⟩
  obtain ⟨fs, rfl, here₁, related⟩ := converted c w here x w₁ below
  obtain ⟨gs, rfl, -, related'⟩ := converted p w₁ here₁ y w₂ above
  refine ⟨fs, gs, rfl, rfl, fun n there => ?_⟩
  obtain ⟨m, rfl⟩ := sound.declared_texts p n there
  have named := sound.fieldNamed?_eq_fieldUnder there
  -- Both results have the keys of the mapping, so a name is in both of them or in neither.
  rcases get?_of_forall₂ related (fun _ _ => Converted.key) m with
    ⟨absent, none⟩ | ⟨v, y, found, some, -, first⟩ <;>
  rcases get?_of_forall₂ related' (fun _ _ => Converted.key) m with
    ⟨absent', none'⟩ | ⟨v', y', found', some', -, second⟩
  · rw [none, none']
    exact .none
  · rw [absent] at found'
    cases found'
  · rw [found] at absent'
    cases absent'
  · rw [found] at found'
    obtain rfl := Option.some.inj found'
    obtain ⟨z, run, related⟩ := first.value ((descends.fieldNamed? sound there).trans named)
    obtain ⟨z', run', related'⟩ := second.value named
    rw [run] at run'
    obtain rfl := Except.ok.inj run'
    rw [some, some']
    exact .some ((related.both equal related').alike equal.refl)

end Conversion

/-! ## Defaults -/

section Defaults

variable {call : Provider} {depth : Nat} {hidden : Nat → Bool} {uiOnly : Bool}
  {E : Value → Value → Prop}

/-- The entries for names of the first schema are the same for both. -/
theorem Descends.defaultEntries (descends : w.Descends p c) (sound : w.SoundSchemas) (d : Dispatch)
    (names : List Value) (inside : names ⊆ w.declared p) :
    w.defaultEntries d c names = w.defaultEntries d p names := by
  suffices same : names.mapM (w.defaultEntry d c) = names.mapM (w.defaultEntry d p) by
    rw [World.defaultEntries, same, World.defaultEntries]
  induction names with
  | nil => rw [List.mapM_nil, List.mapM_nil]
  | cons n rest ih =>
    have entry : w.defaultEntry d c n = w.defaultEntry d p n := by
      rw [defaultEntry, descends.fieldUnder sound (inside List.mem_cons_self), defaultEntry]
    rw [List.mapM_cons, List.mapM_cons, entry, ih fun m there =>
      inside (List.mem_cons_of_mem n there)]

/-- **Defaults of a descendant.** Where a descendant gives a record of defaults, the first schema
gives one too: the entries that come first, before those under other names. -/
theorem Descends.exec_defaultRecord [(call.dispatch depth).Within (Retains call)]
    (descends : w.Descends p c) (equal : Equivalence E)
    (defaults : w.DefaultsAgree (call.dispatch depth) E) (sound : w.SoundSchemas)
    (faithful : w.Faithful call) (flags : uiOnly = true → w.FlagsTold call depth hidden) {x : Value}
    {w₁ : World}
    (below : exec (defaultRecord (call.dispatch depth) c (.bool uiOnly)) w = (.ok x, w₁)) :
    ∃ es rest gs w₂, x = .freshDict (es ++ rest) ∧
      exec (defaultRecord (call.dispatch depth) p (.bool uiOnly)) w₁
        = (.ok (.freshDict gs), w₂) ∧
      List.Forall₂ (EntryRelated E) es gs ∧ ∀ e ∈ rest, e.1 ∉ w.declared p := by
  obtain ⟨r, w', run, matched, here₁⟩ :=
    World.exec_defaultRecord equal defaults sound flags c ⟨sound, .refl w⟩ faithful
  rw [below] at run
  obtain ⟨rfl, rfl⟩ := Prod.mk.inj run
  obtain ⟨-, faithful₁, -⟩ := Along.of_ok (R := Retains call) below sound faithful
  obtain ⟨r', w₂, run', matched', -⟩ :=
    World.exec_defaultRecord equal defaults sound flags p here₁ faithful₁
  obtain ⟨rest, listed, others⟩ := descends.reference sound hidden uiOnly
  -- the entries of the descendant are those of the first schema and then others
  rw [listed, w.defaultEntries_append, descends.defaultEntries sound _ _
    (w.reference_sublist hidden p uiOnly).subset] at matched
  generalize w.defaultEntries (call.dispatch depth) p (w.reference hidden p ⟨uiOnly, false⟩)
    = entries at matched matched'
  cases more : w.defaultEntries (call.dispatch depth) c rest with
  | error e =>
    rw [more] at matched
    cases entries <;> cases matched
  | ok added =>
    rw [more] at matched
    cases entries with
    | error e => cases matched
    | ok es =>
      obtain ⟨fs, rfl, related⟩ : ∃ fs, x = .freshDict fs ∧
          List.Forall₂ (EntryRelated E) (es ++ added) fs := by
        cases matched with
        | ok h => exact h
      cases matched' with
      | ok h =>
        obtain ⟨gs, rfl, related'⟩ := h
        have first := (List.forall₂_take_append fs es added related.flip).flip
        have second := (List.forall₂_drop_append fs es added related.flip).flip
        refine ⟨fs.take es.length, fs.drop es.length, gs, w₂, by rw [List.take_append_drop], run',
          forall₂_both (fun e f g one two => ⟨one.1.symm.trans two.1,
            equal.trans (equal.symm one.2) two.2⟩) first related', fun f there => ?_⟩
        obtain ⟨e, inside, key, -⟩ := exists_of_forall₂ second there
        rw [← key]
        exact others _ (w.key_of_defaultEntries _ c more e inside)

end Defaults

/-! ## Sessions -/

/-- A schema `c` does what a schema `p` does for the names of `p`, where it is known which fields
are left out of user interfaces. -/
structure Conservative (d : Dispatch) (w : World) (hidden : Nat → Bool) (uiOnly : Bool)
    (p c : Nat) : Prop where
  /-- The names of the schema are listed first. -/
  lists : ∃ rest w₁ w₂,
    exec (fieldNames d c [.bool uiOnly]) w
      = (.ok (w.reference hidden p ⟨uiOnly, false⟩ ++ rest), w₁) ∧
    exec (fieldNames d p [.bool uiOnly]) w₁ = (.ok (w.reference hidden p ⟨uiOnly, false⟩), w₂)
  /-- They lead to the same fields. -/
  finds : ∀ n ∈ w.declared p, ∃ f, exec (findField d p n) w = (.ok (.field f), w) ∧
    exec (findField d c n) w = (.ok (.field f), w)
  /-- A record that is read without effect is projected like its projection. -/
  projects : ∀ r, w.Quiet d r →
    (w.Founded → ∃ x w₁, exec (sanitize d c r (.bool uiOnly)) w = (.ok x, w₁)) ∧
    ∀ x w₁, exec (sanitize d c r (.bool uiOnly)) w = (.ok x, w₁) → ∃ y w₂ w₃,
      exec (sanitize d p x (.bool uiOnly)) w₁ = (.ok y, w₂) ∧
      exec (sanitize d p r (.bool uiOnly)) w₂ = (.ok y, w₃)
  /-- Where texts are read in one way, a mapping whose values are worded alike throughout is
  converted to the same values. -/
  converts : ∀ E, Equivalence E → w.ReadersAgree d E →
    ∀ record entries, w.ReadsAlike d record entries →
    ∀ x w₁ y w₂, exec (convert d c record false) w = (.ok x, w₁) →
      exec (convert d p record false) w₁ = (.ok y, w₂) →
      ∃ fs gs, x = .freshDict fs ∧ y = .freshDict gs ∧
        ∀ n ∈ w.declared p, Option.Rel (Alike E) (Table.get? fs n) (Table.get? gs n)
  /-- Where defaults are produced in one way, there is a record of them unless one of them fails,
  and then it begins with the one of the schema. -/
  defaults : ∀ E, Equivalence E → w.DefaultsAgree d E →
    ((∃ e w₁, exec (defaultRecord d c (.bool uiOnly)) w = (.error e, w₁)) ↔
      ∃ n ∈ w.reference hidden c ⟨uiOnly, false⟩, ∃ e w₁,
        exec (recordDefault d (.field (w.fieldUnder c n))) w = (.error e, w₁)) ∧
    ∀ x w₁, exec (defaultRecord d c (.bool uiOnly)) w = (.ok x, w₁) → ∃ es rest gs w₂,
      x = .freshDict (es ++ rest) ∧
      exec (defaultRecord d p (.bool uiOnly)) w₁ = (.ok (.freshDict gs), w₂) ∧
      List.Forall₂ (EntryRelated E) es gs ∧ ∀ e ∈ rest, e.1 ∉ w.declared p

section Known

variable {call : Provider} {depth : Nat} {hidden : Nat → Bool} {uiOnly : Bool}

theorem FlagsTold.flagsQuiet (told : w.FlagsTold call depth hidden) (sound : w.SoundSchemas) :
    w.FlagsQuiet (call.dispatch depth) := by
  refine fun f => ⟨hidden f, fun w' relisted => ?_⟩
  have kept := congrArg World.sharedParts relisted.rest
  exact (told f).1 w' (relisted.plain sound.plain) (kept.trans sound.unshared) (relisted.field f)

/-- A schema lists the reference list, given the first flag only. -/
theorem SoundSchemas.exec_fieldNames_reference (sound : w.SoundSchemas) (faithful : w.Faithful call)
    (flags : uiOnly = true → w.FlagsTold call depth hidden) (s : Nat) :
    ∃ w', exec (fieldNames (call.dispatch depth) s [.bool uiOnly]) w
        = (.ok (w.reference hidden s ⟨uiOnly, false⟩), w') ∧
      w.Relisted w' ∧ w'.SoundSchemas := by
  have told : w.Told call depth hidden s ⟨uiOnly, false⟩ := fun shown n _ => flags shown _
  obtain ⟨w', run, kept⟩ := sound.exec_fieldList faithful told
  refine ⟨w', ?_, kept⟩
  have chosen : exec (Projection.ofFlags (call.dispatch depth) [.bool uiOnly]) w
      = (.ok ⟨uiOnly, false⟩, w) := rfl
  rw [sound.plain.exec_fieldNames chosen, run]

variable (descends : w.Descends p c) (sound : w.SoundSchemas) (faithful : w.Faithful call)
  (flags : uiOnly = true → w.FlagsTold call depth hidden)

include descends sound faithful flags

/-- **Projections of a descendant.** What a descendant projects is projected like the record. -/
theorem Descends.exec_sanitize {r x : Value} (quiet : w.Quiet (call.dispatch depth) r) {w₁ : World}
    (below : exec (sanitize (call.dispatch depth) c r (.bool uiOnly)) w = (.ok x, w₁)) :
    ∃ y w₂ w₃, exec (sanitize (call.dispatch depth) p x (.bool uiOnly)) w₁ = (.ok y, w₂) ∧
      exec (sanitize (call.dispatch depth) p r (.bool uiOnly)) w₂ = (.ok y, w₃) := by
  obtain ⟨P, quiet, member⟩ := quiet
  have flagsQuiet : uiOnly = true → w.FlagsQuiet (call.dispatch depth) := fun shown =>
    (flags shown).flagsQuiet sound
  obtain ⟨w₁', run₁, same₁⟩ := (SameLists.refl sound).exec_sanitize sound quiet flagsQuiet c member
  rw [below] at run₁
  obtain ⟨given, rfl⟩ := Prod.mk.inj run₁
  have projected := outcome_eq_ok.mp given.symm
  have listed := sound.listed_eq_reference faithful flags
  have sub := (w.reference_sublist hidden p uiOnly).subset
  obtain ⟨rest, whole, -⟩ := descends.reference sound hidden uiOnly
  obtain ⟨y, once, again⟩ := projected?_of_part sound
    (by rw [listed, listed, whole]; exact List.subset_append_left _ _)
    (fun n there => descends.fieldUnder sound (sub (listed p ▸ there))) _ projected
  obtain ⟨w₂, run₂, same₂⟩ := same₁.exec_sanitize sound (quiet.composed sound) flagsQuiet p
    (quiet.composed_projected? sound _ c r x member projected)
  obtain ⟨w₃, run₃, -⟩ := same₂.exec_sanitize sound quiet flagsQuiet p member
  rw [again _ (by unfold objectDepth; omega)] at run₂
  rw [once] at run₃
  exact ⟨y, w₂, w₃, run₂, run₃⟩

/-- The names of the first schema are listed first. -/
theorem Descends.exec_fieldNames [(call.dispatch depth).Within (Retains call)] : ∃ rest w₁ w₂,
    exec (fieldNames (call.dispatch depth) c [.bool uiOnly]) w
      = (.ok (w.reference hidden p ⟨uiOnly, false⟩ ++ rest), w₁) ∧
    exec (fieldNames (call.dispatch depth) p [.bool uiOnly]) w₁
      = (.ok (w.reference hidden p ⟨uiOnly, false⟩), w₂) := by
  obtain ⟨rest, whole, -⟩ := descends.reference sound hidden uiOnly
  obtain ⟨w₁, below, relisted, sound₁⟩ := sound.exec_fieldNames_reference faithful flags c
  obtain ⟨-, faithful₁, -⟩ := Along.of_ok (R := Retains call) below sound faithful
  have resembles := (Resembles.refl w).relisted relisted
  obtain ⟨w₂, above, -⟩ := sound₁.exec_fieldNames_reference faithful₁
    (fun shown => (flags shown).resembling resembles) p
  rw [whole] at below
  rw [resembles.reference] at above
  exact ⟨rest, w₁, w₂, below, above⟩

end Known

end World

/-- **Conservative extension.** In every session in which no field is modified, a schema that
descends from another one, without declaring a name of it again, does for these names what the other
one does: what it lists, finds, projects, converts and gives as defaults. -/
theorem descendant_conservative {call : Provider} (user : call.Within (World.Retains call))
    {depth : Nat} {w₀ w : World} (start : w₀.NoObjects) {history : List Compilation}
    (run : SchemaHistory (call.dispatch depth) w₀ history w) {p c : Nat}
    (inside : c < w.schemas.size) (descends : w.Descends p c) {hidden : Nat → Bool} {uiOnly : Bool}
    (flags : uiOnly = true → w.FlagsTold call depth hidden) :
    w.Conservative (call.dispatch depth) hidden uiOnly p c := by
  have within := Provider.dispatch_retains user depth
  obtain ⟨sound, faithful, -⟩ := run.retained user start
  refine ⟨descends.exec_fieldNames sound faithful flags, fun n there => ?_, fun r quiet => ⟨?_, ?_⟩,
    ?_, fun E equal defaults => ⟨?_, ?_⟩⟩
  · refine ⟨w.fieldUnder p n, sound.exec_findField_of_declared _ there, ?_⟩
    rw [sound.exec_findField _ c ((sound.declared_texts p).hashable there),
      descends.fieldNamed? sound there, sound.fieldNamed?_eq_fieldUnder there]
    rfl
  · intro founded
    obtain ⟨P, quiet, member⟩ := quiet
    obtain ⟨w₁, projected, -⟩ := (World.SameLists.refl sound).exec_sanitize_of_founded sound founded
      quiet (fun shown => (flags shown).flagsQuiet sound) inside member
    exact ⟨_, w₁, projected⟩
  · exact fun x w₁ below => descends.exec_sanitize sound faithful flags quiet below
  · exact fun E equal reads record entries alike x w₁ y w₂ below above =>
      World.Descends.alike_convert equal reads sound alike descends below above
  · exact World.defaultRecord_fails_iff equal defaults sound faithful flags c
  · exact fun x w₁ below =>
      descends.exec_defaultRecord equal defaults sound faithful flags below

/-- A provider that converts as the catalog does, and gives what any other function captured. -/
def producing : Provider := fun d f arguments _ =>
  match f, arguments with
  | .function 0 _ (.marshal m) [], [v] => m.apply d v
  | .function _ _ _ (v :: _), [] => pure v
  | _, _ => throw .wrongType

theorem producing_within {R : World → World → Prop} [Frame R] : producing.Within R := by
  intro d within f arguments named
  unfold producing
  split <;> infer_instance

/-- Whether such a provider makes a default of a value, if any, without effect. -/
def Value.isProducible : Value → Bool
  | .function _ _ _ (_ :: _) => true
  | v => v.isScalar

theorem produces_of_isProducible {v : Value} (h : v.isProducible = true) (depth : Nat) :
    ∃ r, Produces (producing.dispatch (depth + 1)) v r := by
  unfold Value.isProducible at h
  split at h
  · next v rest =>
    refine ⟨.ok v, nofun, fun u => ?_⟩
    simp [produceDefault, Value.isCallable, Provider.dispatch, producing]
  · exact ⟨_, produces_of_scalar h _⟩

/-- Whether a type gives a scalar as its default. -/
def World.givesScalar (w : World) : FieldType → Bool
  | .type t => ((w.attributeAlong? (w.lineage t) (.str "default_value")).getD .missing).isScalar
  | .schema _ => true

/-- Then fields that declare such values, of types that give scalars, have defaults that are
produced in one way. -/
theorem World.defaultsAgree_of_isProducible {w : World} {E : Value → Value → Prop}
    (equal : Equivalence E)
    (fields : ∀ f ∈ w.fields.toList,
      ((Table.get? f.attributes (.str "default")).getD .missing).isProducible = true)
    (otherField : ((Table.get? (default : FieldNode).attributes (.str "default")).getD
      .missing).isProducible = true)
    (types : ∀ f ∈ w.fields.toList, w.givesScalar f.type = true)
    (otherType : w.givesScalar (default : FieldNode).type = true) (depth : Nat) :
    w.DefaultsAgree (producing.dispatch (depth + 1)) E := by
  refine World.defaultsAgree_of_produces equal (fun f => ?_) fun f t held => ?_
  · exact produces_of_isProducible (getD_of_all w.fields fields otherField f) depth
  · have scalar : w.givesScalar (w.field f).type = true := getD_of_all w.fields types otherType f
    rw [held] at scalar
    exact ⟨_, produces_of_scalar scalar _⟩

/-- A schema of a party, one that adds a role, and one that adds nested parties. -/
def partyTemplate : Entries :=
  [(.str "name", .ofFields [("type", .str "String"),
      ("default", .function 1 none .spawn [.str "nobody"])]),
    (.str "amounts", .fresh [.str "Number"]), (.str "secret", hiddenSpec "Number")]

def roleTemplate : Entries := [(.str "role", .str "String")]

def staffTemplate : Entries :=
  [(.str "boss", .schema 0), (.str "others", .fresh [.schema 0])]

/-- A record with an amount to be read, a nested party, and values that are not listed. -/
def staffRecord : Value :=
  .ofFields [("others", .ofFields [("name", .str "c")]), ("amounts", .str " 12 "),
    ("boss", .ofFields [("name", .int 4), ("role", .str "x")]), ("role", .str "y"),
    ("secret", .str "7"), ("more", .int 1)]

/-- Names, projections, conversions and defaults of a schema two parents further down, after lists
and projections in between. -/
theorem descendant_conservative_staff :
    let d := producing.dispatch 3
    producing.Within (World.Retains producing) ∧ (World.empty "" []).NoObjects ∧
    ∃ history w hidden entries, SchemaHistory d (.empty "" []) history w ∧
      2 < w.schemas.size ∧ w.Descends 0 2 ∧ w.FlagsTold producing 3 hidden ∧ w.Founded ∧
      w.Quiet d staffRecord ∧ w.ReadsAlike d staffRecord entries ∧
      w.ReadersAgree d Value.EqualUpToMarks ∧ w.DefaultsAgree d (· = ·) ∧
      (∃ rest w₁ w₂,
        exec (fieldNames d 2 [.bool true]) w = (.ok ([.str "name", .str "amounts"] ++ rest), w₁) ∧
        exec (fieldNames d 0 [.bool true]) w₁ = (.ok [.str "name", .str "amounts"], w₂)) ∧
      (∃ x w₁ y w₂ w₃, exec (sanitize d 2 staffRecord (.bool true)) w = (.ok x, w₁) ∧
        exec (sanitize d 0 x (.bool true)) w₁ = (.ok y, w₂) ∧
        exec (sanitize d 0 staffRecord (.bool true)) w₂ = (.ok y, w₃)) ∧
      (∃ fs gs w₁ w₂, exec (convert d 2 staffRecord false) w = (.ok (.freshDict fs), w₁) ∧
        exec (convert d 0 staffRecord false) w₁ = (.ok (.freshDict gs), w₂) ∧
        Option.Rel (Alike Value.EqualUpToMarks) (Table.get? fs (.str "amounts"))
          (Table.get? gs (.str "amounts"))) ∧
      ∃ es rest gs w₁ w₂, exec (defaultRecord d 2 (.bool true)) w
          = (.ok (.freshDict (es ++ rest)), w₁) ∧
        exec (defaultRecord d 0 (.bool true)) w₁ = (.ok (.freshDict gs), w₂) ∧
        List.Forall₂ (EntryRelated (· = ·)) es gs := by
  intro d
  have user : producing.Within (World.Retains producing) := producing_within
  have start : (World.empty "" []).NoObjects := ⟨rfl, rfl, rfl, rfl⟩
  let w₁ := afterSession d [.newRegistry, .define 0 (.seed false)] (.empty "" [])
  let party := exec (compileSchema d (.freshDict partyTemplate) .null .null (.registry 0)) w₁
  let w₂ := afterSession d [.list 0 [.bool true]] party.2
  let role := exec (compileSchema d (.freshDict roleTemplate) .null (.schema 0) .null) w₂
  let w₃ := afterSession d [.sanitize 1 staffRecord (.bool true)] role.2
  let staff := exec (compileSchema d (.freshDict staffTemplate) .null (.schema 1) .null) w₃
  let w := staff.2
  let c₀ : Compilation := ⟨0, none, templateNames partyTemplate, (party.2.schema 0).fields⟩
  let c₁ : Compilation := ⟨1, some 0, templateNames roleTemplate, (role.2.schema 1).fields⟩
  let c₂ : Compilation := ⟨2, some 1, templateNames staffTemplate, (w.schema 2).fields⟩
  have run : SchemaHistory d (.empty "" []) [c₂, c₁, c₀] w := by
    have first : SchemaHistory d (.empty "" []) [] w₁ := .afterSession _ rfl .start
    have second : SchemaHistory d (.empty "" []) [c₀] w₂ := .afterSession _ rfl <|
      first.compilation partyTemplate (some 0) none nofun (rfl : party = party)
        (by decide +kernel : party.1.toOption = some 0)
    have parent : 0 < w₂.schemas.size ∧ 1 < w₃.schemas.size := by decide +kernel
    have third : SchemaHistory d (.empty "" []) [c₁, c₀] w₃ := .afterSession _ rfl <|
      second.compilation roleTemplate none (some 0) (fun p same => Option.some.inj same ▸ parent.1)
        (rfl : role = role) (by decide +kernel : role.1.toOption = some 1)
    exact third.compilation staffTemplate none (some 1)
      (fun p same => Option.some.inj same ▸ parent.2)
      (rfl : staff = staff) (by decide +kernel : staff.1.toOption = some 2)
  obtain ⟨inside, nested, kinds, otherKind, told, parents, apart, names, shown⟩ :
      2 < w.schemas.size ∧ w.isFounded = true ∧
      (∀ f ∈ w.fields.toList, w.holdsKind [.text, .number] f.type = true) ∧
      w.holdsKind [.text, .number] (default : FieldNode).type = true ∧
      (∀ f < w.fields.size, (w.flag? f).isSome = true) ∧
      ((w.schema 2).parent = some 1 ∧ (w.schema 1).parent = some 0) ∧
      ((w.schema 2).fields.keys ++ (w.schema 1).fields.keys).all
        (fun n => !n.isIn (w.declared 0)) = true ∧
      (∀ s ∈ w.schemas.toList, s.collectionName.isNull || s.collectionName.text?.isSome) ∧
      (w.reference (fun f => (w.flag? f).getD false) 0 ⟨true, false⟩).filterMap Value.text?
        = ["name", "amounts"] := by decide +kernel
  obtain ⟨fields, otherField, types, otherType⟩ :
      (∀ f ∈ w.fields.toList,
        ((Table.get? f.attributes (.str "default")).getD .missing).isProducible = true) ∧
      ((Table.get? (default : FieldNode).attributes (.str "default")).getD .missing).isProducible
        = true ∧
      (∀ f ∈ w.fields.toList, w.givesScalar f.type = true) ∧
      w.givesScalar (default : FieldNode).type = true := by decide +kernel
  obtain ⟨below, above, made⟩ :
      (exec (convert d 2 staffRecord false) w).1.isOk = true ∧
      (exec (convert d 0 staffRecord false) (exec (convert d 2 staffRecord false) w).2).1.isOk
        = true ∧
      (exec (defaultRecord d 2 (.bool true)) w).1.isOk = true := by decide +kernel
  obtain ⟨sound, -, -⟩ := run.retained user start
  have flags : w.FlagsTold producing 3 fun f => (w.flag? f).getD false :=
    World.flagsTold_of_flag? told producing 3
  have founded : w.Founded := World.founded_of_isFounded nested
  have named : w.NamesAreTexts := World.namesAreTexts_of_all names
  have descends : w.Descends 0 2 := by
    rw [List.all_append, Bool.and_eq_true] at apart
    have middle : w.Descends 0 1 := .child_of_unknown sound parents.2 .self apart.2
    exact .child_of_unknown sound parents.1 middle apart.1
  have quiet : w.Quiet d staffRecord :=
    ⟨Value.Inert, w.quietSet_inert producing 2 sound,
      Value.inert_of_isInert staffRecord (by decide +kernel)⟩
  have opened : staffRecord.IsOpen w := by
    refine .ofFields fun f there => ?_
    simp only [List.mem_cons, List.not_mem_nil, or_false] at there
    rcases there with rfl | rfl | rfl | rfl | rfl | rfl
    case inl =>
      refine .ofFields fun f there => ?_
      obtain rfl := List.mem_singleton.mp there
      exact .constant rfl
    case inr.inr.inl =>
      refine .ofFields fun f there => ?_
      simp only [List.mem_cons, List.not_mem_nil, or_false] at there
      rcases there with rfl | rfl <;> exact .constant rfl
    all_goals exact .constant rfl
  have mapping : w.mapping? staffRecord = some _ := rfl
  have alike := World.readsAlike_of_open named sound producing 3 mapping opened fun e there => by
    simp only [List.map_cons, List.map_nil, List.mem_cons, List.not_mem_nil, or_false] at there
    rcases there with rfl | rfl | rfl | rfl | rfl | rfl <;> rfl
  have reads : w.ReadersAgree d Value.EqualUpToMarks :=
    World.readersAgree_of_kinds (fun _ _ _ => rfl) 2 fun f t held =>
      World.kind_of_holdsKind _ kinds otherKind held
  have defaults : w.DefaultsAgree d (· = ·) :=
    World.defaultsAgree_of_isProducible eq_equivalence fields otherField types otherType 2
  have listed : w.reference (fun f => (w.flag? f).getD false) 0 ⟨true, false⟩
      = [.str "name", .str "amounts"] := by
    have texts : AllTexts (w.reference (fun f => (w.flag? f).getD false) 0 ⟨true, false⟩) :=
      fun n there => sound.declared_texts 0 n ((w.reference_sublist _ 0 true).subset there)
    rw [texts.eq_map_str, shown]
    rfl
  clear_value w c₀ c₁ c₂
  have both : w.Conservative d (fun f => (w.flag? f).getD false) true 0 2 :=
    descendant_conservative user start run inside descends fun _ => flags
  refine ⟨user, start, _, w, _, _, run, inside, descends, flags, founded, quiet, alike, reads,
    defaults, ?_, ?_, ?_, ?_⟩
  · obtain ⟨rest, w₁, w₂, lists⟩ := both.lists
    rw [listed] at lists
    exact ⟨rest, w₁, w₂, lists⟩
  · obtain ⟨returns, again⟩ := both.projects staffRecord quiet
    obtain ⟨x, w₁, first⟩ := returns founded
    obtain ⟨y, w₂, w₃, second, third⟩ := again x w₁ first
    exact ⟨x, w₁, y, w₂, w₃, first, second, third⟩
  · obtain ⟨x, first⟩ := exec_of_isOk below
    obtain ⟨y, second⟩ := exec_of_isOk above
    obtain ⟨fs, gs, rfl, rfl, agree⟩ := both.converts _ equalUpToMarks_equivalence reads
      staffRecord _ alike x _ y _ first second
    refine ⟨fs, gs, _, _, first, second, agree _ ?_⟩
    have there : Value.str "amounts" ∈ w.reference _ 0 ⟨true, false⟩ :=
      listed ▸ List.mem_cons_of_mem _ List.mem_cons_self
    exact (w.reference_sublist _ 0 true).subset there
  · obtain ⟨x, first⟩ := exec_of_isOk made
    obtain ⟨es, rest, gs, w₂, rfl, second, same, -⟩ :=
      (both.defaults _ eq_equivalence defaults).2 x _ first
    exact ⟨es, rest, gs, _, w₂, first, second, same⟩

/-- The text that a mapping has under a name. -/
def Value.textUnder (v : Value) (name : String) : Option String :=
  match v with
  | .dict _ entries => (Table.get? entries (.str name)).bind Value.text?
  | _ => none

/-- A schema of two texts, of which one asks another schema whether it is shown, and a child with a
default that fails. Schemas have a member that counts how often it is read. -/
def lettersSession : List SchemaOperation :=
  [.newRegistry, .define 0 (.seed false),
   .define 0 (.install (.target .schema) (.ofFields [("name", .str "exclude"),
     ("get", .function 1 (some "counter") .counter [])])),
   .compile 0 (.ofFields [("g", .str "String")]) .null .null,
   .compile 0 (.ofFields [("x", .str "String"),
     ("y", .ofFields [("type", .str "String"), ("ui", .schema 0)])]) .null .null,
   .compile 0 (.ofFields [("z", .ofFields [("type", .str "String"),
     ("default", .function 2 (some "fail") (.fail .value "boom") [])])]) .null (.schema 1)]

/-- The engine's own functions make a difference to a descendant: a flag that changes when it is
read leaves a name out, a default of its own keeps it from giving a record of defaults, and a mapping
with the lists that a new schema keeps, beside the schema, which lists its names to be shown, is
converted in two ways. -/
theorem descendant_differs :
    let d := dispatchWithin 3
    let w := (exec (makeSchema d .null .null (.registry 0))
      (afterSession d lettersSession (.empty "" []))).2
    let record := Value.ofFields [("y", .live (.fieldLists 3) false), ("x", .schema 3)]
    w.Descends 1 2 ∧
    (∃ names w₁ names' w₂, exec (fieldNames d 1 [.bool true]) w = (.ok names, w₁) ∧
      exec (fieldNames d 2 [.bool true]) w₁ = (.ok names', w₂) ∧
      names.map Value.text? = [some "x", some "y"] ∧
      names'.map Value.text? = [some "x", some "z"]) ∧
    (∃ x w₁ e w₂, exec (defaultRecord d 1 (.bool false)) w = (.ok x, w₁) ∧
      exec (defaultRecord d 2 (.bool false)) w₁ = (.error e, w₂)) ∧
    ∃ x w₁ y w₂, exec (convert d 2 record false) w = (.ok x, w₁) ∧
      exec (convert d 1 record false) w₁ = (.ok y, w₂) ∧
      x.textUnder "y" = some "{}" ∧ y.textUnder "y" = some "{(False, False): ()}" := by
  intro d w record
  let d₁ := exec (defaultRecord d 1 (.bool false)) w
  obtain ⟨parent, fresh, names, names'⟩ :
      (w.schema 2).parent = some 1 ∧
      (∀ n ∈ (w.schema 2).fields.keys, ∀ m ∈ w.declared 1, n.text? ≠ m.text?) ∧
      ((exec (fieldNames d 1 [.bool true]) w).1.toOption.bind fun names =>
        some (names.map Value.text?)) = some [some "x", some "y"] ∧
      ((exec (fieldNames d 2 [.bool true])
        (exec (fieldNames d 1 [.bool true]) w).2).1.toOption.bind fun names =>
        some (names.map Value.text?)) = some [some "x", some "z"] := by decide +kernel
  obtain ⟨above, below, converted, again⟩ :
      d₁.1.isOk = true ∧ (exec (defaultRecord d 2 (.bool false)) d₁.2).1.isOk = false ∧
      ((exec (convert d 2 record false) w).1.toOption.bind (·.textUnder "y")) = some "{}" ∧
      ((exec (convert d 1 record false) (exec (convert d 2 record false) w).2).1.toOption.bind
        (·.textUnder "y")) = some "{(False, False): ()}" := by decide +kernel
  clear_value w
  refine ⟨.child parent .self fun n there inside => fresh n there n inside rfl, ?_, ?_, ?_⟩
  · obtain ⟨ns, first, texts⟩ := exec_of_seen names
    obtain ⟨ms, second, texts'⟩ := exec_of_seen names'
    exact ⟨ns, _, ms, _, first, second, Option.some.inj texts, Option.some.inj texts'⟩
  · obtain ⟨x, first⟩ := exec_of_isOk above
    rcases second : exec (defaultRecord d 2 (.bool false)) d₁.2 with ⟨e | y, w₂⟩ <;>
      rw [second] at below
    · exact ⟨x, _, e, w₂, first, second⟩
    · cases below
  · obtain ⟨x, first, text⟩ := exec_of_seen converted
    obtain ⟨y, second, text'⟩ := exec_of_seen again
    exact ⟨x, _, y, _, first, second, text, text'⟩

end DataShape
