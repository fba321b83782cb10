import DataShape.Proofs.Registry.Entry
import DataShape.Proofs.Registry.Invariant

/-! # Visits of types

Capabilities are installed entry by entry. An entry is understood first: it is read and, where it is
meant for types, its match specification is compiled. Then every type that is registered at that
moment is visited once, in the order of registration; a visit asks whether the type matches, in the
world that the visits before have left, and gives the type the capabilities if it does.

* `Request`, `understand` — what an entry asks for.
* `Visits` — a run of visits, each with what was asked and what was given.
* `Applies`, `Breaks` — what an entry does that is applied, and how far one came that fails.
* `exec_installEntry` — every entry does the one or the other.
* `installation_fold` — the entries of an installation one after the other. -/

namespace DataShape

/-! ## Requests -/

/-- What an entry asks for, once it is understood; without a condition it is meant for all. -/
structure Request where
  reading : EntryReading
  condition : Option Predicate

section Request

variable (d : Dispatch)

/-- Read an entry and, where it is meant for types, compile its match specification. -/
def understand (target : Target) (entry : Value) : Action Request := do
  let reading ← readEntry d entry
  match target with
  | .type =>
      let condition ← if reading.matchSpec.isMissing then pure none
        else some <$> compilePredicate d reading.matchSpec
      return ⟨reading, condition⟩
  | _ => return ⟨reading, none⟩

/-- Ask whether a type matches. -/
def Request.asks (q : Request) (t : Nat) : Action Bool :=
  q.condition.elim (pure true) fun p => p.holds d (.type t)

/-- Record on which types an entry was installed. -/
def recordServed (q : Request) (served : List Nat) : Action Unit := do
  let w ← get
  let names ← capabilityNames d q.reading.capabilities
  let types ← shown d (.fresh (served.map w.typeName))
  writeLog .registry .debug s!"Installed type capabilities {names} on {types}"

/-- Record that a match specification does not count. -/
def recordIgnored (target : Target) (q : Request) : Action Unit := do
  if !q.reading.matchSpec.isMissing then
    let names ← capabilityNames d q.reading.capabilities
    writeLog .registry .debug <|
      s!"Ignoring 'matches' for {target.name} capability install: " ++ names

/-- An entry for types is understood, served to the registered types, and recorded. -/
theorem installEntry_type (registry : Nat) (entry : Value) :
    installEntry d registry .type entry = (do
      let q ← understand d .type entry
      let served ← serveTypes d q.condition q.reading.capabilities ((← get).typesOf registry)
      recordServed d q served) := by
  unfold installEntry understand installOnTypes recordServed
  simp only [bind_assoc]
  refine bind_congr fun reading => ?_
  split <;> simp

/-- An entry for schemas or fields is understood and installed in their shared table. -/
theorem installEntry_shared (registry : Nat) {target : Target} (other : target ≠ .type)
    (entry : Value) : installEntry d registry target entry = (do
      let q ← understand d target entry
      recordIgnored d target q
      q.reading.capabilities.forM (installShared d registry target)) := by
  unfold installEntry understand recordIgnored
  cases target <;> first | exact absurd rfl other | skip
  all_goals
    simp only [bind_assoc, pure_bind]
    refine bind_congr fun reading => ?_
    split <;> simp

end Request

/-! ## Visits -/

/-- A visit of a type: the world in which the type was asked about, the world that this left, and
the answer. -/
structure Visit where
  type : Nat
  before : World
  asked : World
  matches' : Bool

/-- The types that matched, in the order of the visits. -/
def matched (visits : List Visit) : List Nat := (visits.filter Visit.matches').map Visit.type

/-- A run of visits. A type that matches is given the capabilities, and nothing else is changed but
by the answers themselves. -/
inductive Visits (ask : Nat → Action Bool) (cs : List Capability) :
    World → List Visit → World → Prop where
  | done (w : World) : Visits ask cs w [] w
  | next {w w₁ w' : World} {t : Nat} {matches' : Bool} {rest : List Visit}
      (answer : exec (ask t) w = (.ok matches', w₁))
      (others : Visits ask cs (if matches' then w₁.installing (.type t) cs else w₁) rest w') :
      Visits ask cs w (⟨t, w, w₁, matches'⟩ :: rest) w'

section Serve

variable {call : Provider} {depth : Nat} {condition : Option Predicate} {cs : List Capability}

/-- To serve types is to visit them, one after the other, up to the first that cannot be asked
about. By induction on the types. -/
theorem visits_serveTypes (call : Provider) (depth : Nat) (q : Request)
    (keeps : ∀ t w, w.Plain → (exec (q.asks (call.dispatch (depth + 1)) t) w).2.Plain)
    (keyed : ∀ c ∈ cs, c.Keyed) (ids : List Nat) : ∀ {w : World}, w.Plain →
    ∃ visits w', Visits (q.asks (call.dispatch (depth + 1))) cs w visits w' ∧ w'.Plain ∧
      ((visits.map Visit.type = ids ∧
          exec (serveTypes (call.dispatch (depth + 1)) q.condition cs ids) w
            = (.ok (matched visits), w')) ∨
        ∃ t rest e w'', ids = visits.map Visit.type ++ t :: rest ∧
          exec (q.asks (call.dispatch (depth + 1)) t) w' = (.error e, w'') ∧
          exec (serveTypes (call.dispatch (depth + 1)) q.condition cs ids) w
            = (.error e, w'')) := by
  induction ids with
  | nil => exact fun {w} plain => ⟨[], w, .done w, plain, .inl ⟨rfl, rfl⟩⟩
  | cons t rest ih =>
    intro w plain
    have stays := keeps t w plain
    rcases answer : exec (q.asks (call.dispatch (depth + 1)) t) w with ⟨e | b, w₁⟩ <;>
      rw [answer] at stays
    · refine ⟨[], w, .done w, plain, .inr ⟨t, rest, e, w₁, rfl, answer, ?_⟩⟩
      rw [serveTypes]
      exact exec_bind_error answer _
    · cases b with
      | false =>
        obtain ⟨visits, w', run, plain', outcome⟩ := ih stays
        refine ⟨⟨t, w, w₁, false⟩ :: visits, w', .next answer run, plain', ?_⟩
        have next : exec (serveTypes (call.dispatch (depth + 1)) q.condition cs (t :: rest)) w
            = exec (serveTypes (call.dispatch (depth + 1)) q.condition cs rest) w₁ := by
          rw [serveTypes]
          exact exec_bind_ok answer _
        rw [next]
        rcases outcome with ⟨all, served⟩ | ⟨t', rest', e, w'', split, broken, failed⟩
        · exact .inl ⟨congrArg (t :: ·) all, served⟩
        · exact .inr ⟨t', rest', e, w'', congrArg (t :: ·) split, broken, failed⟩
      | true =>
        -- The type is served before the next one is visited, which is asked in the world after that.
        have given := exec_giveCapabilities call depth stays t keyed
        obtain ⟨visits, w', run, plain', outcome⟩ := ih (stays.installing (.type t) cs)
        refine ⟨⟨t, w, w₁, true⟩ :: visits, w', .next answer run, plain', ?_⟩
        have next : exec (serveTypes (call.dispatch (depth + 1)) q.condition cs (t :: rest)) w
            = exec (do return t :: (← serveTypes (call.dispatch (depth + 1)) q.condition cs rest))
                (w₁.installing (.type t) cs) := by
          rw [serveTypes]
          refine (exec_bind_ok answer _).trans ?_
          rw [if_pos rfl]
          exact exec_bind_ok given _
        rw [next]
        rcases outcome with ⟨all, served⟩ | ⟨t', rest', e, w'', split, broken, failed⟩
        · exact .inl ⟨congrArg (t :: ·) all, exec_bind_ok served _⟩
        · exact .inr ⟨t', rest', e, w'', congrArg (t :: ·) split, broken, exec_bind_error failed _⟩

end Serve

/-! ## Entries -/

/-- What became of an entry: the capabilities it installed, and the types it visited for that. -/
structure Application where
  capabilities : List Capability
  visits : List Visit

/-- An entry is understood. If it is ordinary, nothing is changed by that. -/
structure Understands (d : Dispatch) (target : Target) (entry : Value) (w : World) (q : Request)
    (w' : World) : Prop where
  run : exec (understand d target entry) w = (.ok q, w')
  idle : w.Ordinary entry → w.Resembles w' ∧ ∀ c ∈ q.reading.capabilities, c.Texted

/-- **An entry is applied.** For types, it visits those that are registered when it is served, each
once and in their order; types that come to be registered meanwhile stay registered. For schemas and
fields, its capabilities are installed in the shared table. Besides, something is recorded. -/
inductive Applies (d : Dispatch) (r : Nat) :
    Target → Value → World → Application → World → Prop where
  | types {entry : Value} {w w₁ w₂ w' : World} {q : Request} {visits : List Visit}
      (understood : Understands d .type entry w q w₁)
      (all : visits.map Visit.type = w₁.typesOf r) (once : (w₁.typesOf r).Nodup)
      (visited : Visits (q.asks d) q.reading.capabilities w₁ visits w₂)
      (recorded : w₂.Resembles w') (kept : w₁.typesOf r <+: w'.typesOf r) :
      Applies d r .type entry w ⟨q.reading.capabilities, visits⟩ w'
  | shared {target : Target} {entry : Value} {w w₁ w' : World} {q : Request}
      (other : target ≠ .type) (understood : Understands d target entry w q w₁)
      (recorded : (w₁.installing (sharedTable r target) q.reading.capabilities).Resembles w') :
      Applies d r target entry w ⟨q.reading.capabilities, []⟩ w'

/-- **An entry fails.** It is not understood, and nothing is installed; or there is a type about
which it cannot be asked, and the types visited before have been served; or it is not recorded,
which takes a capability that is not named by a text. -/
inductive Breaks (d : Dispatch) (r : Nat) :
    Target → Value → World → Application → Fault → World → Prop where
  | misunderstood {target : Target} {entry : Value} {w w' : World} {e : Fault}
      (run : exec (understand d target entry) w = (.error e, w'))
      (idle : w.Ordinary entry → w.Resembles w') :
      Breaks d r target entry w ⟨[], []⟩ e w'
  | raised {entry : Value} {w w₁ w₂ w' : World} {q : Request} {visits : List Visit} {t : Nat}
      {rest : List Nat} {e : Fault} (understood : Understands d .type entry w q w₁)
      (split : w₁.typesOf r = visits.map Visit.type ++ t :: rest) (once : (w₁.typesOf r).Nodup)
      (visited : Visits (q.asks d) q.reading.capabilities w₁ visits w₂)
      (failed : exec (q.asks d t) w₂ = (.error e, w')) :
      Breaks d r .type entry w ⟨q.reading.capabilities, visits⟩ e w'
  | unrecorded {entry : Value} {w w₁ w₂ w' : World} {q : Request} {visits : List Visit} {e : Fault}
      (understood : Understands d .type entry w q w₁)
      (all : visits.map Visit.type = w₁.typesOf r) (once : (w₁.typesOf r).Nodup)
      (visited : Visits (q.asks d) q.reading.capabilities w₁ visits w₂)
      (recorded : w₂.Resembles w') (untexted : ¬ ∀ c ∈ q.reading.capabilities, c.Texted) :
      Breaks d r .type entry w ⟨q.reading.capabilities, visits⟩ e w'
  | unrecordedShared {target : Target} {entry : Value} {w w₁ w' : World} {q : Request}
      {cs : List Capability} {e : Fault} (other : target ≠ .type)
      (understood : Understands d target entry w q w₁) (before : cs <+: q.reading.capabilities)
      (recorded : (w₁.installing (sharedTable r target) cs).Resembles w')
      (untexted : ¬ ∀ c ∈ q.reading.capabilities, c.Texted) :
      Breaks d r target entry w ⟨cs, []⟩ e w'

/-- Entries are applied one after the other. -/
inductive AppliesEach (d : Dispatch) (r : Nat) (target : Target) :
    List Value → World → List Application → World → Prop where
  | done (w : World) : AppliesEach d r target [] w [] w
  | next {entry : Value} {entries : List Value} {w w₁ w' : World} {a : Application}
      {rest : List Application} (first : Applies d r target entry w a w₁)
      (others : AppliesEach d r target entries w₁ rest w') :
      AppliesEach d r target (entry :: entries) w (a :: rest) w'

/-! ## Understanding -/

section Understand

variable {call : Provider} {depth : Nat} {w w' : World} {target : Target} {entry : Value}

/-- To understand an ordinary entry is idle. -/
theorem idles_understand (call : Provider) (depth : Nat) (target : Target)
    (plain : w.Plain) (ordinary : w.Ordinary entry) :
    Idles (fun q => ∀ c ∈ q.reading.capabilities, c.Texted)
      (understand (call.dispatch (depth + 1)) target entry) w := by
  unfold understand
  refine (idles_readEntry plain ordinary).bind fun reading w₁ resembles texts => ?_
  have plain₁ := resembles.plain plain
  cases target with
  | type =>
    dsimp only
    split
    · exact idles_pure texts
    · have compiled : Along World.Idle
          (some <$> compilePredicate (call.dispatch (depth + 1)) reading.matchSpec) := inferInstance
      refine (Idles.of_along _ plain₁).bind fun condition w₂ _ _ => ?_
      exact idles_pure texts
  | _ => exact idles_pure texts

/-- What an entry asks for has names that can be keys. -/
theorem gives_understand :
    Gives (fun q => ∀ c ∈ q.reading.capabilities, c.Keyed)
      (understand (call.dispatch (depth + 1)) target entry) := by
  unfold understand
  refine (gives_readEntry entry).bind fun reading keyed => ?_
  cases target with
  | type =>
    dsimp only
    split
    · exact gives_pure keyed
    · exact gives_bind fun _ => gives_pure keyed
  | _ => exact gives_pure keyed

theorem understands_of_run {q : Request} (plain : w.Plain)
    (run : exec (understand (call.dispatch (depth + 1)) target entry) w = (.ok q, w')) :
    Understands (call.dispatch (depth + 1)) target entry w q w' := by
  refine ⟨run, fun ordinary => ?_⟩
  have idles := idles_understand call depth target plain ordinary
  rw [Idles, run] at idles
  exact ⟨idles.1, idles.2 q rfl⟩

theorem breaks_of_misunderstood {r : Nat} {e : Fault} (plain : w.Plain)
    (run : exec (understand (call.dispatch (depth + 1)) target entry) w = (.error e, w')) :
    Breaks (call.dispatch (depth + 1)) r target entry w ⟨[], []⟩ e w' := by
  refine .misunderstood run fun ordinary => ?_
  have idles := idles_understand call depth target plain ordinary
  rw [Idles, run] at idles
  exact idles.1

end Understand

/-! ## Recording -/

section Record

variable {call : Provider} {depth : Nat} {w : World}

instance along_recordServed (call : Provider) (depth : Nat) (q : Request) (served : List Nat) :
    Along World.Idle (recordServed (call.dispatch depth) q served) := by
  unfold recordServed capabilityNames
  infer_instance

instance along_recordIgnored (call : Provider) (depth : Nat) (target : Target) (q : Request) :
    Along World.Idle (recordIgnored (call.dispatch depth) target q) := by
  unfold recordIgnored capabilityNames
  infer_instance

/-- A list of texts can always be shown. -/
theorem exec_shown_texts (d : Dispatch) (items : List Value)
    (texts : ∀ v ∈ items, ∃ s, v = .str s) :
    ∃ text, ∀ w, exec (shown d (.fresh items)) w = (.ok text, w) := by
  have shownAll : ∃ parts, ∀ w, exec (shownItems d items) w = (.ok parts, w) := by
    induction items with
    | nil => exact ⟨[], fun w => rfl⟩
    | cons v rest ih =>
      obtain ⟨parts, run⟩ := ih fun v there => texts v (List.mem_cons_of_mem _ there)
      obtain ⟨s, rfl⟩ := texts v List.mem_cons_self
      have quoted : ∀ w, exec (shown d (.str s)) w = (.ok (Text.quoted s), w) := fun w => by
        rw [shown]
        rfl
      refine ⟨Text.quoted s :: parts, fun w => ?_⟩
      rw [shownItems, exec_bind_ok (quoted w), exec_bind_ok (run w)]
      rfl
  obtain ⟨parts, run⟩ := shownAll
  refine ⟨"[" ++ ", ".intercalate parts ++ "]", fun w => ?_⟩
  rw [Value.fresh, shown, exec_bind_ok (run w)]
  rfl

theorem exec_capabilityNames (d : Dispatch) {cs : List Capability} (texts : ∀ c ∈ cs, c.Texted) :
    ∃ text, ∀ w, exec (capabilityNames d cs) w = (.ok text, w) := by
  refine exec_shown_texts d _ fun v there => ?_
  obtain ⟨c, member, rfl⟩ := List.mem_map.mp there
  exact texts c member

/-- An entry whose capabilities are named by texts is recorded. -/
theorem exec_recordServed (plain : w.Plain) {q : Request}
    (texts : ∀ c ∈ q.reading.capabilities, c.Texted) (served : List Nat) (d : Dispatch) :
    ∃ w', exec (recordServed d q served) w = (.ok ⟨⟩, w') := by
  obtain ⟨names, named⟩ := exec_capabilityNames d texts
  obtain ⟨types, listed⟩ := exec_shown_texts d (served.map w.typeName) fun v there => by
    obtain ⟨t, -, rfl⟩ := List.mem_map.mp there
    exact ⟨_, plain.typeName t⟩
  unfold recordServed
  rw [exec_bind_ok (exec_get w), exec_bind_ok (named w), exec_bind_ok (listed w)]
  exact ⟨_, rfl⟩

end Record

/-! ## Installing an entry -/

/-- Along a run plain worlds stay plain. -/
theorem World.Plain.of_run {w w' : World} (plain : w.Plain) (run : RegistryRun w w') :
    w'.Plain := by
  -- a registry that does not exist has no types, so it is sound
  have empty : (w.registry w.registries.size).types = [] := by
    rw [World.registry, Array.getD, dif_neg (Nat.lt_irrefl _)]
    rfl
  exact (World.Evolves.of_run _ run plain (.of_empty empty)).plain

section Entry

set_option synthInstance.maxSize 1000

variable {d : Dispatch} [d.Within RegistryRun]

instance along_understand (target : Target) (entry : Value) :
    Along RegistryRun (understand d target entry) := by
  unfold understand
  refine Along.andThen fun reading => ?_
  cases target <;> infer_instance

instance along_asks (q : Request) (t : Nat) : Along RegistryRun (q.asks d t) := by
  unfold Request.asks
  cases q.condition <;> dsimp only [Option.elim] <;> infer_instance

instance along_recordServed_run (q : Request) (served : List Nat) :
    Along RegistryRun (recordServed d q served) := by
  unfold recordServed
  infer_instance

end Entry

section Install

variable {call : Provider} (user : call.Within RegistryRun) {depth r : Nat} {w : World}
  (plain : w.Plain) {entry : Value}

include user plain

/-- **An entry for types.** It is applied or it fails. -/
theorem exec_installEntry_type (sound : w.SoundRegistry r) :
    (∃ a w', exec (installEntry (call.dispatch (depth + 1)) r .type entry) w = (.ok ⟨⟩, w') ∧
      Applies (call.dispatch (depth + 1)) r .type entry w a w') ∨
    ∃ a e w', exec (installEntry (call.dispatch (depth + 1)) r .type entry) w = (.error e, w') ∧
      Breaks (call.dispatch (depth + 1)) r .type entry w a e w' := by
  have within : (call.dispatch (depth + 1)).Within RegistryRun :=
    Provider.dispatch_within user (depth + 1)
  rw [installEntry_type]
  rcases run : exec (understand (call.dispatch (depth + 1)) .type entry) w with ⟨e | q, w₁⟩
  · exact .inr ⟨_, e, w₁, exec_bind_error run _, breaks_of_misunderstood plain run⟩
  have understood := understands_of_run plain run
  have grown := World.Evolves.of_run r (Along.of_ok run) plain sound
  rw [exec_bind_ok run, exec_bind_ok (exec_get w₁)]
  obtain ⟨visits, w₂, visited, plain₂, outcome⟩ :=
    visits_serveTypes call depth q
      (fun t u plain => plain.of_run ((along_asks (d := call.dispatch (depth + 1)) q t).out u))
      (gives_understand w q w₁ run)
      (w₁.typesOf r) grown.plain
  rcases outcome with ⟨all, served⟩ | ⟨t, rest, e, w₃, split, failed, broken⟩
  · rw [exec_bind_ok served]
    have recorded := (along_recordServed call (depth + 1) q (matched visits)).out w₂ plain₂
    -- Functions that are called meanwhile may define types, but those stand behind the ones that were.
    have kept : w₁.typesOf r <+:
        (exec (recordServed (call.dispatch (depth + 1)) q (matched visits)) w₂).2.typesOf r := by
      have served : RegistryRun w₁ w₂ := Along.of_ok served
      have after : RegistryRun w₁ _ := served.trans
        ((along_recordServed_run (d := call.dispatch (depth + 1)) q (matched visits)).out w₂)
      have places := (World.Evolves.of_run r after grown.plain grown.sound).places
      exact places.map Prod.snd
    by_cases texts : ∀ c ∈ q.reading.capabilities, c.Texted
    · obtain ⟨w', done⟩ := exec_recordServed plain₂ texts (matched visits)
        (call.dispatch (depth + 1))
      rw [done] at recorded kept ⊢
      exact .inl ⟨_, w', rfl,
        .types understood all grown.sound.typesOf_nodup visited recorded kept⟩
    · rcases done : exec (recordServed (call.dispatch (depth + 1)) q (matched visits)) w₂
        with ⟨e | ⟨⟩, w'⟩ <;> rw [done] at recorded kept
      · exact .inr ⟨_, e, w', rfl,
          .unrecorded understood all grown.sound.typesOf_nodup visited recorded texts⟩
      · exact .inl ⟨_, w', rfl,
          .types understood all grown.sound.typesOf_nodup visited recorded kept⟩
  · rw [exec_bind_error broken]
    exact .inr ⟨_, e, w₃, rfl, .raised understood split grown.sound.typesOf_nodup visited failed⟩

omit user in
/-- Capabilities are installed in a shared table up to the first that cannot be recorded, which is
not named by a text. By induction on the capabilities, behind those installed before. -/
theorem exec_installShareds (call : Provider) (depth : Nat) {target : Target}
    (cs : List Capability) : ∀ {v : World} (before : List Capability),
    (w.installing (sharedTable r target) before).Resembles v →
    (∃ w', exec (cs.forM (installShared (call.dispatch (depth + 1)) r target)) v = (.ok ⟨⟩, w') ∧
      (w.installing (sharedTable r target) (before ++ cs)).Resembles w') ∨
    ∃ given e w', exec (cs.forM (installShared (call.dispatch (depth + 1)) r target)) v
        = (.error e, w') ∧ given <+: cs ∧
      (w.installing (sharedTable r target) (before ++ given)).Resembles w' ∧
      ¬ ∀ c ∈ cs, c.Texted := by
  induction cs with
  | nil =>
    intro v before resembles
    refine .inl ⟨v, rfl, ?_⟩
    rwa [List.append_nil]
  | cons c rest ih =>
    intro v before resembles
    have plain' : v.Plain := resembles.plain (plain.installing _ _)
    have installed := resembles.installing (sharedTable r target) [c]
    -- what is left of the first step is to word and to record it
    have recorded : Along World.Idle (do
        let name ← textOf (call.dispatch (depth + 1)) c.name
        writeLog .registry .debug s!"Installed {target.name} capability: {name}") := inferInstance
    have resembles₁ := installed.trans
      (recorded.out _ (plain'.installing (sharedTable r target) [c]))
    rw [← World.installing_append, ← exec_installShared] at resembles₁
    show (∃ w', exec (installShared (call.dispatch (depth + 1)) r target c >>= fun _ =>
        rest.forM (installShared (call.dispatch (depth + 1)) r target)) v = (.ok ⟨⟩, w') ∧ _) ∨
      ∃ given e w', exec (installShared (call.dispatch (depth + 1)) r target c >>= fun _ =>
        rest.forM (installShared (call.dispatch (depth + 1)) r target)) v = (.error e, w') ∧ _
    rcases run : exec (installShared (call.dispatch (depth + 1)) r target c) v
      with ⟨e | ⟨⟩, v₁⟩ <;> rw [run] at resembles₁
    · refine .inr ⟨[c], e, v₁, exec_bind_error run _, ⟨rest, rfl⟩, resembles₁, fun texts => ?_⟩
      obtain ⟨s, text⟩ := texts c List.mem_cons_self
      rw [exec_installShared, text, textOf_str] at run
      cases run
    · rw [exec_bind_ok run]
      rcases ih (before ++ [c]) resembles₁
        with ⟨w', done, after⟩ | ⟨given, e, w', broken, within, after, untexted⟩
      · rw [List.append_assoc] at after
        exact .inl ⟨w', done, after⟩
      · rw [List.append_assoc] at after
        refine .inr ⟨c :: given, e, w', broken, List.cons_prefix_cons.mpr ⟨rfl, within⟩, after, ?_⟩
        exact fun texts => untexted fun c' there => texts c' (List.mem_cons_of_mem c there)

/-- **An entry for schemas or fields.** It is applied or it fails. -/
theorem exec_installEntry_shared {target : Target} (other : target ≠ .type) :
    (∃ a w', exec (installEntry (call.dispatch (depth + 1)) r target entry) w = (.ok ⟨⟩, w') ∧
      Applies (call.dispatch (depth + 1)) r target entry w a w') ∨
    ∃ a e w', exec (installEntry (call.dispatch (depth + 1)) r target entry) w = (.error e, w') ∧
      Breaks (call.dispatch (depth + 1)) r target entry w a e w' := by
  have within : (call.dispatch (depth + 1)).Within RegistryRun :=
    Provider.dispatch_within user (depth + 1)
  rw [installEntry_shared _ r other]
  rcases run : exec (understand (call.dispatch (depth + 1)) target entry) w with ⟨e | q, w₁⟩
  · exact .inr ⟨_, e, w₁, exec_bind_error run _, breaks_of_misunderstood plain run⟩
  have understood := understands_of_run plain run
  have plain₁ := plain.of_run (Along.of_ok run)
  rw [exec_bind_ok run]
  have ignored := (along_recordIgnored call (depth + 1) target q).out w₁ plain₁
  rcases log : exec (recordIgnored (call.dispatch (depth + 1)) target q) w₁ with ⟨e | ⟨⟩, w₂⟩ <;>
    rw [log] at ignored
  · refine .inr ⟨_, e, w₂, exec_bind_error log _, .unrecordedShared other understood
      List.nil_prefix (by rwa [World.installing_nil]) fun texts => ?_⟩
    obtain ⟨names, named⟩ := exec_capabilityNames (call.dispatch (depth + 1)) texts
    unfold recordIgnored at log
    split at log
    · rw [exec_bind_ok (named w₁)] at log
      cases log
    · cases log
  · rw [exec_bind_ok log]
    have start : (w₁.installing (sharedTable r target) []).Resembles w₂ := by
      rwa [World.installing_nil]
    rcases exec_installShareds plain₁ call depth q.reading.capabilities [] start
      with ⟨w', done, after⟩ | ⟨given, e, w', broken, before, after, untexted⟩
    · exact .inl ⟨_, w', done, .shared other understood after⟩
    · exact .inr ⟨_, e, w', broken, .unrecordedShared other understood before after untexted⟩

/-- Every entry is applied or fails. -/
theorem exec_installEntry (depth : Nat) (entry : Value) (sound : w.SoundRegistry r)
    (target : Target) :
    (∃ a w', exec (installEntry (call.dispatch (depth + 1)) r target entry) w = (.ok ⟨⟩, w') ∧
      Applies (call.dispatch (depth + 1)) r target entry w a w') ∨
    ∃ a e w', exec (installEntry (call.dispatch (depth + 1)) r target entry) w = (.error e, w') ∧
      Breaks (call.dispatch (depth + 1)) r target entry w a e w' := by
  by_cases types : target = .type
  · subst types
    exact exec_installEntry_type user plain sound
  · exact exec_installEntry_shared user plain types

end Install

/-! ## Installing entries -/

section Fold

variable {call : Provider} (user : call.Within RegistryRun) {depth r : Nat}

include user in
/-- Entries are applied one after the other, up to the first that fails. By induction on the
entries: an entry that is applied leaves a sound registry to the others. -/
theorem exec_installEntries (depth : Nat) (target : Target) (entries : List Value) :
    ∀ {w : World}, w.Plain → w.SoundRegistry r →
    ∃ before after applications u, entries = before ++ after ∧
      exec (before.forM (installEntry (call.dispatch (depth + 1)) r target)) w = (.ok ⟨⟩, u) ∧
      AppliesEach (call.dispatch (depth + 1)) r target before w applications u ∧
      ((after = [] ∧
          exec (entries.forM (installEntry (call.dispatch (depth + 1)) r target)) w
            = (.ok ⟨⟩, u)) ∨
        ∃ entry rest a e w', after = entry :: rest ∧
          exec (entries.forM (installEntry (call.dispatch (depth + 1)) r target)) w
            = (.error e, w') ∧
          Breaks (call.dispatch (depth + 1)) r target entry u a e w') := by
  have within : (call.dispatch (depth + 1)).Within RegistryRun :=
    Provider.dispatch_within user (depth + 1)
  induction entries with
  | nil => exact fun {w} _ _ => ⟨[], [], [], w, rfl, rfl, .done w, .inl ⟨rfl, rfl⟩⟩
  | cons entry rest ih =>
    intro w plain sound
    rcases exec_installEntry user plain depth entry sound target
      with ⟨a, w₁, run, applies⟩ | ⟨a, e, w', run, breaks⟩
    · have grown := World.Evolves.of_run r (Along.of_ok run) plain sound
      obtain ⟨before, after, applications, u, split, done, each, outcome⟩ :=
        ih grown.plain grown.sound
      refine ⟨entry :: before, after, a :: applications, u, congrArg (entry :: ·) split,
        (exec_bind_ok run _).trans done, .next applies each, ?_⟩
      rcases outcome with ⟨ended, all⟩ | ⟨entry', rest', a', e, w', here, failed, breaks⟩
      · exact .inl ⟨ended, (exec_bind_ok run _).trans all⟩
      · exact .inr ⟨entry', rest', a', e, w', here, (exec_bind_ok run _).trans failed, breaks⟩
    · exact ⟨[], entry :: rest, [], w, rfl, rfl, .done w,
        .inr ⟨entry, rest, a, e, w', rfl, exec_bind_error run _, breaks⟩⟩

variable {d : Dispatch} {target : Target}

/-- What schemas or fields are given by an ordinary entry is installed in their table, and nothing
else changes. -/
theorem Applies.resembles_installing {entry : Value} {w w' : World} {a : Application}
    (applies : Applies d r target entry w a w') (other : target ≠ .type)
    (ordinary : w.Ordinary entry) :
    (w.installing (sharedTable r target) a.capabilities).Resembles w' := by
  cases applies with
  | types => exact absurd rfl other
  | shared _ understood recorded =>
    exact ((understood.idle ordinary).1.installing _ _).trans recorded

/-- So is what they are given by several entries. By induction on the entries. -/
theorem AppliesEach.resembles_installing {entries : List Value} {w w' : World}
    {applications : List Application} (each : AppliesEach d r target entries w applications w')
    (other : target ≠ .type) (ordinary : ∀ entry ∈ entries, ∀ v : World, v.Ordinary entry) :
    (w.installing (sharedTable r target) (applications.flatMap Application.capabilities)).Resembles
      w' := by
  induction each with
  | done w =>
    rw [List.flatMap_nil, World.installing_nil]
    exact .refl w
  | @next entry entries w w₁ w' a rest first _ ih =>
    have here := first.resembles_installing other (ordinary entry List.mem_cons_self w)
    have others := ih fun entry there => ordinary entry (List.mem_cons_of_mem _ there)
    rw [List.flatMap_cons, World.installing_append]
    exact (here.installing _ _).trans others

/-- An ordinary entry for schemas or fields that fails installs nothing. -/
theorem Breaks.resembles {entry : Value} {w w' : World} {a : Application} {e : Fault}
    (breaks : Breaks d r target entry w a e w') (other : target ≠ .type)
    (ordinary : w.Ordinary entry) : a = ⟨[], []⟩ ∧ w.Resembles w' := by
  cases breaks with
  | misunderstood _ idle => exact ⟨rfl, idle ordinary⟩
  | raised | unrecorded => exact absurd rfl other
  | unrecordedShared _ understood _ _ untexted =>
    exact absurd (understood.idle ordinary).2 untexted

/-- A target is named or refused. -/
theorem targetOf_eq (target : Value) :
    targetOf target = throw (.wrongValue "") ∨ ∃ t, targetOf target = pure t := by
  unfold targetOf
  split
  · exact .inr ⟨_, rfl⟩
  · exact .inr ⟨_, rfl⟩
  · exact .inr ⟨_, rfl⟩
  · exact .inr ⟨_, rfl⟩
  · exact .inl rfl

end Fold

/-- **Installing is a fold with an exact failure prefix.** Let any operations be performed from a
world with an empty registry, while the functions of providers do no more than runs of registries
themselves, and then let entries be installed for a target.

The entries are applied in order (`AppliesEach`), up to the end or to the first that fails
(`Breaks`), in the world that the entries before it give if only they are installed; nothing of the
entries behind it is. For schemas and fields, ordinary entries change nothing but the table of the
target, which is overwritten by all their capabilities in order; one that fails adds nothing. -/
theorem installation_fold {call : Provider} (user : call.Within RegistryRun) (depth : Nat)
    {w₀ : World} {r : Nat} (plain : w₀.Plain) (empty : (w₀.registry r).types = [])
    (operations : List (Nat × RegistryOperation)) (target entries : Value) :
    let d := call.dispatch (depth + 1)
    let w := afterOperations d operations w₀
    (targetOf target = throw (.wrongValue "") ∧
      exec (installCapabilities d r target entries) w = (.error (.wrongValue ""), w)) ∨
    ∃ t before after applications u w', targetOf target = pure t ∧
      entryList entries = before ++ after ∧
      exec (installCapabilities d r target (.fresh before)) w = (.ok ⟨⟩, u) ∧
      AppliesEach d r t before w applications u ∧
      ((after = [] ∧ w' = u ∧ exec (installCapabilities d r target entries) w = (.ok ⟨⟩, w')) ∨
        ∃ entry rest a e, after = entry :: rest ∧
          exec (installCapabilities d r target entries) w = (.error e, w') ∧
          Breaks d r t entry u a e w') ∧
      (t ≠ .type → r < w.registries.size →
        (∀ entry ∈ entryList entries, ∀ v : World, v.Ordinary entry) → ∀ owner,
          w'.capabilityTable owner = if owner = sharedTable r t then
            (w.capabilityTable owner).installAll (applications.flatMap Application.capabilities)
          else w.capabilityTable owner) := by
  intro d w
  have within : d.Within RegistryRun := Provider.dispatch_within user (depth + 1)
  have grown : w₀.Grown r w :=
    World.Evolves.of_run r (registryRun_afterOperations within operations w₀) plain
      (.of_empty empty)
  rcases targetOf_eq target with refused | ⟨t, named⟩
  · refine .inl ⟨refused, ?_⟩
    unfold installCapabilities
    rw [refused]
    rfl
  have install : ∀ v, exec (installCapabilities d r target v) w
      = exec ((entryList v).forM (installEntry d r t)) w := fun v => by
    unfold installCapabilities
    rw [named, pure_bind]
  obtain ⟨before, after, applications, u, split, done, each, outcome⟩ :=
    exec_installEntries user depth t (entryList entries) grown.plain grown.sound
  have table : ∀ {w'}, u.Resembles w' → t ≠ .type → r < w.registries.size →
      (∀ entry ∈ entryList entries, ∀ v : World, v.Ordinary entry) → ∀ owner,
        w'.capabilityTable owner = if owner = sharedTable r t then
          (w.capabilityTable owner).installAll (applications.flatMap Application.capabilities)
        else w.capabilityTable owner := by
    intro w' resembles other inside ordinary owner
    have installed := (each.resembles_installing other fun entry there =>
      ordinary entry (split ▸ List.mem_append_left _ there)).trans resembles
    have owns : w.Owns (sharedTable r t) := by
      cases t <;> exact inside
    rw [installed.capabilityTable, World.capabilityTable_installing owns]
  refine .inr ?_
  rcases outcome with ⟨ended, all⟩ | ⟨entry, rest, a, e, w', here, failed, breaks⟩
  · exact ⟨t, before, after, applications, u, u, named, split, (install _).trans done, each,
      .inl ⟨ended, rfl, (install _).trans all⟩, table (.refl u)⟩
  · refine ⟨t, before, after, applications, u, w', named, split, (install _).trans done, each,
      .inr ⟨entry, rest, a, e, here, (install _).trans failed, breaks⟩,
      fun other inside ordinary => ?_⟩
    have there : entry ∈ entryList entries := by simp [split, here]
    exact table (breaks.resembles other (ordinary entry there u)).2 other inside ordinary

/-- Two entries: one that copies every type that it is asked about, and one for all types. -/
def copyingEntries : List Value :=
  [.ofFields [("matches", .function 1 (some "copy") .spawn []),
    ("func", .function 2 (some "probe") .spawn [])], .function 3 (some "other") .spawn []]

/-- The names of what is installed on a type. -/
def World.ownNames (w : World) (t : Nat) : List (Option String) :=
  (w.capabilityTable (.type t)).map fun e => e.1.text?

/-- The copies that the first entry makes on its way receive nothing from it, but they are visited
by the second. -/
theorem installation_fold_copying :
    let d := spawning.dispatch 4
    let w := afterOperations d [(0, .define (bareDefinition "A" .null)),
      (0, .define (bareDefinition "B" (.str "A")))] .withRegistry
    let w' := (exec (installCapabilities d 0 (.target .type) (.fresh copyingEntries)) w).2
    spawning.Within RegistryRun ∧ World.withRegistry.Plain ∧
    (World.withRegistry.registry 0).types = [] ∧
    (∃ applications, AppliesEach d 0 .type copyingEntries w applications w') ∧
    (w'.registry 0).types = [("A", 0), ("B", 1), ("ACopy", 2), ("BCopy", 3)] ∧
    [0, 1, 2, 3].map w'.ownNames = [[some "probe", some "other"], [some "probe", some "other"],
      [some "other"], [some "other"]] := by
  intro d w w'
  have plain : World.withRegistry.Plain := .of_no_objects rfl rfl rfl
  refine ⟨spawning_within, plain, rfl, ?_, by decide +kernel, by decide +kernel⟩
  have succeeds : (exec (installCapabilities d 0 (.target .type) (.fresh copyingEntries)) w).1.isOk
      = true := by
    decide +kernel
  have empty : (World.withRegistry.registry 0).types = [] := rfl
  rcases installation_fold spawning_within 3 plain empty [(0, .define (bareDefinition "A" .null)),
    (0, .define (bareDefinition "B" (.str "A")))] (.target .type) (.fresh copyingEntries)
    with ⟨-, failed⟩ | ⟨t, before, after, applications, u, w₁, named, split, -, each, outcome, -⟩
  · exact absurd succeeds (by rw [failed]; nofun)
  · have same : exec (pure t : Action Target) w = (.ok .type, w) := by
      rw [← named]
      rfl
    obtain rfl : t = .type := (exec_pure_eq_ok.mp same).1
    rcases outcome with ⟨rfl, rfl, done⟩ | ⟨entry, rest, a, e, -, failed, -⟩
    · rw [List.append_nil] at split
      obtain rfl : before = copyingEntries := split.symm
      refine ⟨applications, ?_⟩
      show AppliesEach d 0 .type copyingEntries w applications
        (exec (installCapabilities d 0 (.target .type) (.fresh copyingEntries)) w).2
      rw [done]
      exact each
    · exact absurd succeeds (by rw [failed]; nofun)

end DataShape
