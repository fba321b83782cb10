import DataShape.Proofs.Registry.Visit

/-! # Which types an entry reaches

An installation asks each type at its turn, when the types that matched before it have already been
given the capabilities of the entry. A search with the same match specification asks all types
before anything is given. The two reach the same types exactly if no type is answered differently
for that; a type derived from one that was given a capability may well be.

* `World.serving` — a world in which capabilities were given to some types.
* `Harmless` — questions that neither fail nor change a registry.
* `InTurn` — every type is asked in the world that the matches before it have left.
* `installation_reach` — what an entry reaches, compared with what a search finds. -/

namespace DataShape

/-! ## Worlds with the same registries -/

namespace World

/-- Registries and types are the same. -/
structure SameTypes (w w' : World) : Prop where
  types : w'.types = w.types
  registries : w'.registries = w.registries

namespace SameTypes

variable {u v w : World}

theorem refl (w : World) : w.SameTypes w := ⟨rfl, rfl⟩

theorem trans (first : u.SameTypes v) (second : v.SameTypes w) : u.SameTypes w :=
  ⟨second.types.trans first.types, second.registries.trans first.registries⟩

theorem of_resembles (h : w.Resembles u) : w.SameTypes u := by
  have same := Relisted.types h
  exact ⟨same, h.registries⟩

theorem typesOf (h : w.SameTypes u) (r : Nat) : u.typesOf r = w.typesOf r := by
  rw [World.typesOf, World.registry, h.registries]
  rfl

theorem capabilityTable (h : w.SameTypes u) (owner : TableOwner) :
    u.capabilityTable owner = w.capabilityTable owner := by
  cases owner <;>
    simp only [World.capabilityTable, World.type, World.registry, h.types, h.registries]

theorem installing (h : w.SameTypes u) (t : Nat) (cs : List Capability) :
    (w.installing (.type t) cs).SameTypes (u.installing (.type t) cs) := by
  refine ⟨?_, h.registries⟩
  simp only [World.installing, changeTable, modifyType, h.types]

end SameTypes

/-- A world in which capabilities were given to some types, one after the other. -/
def serving (w : World) (cs : List Capability) (ids : List Nat) : World :=
  ids.foldl (fun v t => v.installing (.type t) cs) w

theorem serving_concat (w : World) (cs : List Capability) (ids : List Nat) (t : Nat) :
    w.serving cs (ids ++ [t]) = (w.serving cs ids).installing (.type t) cs := by
  rw [serving, List.foldl_append]
  rfl

/-- **Only the types that are served change.** Each of them has its table overwritten once. By
induction on the types. -/
theorem capabilityTable_serving {cs : List Capability} {ids : List Nat} (once : ids.Nodup)
    (owner : TableOwner) : ∀ {w : World}, (∀ t ∈ ids, t < w.types.size) →
      (w.serving cs ids).capabilityTable owner
        = if owner ∈ ids.map TableOwner.type then (w.capabilityTable owner).installAll cs
          else w.capabilityTable owner := by
  induction ids with
  | nil => exact fun _ => rfl
  | cons t rest ih =>
    intro w inside
    obtain ⟨new, once⟩ := List.nodup_cons.mp once
    have owns : w.Owns (.type t) := inside t List.mem_cons_self
    have inside' : ∀ t' ∈ rest, t' < (w.installing (.type t) cs).types.size := by
      intro t' there
      rw [World.installing, size_changeTable]
      exact inside t' (List.mem_cons_of_mem t there)
    have here := w.capabilityTable_installing owns cs owner
    rw [serving, List.foldl_cons, ← serving, ih once inside', here, List.map_cons]
    by_cases same : owner = .type t
    · subst same
      have unserved : TableOwner.type t ∉ rest.map TableOwner.type := by
        intro there
        obtain ⟨t', there, same⟩ := List.mem_map.mp there
        exact new (TableOwner.type.inj same ▸ there)
      simp [unserved]
    · simp [same]

end World

/-! ## Harmless questions -/

/-- Types are asked one after the other, and those that match are given capabilities: no question
fails or changes registries and their types. -/
inductive Harmless (ask : Nat → Action Bool) (cs : List Capability) : List Nat → World → Prop where
  | done (w : World) : Harmless ask cs [] w
  | next {t : Nat} {rest : List Nat} {w w₁ : World} {matches' : Bool}
      (answer : exec (ask t) w = (.ok matches', w₁)) (same : w.SameTypes w₁)
      (others : Harmless ask cs rest (if matches' then w₁.installing (.type t) cs else w₁)) :
      Harmless ask cs (t :: rest) w

theorem Harmless.of_cons {ask : Nat → Action Bool} {cs : List Capability} {t : Nat}
    {rest : List Nat} {w : World} (h : Harmless ask cs (t :: rest) w) :
    ∃ matches' w₁, exec (ask t) w = (.ok matches', w₁) ∧ w.SameTypes w₁ ∧
      Harmless ask cs rest (if matches' then w₁.installing (.type t) cs else w₁) := by
  cases h with
  | next answer same others => exact ⟨_, _, answer, same, others⟩

/-- Questions that change nothing at all are harmless. -/
theorem harmless_of_still {ask : Nat → Action Bool} (cs : List Capability)
    (still : ∀ t w, ∃ matches', exec (ask t) w = (.ok matches', w)) (ids : List Nat) :
    ∀ w, Harmless ask cs ids w := by
  induction ids with
  | nil => exact .done
  | cons t rest ih =>
    intro w
    obtain ⟨matches', answer⟩ := still t w
    exact .next answer (.refl w) (ih _)

/-- So is a question that only looks and has an answer. -/
theorem Harmless.of_looking {ask : Nat → Action Bool} {cs : List Capability} {t : Nat}
    {rest : List Nat} {w : World} (matches' : Bool) [looks : Along World.Idle (ask t)]
    (plain : w.Plain) (answer : (exec (ask t) w).1.toOption = some matches')
    (others : Harmless ask cs rest (if matches' then (exec (ask t) w).2.installing (.type t) cs
      else (exec (ask t) w).2)) : Harmless ask cs (t :: rest) w := by
  have same := World.SameTypes.of_resembles (looks.out w plain)
  rcases run : exec (ask t) w with ⟨e | b, w₁⟩ <;> rw [run] at answer others same
  · cases answer
  · obtain rfl : b = matches' := Option.some.inj answer
    exact .next run same others

/-- Every type is visited once, and asked in the world in which the types that matched before it
have been given the capabilities. -/
structure InTurn (ask : Nat → Action Bool) (cs : List Capability) (w : World) (ids : List Nat)
    (visits : List Visit) : Prop where
  all : visits.map Visit.type = ids
  turn : ∀ before v after, visits = before ++ v :: after →
    (w.serving cs (matched before)).SameTypes v.before ∧
    exec (ask v.type) v.before = (.ok v.matches', v.asked)

section Visits

variable {ask : Nat → Action Bool} {cs : List Capability}

theorem matched_cons (v : Visit) (visits : List Visit) : matched (v :: visits)
    = if v.matches' then v.type :: matched visits else matched visits := by
  unfold matched
  cases answer : v.matches' <;> simp [answer]

/-- Visits go on as long as questions are harmless. By induction on the visits, behind those of some
types that matched. -/
theorem turns_of_visits {w u u' : World} {visits : List Visit} (run : Visits ask cs u visits u') :
    ∀ served rest : List Nat, (w.serving cs served).SameTypes u →
      Harmless ask cs (visits.map Visit.type ++ rest) u →
      (∀ before v after, visits = before ++ v :: after →
        (w.serving cs (served ++ matched before)).SameTypes v.before ∧
        exec (ask v.type) v.before = (.ok v.matches', v.asked)) ∧
      (w.serving cs (served ++ matched visits)).SameTypes u' ∧ Harmless ask cs rest u' := by
  induction run with
  | done u =>
    intro served rest same harmless
    refine ⟨fun before v after split => ?_, ?_, harmless⟩
    · simp at split
    · simpa [matched] using same
  | @next u u₁ u' t matches' others answer _ ih =>
    intro served rest same harmless
    obtain ⟨b, w₁, answer', same₁, harmless⟩ := harmless.of_cons
    obtain ⟨given, rfl⟩ := Prod.mk.inj (answer'.symm.trans answer)
    obtain rfl : b = matches' := Except.ok.inj given
    -- the others are asked when this type has been served, if it matched
    have served₁ : (w.serving cs (served ++ matched [⟨t, u, w₁, b⟩])).SameTypes
        (if b then w₁.installing (.type t) cs else w₁) := by
      cases b with
      | false => simpa [matched] using same.trans same₁
      | true =>
        show (w.serving cs (served ++ [t])).SameTypes (w₁.installing (.type t) cs)
        rw [World.serving_concat]
        exact (same.trans same₁).installing t cs
    have step : ∀ vs, served ++ matched (⟨t, u, w₁, b⟩ :: vs)
        = served ++ matched [⟨t, u, w₁, b⟩] ++ matched vs := by
      intro vs
      cases b <;> simp [matched]
    obtain ⟨turn, after, remain⟩ := ih _ _ served₁ harmless
    refine ⟨fun before v behind split => ?_, step others ▸ after, remain⟩
    cases before with
    | nil =>
      obtain ⟨rfl, rfl⟩ := List.cons.inj split
      exact ⟨by simpa [matched] using same, answer⟩
    | cons v' before =>
      obtain ⟨rfl, split'⟩ := List.cons.inj split
      rw [step before]
      exact turn before v behind split'

/-- A search asks every type that it is given; nothing is installed. By induction on the types,
behind those that were found before. -/
theorem exec_filterAuxM_visits (ids : List Nat) : ∀ {w : World} (found : List Nat),
    Harmless ask [] ids w → ∃ visits w', Visits ask [] w visits w' ∧ visits.map Visit.type = ids ∧
      exec (List.filterAuxM ask ids found) w = (.ok ((matched visits).reverse ++ found), w') := by
  induction ids with
  | nil => exact fun {w} found _ => ⟨[], w, .done w, rfl, rfl⟩
  | cons t rest ih =>
    intro w found harmless
    obtain ⟨b, w₁, answer, same, harmless⟩ := harmless.of_cons
    obtain ⟨visits, w', run, all, done⟩ := ih (cond b (t :: found) found) harmless
    refine ⟨⟨t, w, w₁, b⟩ :: visits, w', .next answer run, congrArg (t :: ·) all, ?_⟩
    have unchanged : (if b then w₁.installing (.type t) [] else w₁) = w₁ := by simp
    rw [unchanged] at done
    refine (exec_bind_ok answer _).trans (done.trans ?_)
    cases b <;> simp [matched]

/-- Of two runs of visits to the same types, none twice, the same types match exactly if all answers
are the same. By induction on the visits. -/
theorem matched_eq_iff : ∀ {visits visits' : List Visit},
    visits.map Visit.type = visits'.map Visit.type → (visits.map Visit.type).Nodup →
    (matched visits = matched visits' ↔
      visits.map Visit.matches' = visits'.map Visit.matches') := by
  intro visits
  induction visits with
  | nil =>
    intro visits' all _
    obtain rfl : visits' = [] := List.map_eq_nil_iff.mp all.symm
    exact ⟨fun _ => rfl, fun _ => rfl⟩
  | cons v rest ih =>
    intro visits' all once
    cases visits' with
    | nil => cases all
    | cons v' rest' =>
      obtain ⟨same, all⟩ := List.cons.inj all
      obtain ⟨new, once⟩ := List.nodup_cons.mp once
      have others := ih all once
      -- a type that is visited first matches at no later visit
      have later : ∀ vs : List Visit, v.type ∉ vs.map Visit.type → v.type ∉ matched vs := by
        intro vs absent there
        exact absent ((List.filter_sublist.map Visit.type).subset there)
      have here : v.type ∉ matched rest := later rest new
      have here' : v.type ∉ matched rest' := later rest' (all ▸ new)
      rw [matched_cons, matched_cons, ← same, List.map_cons, List.map_cons, List.cons.injEq]
      cases v.matches' <;> cases v'.matches'
      · simpa using others
      · refine ⟨fun equal => absurd ?_ here, nofun⟩
        have only : matched rest = v.type :: matched rest' := equal
        rw [only]
        exact List.mem_cons_self
      · refine ⟨fun equal => absurd ?_ here', nofun⟩
        have only : v.type :: matched rest = matched rest' := equal
        rw [← only]
        exact List.mem_cons_self
      · simpa using others

end Visits

/-! ## What an entry reaches -/

section Reach

variable {call : Provider} {depth r : Nat} {w w₁ : World} {entry : Value} {q : Request}

/-- What can be understood is one entry. -/
theorem entryList_of_understood {target : Target}
    (understood : exec (understand (call.dispatch depth) target entry) w = (.ok q, w₁)) :
    entryList entry = [entry] := by
  have refused : ∀ v : Value, v.isCallable = false → w.mapping? v = none →
      ∀ reading w', exec (readEntry (call.dispatch depth) v) w ≠ (.ok reading, w') := by
    intro v inert unmapped reading w' run
    have looked : exec (mappingOf? v) w = (.ok none, w) := by
      rw [← unmapped]
      rfl
    unfold readEntry at run
    rw [exec_bind_ok looked, inert] at run
    obtain ⟨e, failed⟩ := exec_bind_throw (β := EntryReading)
      (shown (call.dispatch depth) v) (fun text => .definition (.entryShape text)) w
    exact absurd (failed.symm.trans run) nofun
  obtain ⟨reading, w', read, -⟩ := exec_bind_eq_ok.mp understood
  cases entry with
  | list | tuple => exact absurd read (refused _ rfl rfl reading w')
  | _ => rfl

/-- Where its questions are harmless an entry is served to the types that match at their turn. -/
theorem exec_installEntry_harmless (user : call.Within RegistryRun) (plain : w.Plain)
    (understood : exec (understand (call.dispatch (depth + 1)) .type entry) w = (.ok q, w₁))
    (same : w.SameTypes w₁)
    (harmless : Harmless (q.asks (call.dispatch (depth + 1))) q.reading.capabilities
      (w.typesOf r) w₁) :
    ∃ visits outcome w',
      exec (installEntry (call.dispatch (depth + 1)) r .type entry) w = (outcome, w') ∧
      ((∀ c ∈ q.reading.capabilities, c.Texted) → outcome = .ok ⟨⟩) ∧
      InTurn (q.asks (call.dispatch (depth + 1))) q.reading.capabilities w (w.typesOf r) visits ∧
      (w.serving q.reading.capabilities (matched visits)).SameTypes w' := by
  have within : (call.dispatch (depth + 1)).Within RegistryRun :=
    Provider.dispatch_within user (depth + 1)
  have plain₁ : w₁.Plain := plain.of_run (Along.of_ok understood)
  rw [installEntry_type, exec_bind_ok understood, exec_bind_ok (exec_get w₁), same.typesOf r]
  obtain ⟨visits, w₂, visited, plain₂, outcome⟩ :=
    visits_serveTypes call depth q
      (fun t u plain => plain.of_run ((along_asks (d := call.dispatch (depth + 1)) q t).out u))
      (gives_understand w q w₁ understood) (w.typesOf r) plain₁
  rcases outcome with ⟨all, served⟩ | ⟨t, rest, e, w₃, split, failed, -⟩
  · obtain ⟨turn, after, -⟩ := turns_of_visits (w := w) visited [] [] same
      (by rwa [all, List.append_nil])
    rw [exec_bind_ok served]
    have recorded := (along_recordServed call (depth + 1) q (matched visits)).out w₂ plain₂
    rcases written : exec (recordServed (call.dispatch (depth + 1)) q (matched visits)) w₂
      with ⟨outcome, w'⟩
    rw [written] at recorded
    refine ⟨visits, outcome, w', rfl, fun texts => ?_, ⟨all, turn⟩,
      after.trans (.of_resembles recorded)⟩
    obtain ⟨w₃, done⟩ := exec_recordServed plain₂ texts (matched visits) (call.dispatch (depth + 1))
    exact congrArg Prod.fst (written.symm.trans done)
  · -- no type is left about which it cannot be asked
    obtain ⟨-, -, left⟩ := turns_of_visits (w := w) visited [] _ same
      (split ▸ harmless)
    obtain ⟨b, w', answer, -⟩ := left.of_cons
    exact absurd (failed.symm.trans answer) nofun

end Reach

/-- **What an entry reaches.** Let any operations be performed from a world with an empty registry,
while the functions of providers do no more than runs of registries themselves. Let an entry be
understood, and let neither that nor any question about its match specification fail or change a
registry, whether it is asked by a search or by the installation.

Then a search asks every registered type in the world as it is, and the installation asks every
registered type once, in the order of registration and in the world in which the types that matched
before it have already been given the capabilities. The types that match at their turn have their
own tables overwritten by the capabilities, and no other table changes. They are the types that the
search finds exactly if every type is answered as it is answered in the search. -/
theorem installation_reach {call : Provider} (user : call.Within RegistryRun) (depth : Nat)
    {w₀ : World} {r : Nat} (plain : w₀.Plain) (empty : (w₀.registry r).types = [])
    (operations : List (Nat × RegistryOperation)) (entry : Value) (q : Request) (p : Predicate)
    (w₁ w₂ : World) :
    let d := call.dispatch (depth + 1)
    let w := afterOperations d operations w₀
    let cs := q.reading.capabilities
    let asks := fun t => p.holds d (.type t)
    exec (understand d .type entry) w = (.ok q, w₁) → w.SameTypes w₁ →
    exec (compilePredicate d q.reading.matchSpec) w = (.ok p, w₂) →
    Harmless asks [] (w.typesOf r) w₂ → Harmless (q.asks d) cs (w.typesOf r) w₁ →
    ∃ searched visits outcome w₃ w',
      exec (typesWhere d r q.reading.matchSpec) w = (.ok (matched searched), w₃) ∧
      InTurn asks [] w (w.typesOf r) searched ∧
      exec (installCapabilities d r (.target .type) entry) w = (outcome, w') ∧
      ((∀ c ∈ cs, c.Texted) → outcome = .ok ⟨⟩) ∧
      InTurn (q.asks d) cs w (w.typesOf r) visits ∧
      (∀ owner, w'.capabilityTable owner = if owner ∈ (matched visits).map TableOwner.type then
          (w.capabilityTable owner).installAll cs else w.capabilityTable owner) ∧
      (matched visits = matched searched ↔
        visits.map Visit.matches' = searched.map Visit.matches') := by
  intro d w cs asks understood same compiled found harmless
  have within : d.Within RegistryRun := Provider.dispatch_within user (depth + 1)
  have grown : w₀.Grown r w :=
    World.Evolves.of_run r (registryRun_afterOperations within operations w₀) plain
      (.of_empty empty)
  have once := grown.sound.typesOf_nodup
  -- the search
  have same₂ : w.SameTypes w₂ := by
    have compile : Along World.Idle
        (compilePredicate (call.dispatch (depth + 1)) q.reading.matchSpec) := inferInstance
    have idle := compile.out w grown.plain
    rw [compiled] at idle
    exact .of_resembles idle
  obtain ⟨searched, w₃, run, all, filtered⟩ := exec_filterAuxM_visits (w.typesOf r) [] found
  obtain ⟨turn, -, -⟩ := turns_of_visits (w := w) run [] [] same₂
    (by rwa [all, List.append_nil])
  have search : exec (typesWhere d r q.reading.matchSpec) w = (.ok (matched searched), w₃) := by
    unfold typesWhere List.filterM
    rw [exec_bind_ok compiled, exec_bind_ok (exec_get w₂), same₂.typesOf r, exec_bind_ok filtered]
    simp
  -- the installation
  obtain ⟨visits, outcome, w', install, succeeds, inTurn, after⟩ :=
    exec_installEntry_harmless user grown.plain understood same harmless
  refine ⟨searched, visits, outcome, w₃, w', search, ⟨all, turn⟩, ?_, succeeds, inTurn, ?_, ?_⟩
  · show exec ((entryList entry).forM (installEntry d r .type)) w = _
    rw [entryList_of_understood understood]
    have alone : [entry].forM (installEntry d r .type) = installEntry d r .type entry :=
      bind_pure_unit
    rw [alone]
    exact install
  · intro owner
    have matches' : (matched visits).Sublist (w.typesOf r) := by
      rw [← inTurn.all]
      exact List.filter_sublist.map Visit.type
    rw [after.capabilityTable, World.capabilityTable_serving (once.sublist matches') owner]
    intro t there
    obtain ⟨name, entry⟩ := World.mem_typesOf.mp (matches'.subset there)
    exact grown.sound.known _ entry
  · exact matched_eq_iff (inTurn.all.trans all.symm) (inTurn.all ▸ once)

/-- A provider whose functions tell whether nothing was installed on a type. -/
def bareOnly : Provider := fun _ _ arguments _ =>
  match arguments with
  | [.type t] => do return .bool ((← get).type t).capabilities.isEmpty
  | _ => throw .wrongType

theorem bareOnly_within {R : World → World → Prop} [Frame R] : bareOnly.Within R := by
  intro d within f arguments named
  unfold bareOnly
  split <;> infer_instance

/-- An entry for the types about which a function says so. -/
def bareEntry : Value :=
  .ofFields [("matches", .function 1 (some "bare") .spawn []),
    ("func", .function 2 (some "probe") .spawn [])]

/-- What this entry asks for. -/
def bareRequest : Request :=
  ⟨⟨.function 1 (some "bare") .spawn [],
    [⟨.str "probe", .function 2 (some "probe") .spawn [], .null, .null⟩]⟩,
    some (.test (.function 1 (some "bare") .spawn []))⟩

/-- Two types, one derived from the other. -/
def twoTypes : List (Nat × RegistryOperation) :=
  [(0, .define (bareDefinition "A" .null)), (0, .define (bareDefinition "B" (.str "A")))]

/-- Both types are bare, and both are reached: what is installed on `A` is not on `B` itself. -/
theorem installation_reach_bare :
    let d := bareOnly.dispatch 2
    let w := afterOperations d twoTypes .withRegistry
    let w' := (exec (installCapabilities d 0 (.target .type) bareEntry) w).2
    bareOnly.Within RegistryRun ∧ World.withRegistry.Plain ∧
    (World.withRegistry.registry 0).types = [] ∧
    exec (understand d .type bareEntry) w = (.ok bareRequest, w) ∧
    (exec (typesWhere d 0 bareRequest.reading.matchSpec) w).1.toOption = some [0, 1] ∧
    (∃ visits, InTurn (bareRequest.asks d) bareRequest.reading.capabilities w (w.typesOf 0) visits ∧
      ∀ owner, w'.capabilityTable owner = if owner ∈ (matched visits).map TableOwner.type then
        (w.capabilityTable owner).installAll bareRequest.reading.capabilities
      else w.capabilityTable owner) ∧
    [0, 1].map w'.ownNames = [[some "probe"], [some "probe"]] := by
  intro d w w'
  have plain : World.withRegistry.Plain := .of_no_objects rfl rfl rfl
  have empty : (World.withRegistry.registry 0).types = [] := rfl
  have understood : ∀ u : World, exec (understand d .type bareEntry) u = (.ok bareRequest, u) :=
    fun u => rfl
  have compiled : ∀ u : World, exec (compilePredicate d bareRequest.reading.matchSpec) u
      = (.ok (.test (.function 1 (some "bare") .spawn [])), u) := fun u => rfl
  have still : ∀ t (u : World), ∃ matches', exec (bareRequest.asks d t) u = (.ok matches', u) :=
    fun t u => ⟨(u.type t).capabilities.isEmpty, rfl⟩
  refine ⟨bareOnly_within, plain, empty, understood w, by decide +kernel, ?_, by decide +kernel⟩
  have searching : Harmless (bareRequest.asks d) [] (w.typesOf 0) w := harmless_of_still _ still _ w
  have installing :
      Harmless (bareRequest.asks d) bareRequest.reading.capabilities (w.typesOf 0) w :=
    harmless_of_still _ still _ w
  obtain ⟨-, visits, outcome, -, w₁, -, -, install, -, turns, tables, -⟩ :=
    installation_reach bareOnly_within 1 plain empty twoTypes bareEntry bareRequest
      (.test (.function 1 (some "bare") .spawn [])) w w (understood w) (.refl w) (compiled w)
      searching installing
  have left : w' = w₁ := congrArg Prod.snd install
  exact ⟨visits, turns, left ▸ tables⟩

/-- An entry that installs a member `f` on the types without one. -/
def addingEntry : Value :=
  .ofFields [("name", .str "f"), ("matches", .ofFields [("$not", .str "f")]),
    ("func", .function 1 (some "probe") .spawn [])]

/-- What this entry asks for. -/
def addingRequest : Request :=
  ⟨⟨.ofFields [("$not", .str "f")],
      [⟨.str "f", .function 1 (some "probe") .spawn [], .null, .null⟩]⟩,
    some (.negation (.present "f"))⟩

/-- **A search may find more than an entry reaches.** Neither type has a member `f`, and a search
for such types finds both. No question of the search or of the installation fails or changes
anything; but when the turn of `B` comes, it has inherited what was installed on `A`, and it is
passed over. -/
theorem search_exceeds_reach :
    let d := bareOnly.dispatch 4
    let w := afterOperations d twoTypes .withRegistry
    let w' := (exec (installCapabilities d 0 (.target .type) addingEntry) w).2
    exec (understand d .type addingEntry) w = (.ok addingRequest, w) ∧
    Harmless (addingRequest.asks d) [] (w.typesOf 0) w ∧
    Harmless (addingRequest.asks d) addingRequest.reading.capabilities (w.typesOf 0) w ∧
    (exec (typesWhere d 0 addingRequest.reading.matchSpec) w).1.toOption = some [0, 1] ∧
    (exec (installCapabilities d 0 (.target .type) addingEntry) w).1.isOk = true ∧
    [0, 1].map w.ownNames = [[], []] ∧ [0, 1].map w'.ownNames = [[some "f"], []] := by
  intro d w w'
  have looks : ∀ t, Along World.Idle (addingRequest.asks d t) := by
    have within : d.Within World.Idle := Provider.dispatch_within bareOnly_within 4
    exact fun t => along_holds (d := d) (.negation (.present "f")) (.type t)
  have plain : w.Plain := World.Plain.of_run (.of_no_objects rfl rfl rfl)
    (registryRun_afterOperations (Provider.dispatch_within bareOnly_within 4) twoTypes
      .withRegistry)
  have plain₁ : (exec (addingRequest.asks d 0) w).2.Plain := ((looks 0).out w plain).plain plain
  have types : w.typesOf 0 = [0, 1] := by decide +kernel
  rw [types]
  refine ⟨by with_unfolding_all rfl, ?_, ?_, by decide +kernel, by decide +kernel,
    by decide +kernel, by decide +kernel⟩
  · refine .of_looking true plain (by decide +kernel) ?_
    exact .of_looking true (plain₁.installing _ _) (by decide +kernel) (.done _)
  · refine .of_looking true plain (by decide +kernel) ?_
    exact .of_looking false (plain₁.installing _ _) (by decide +kernel) (.done _)

end DataShape
