import DataShape.Proofs.Idle
import DataShape.Proofs.Registry.Run
import DataShape.Registry.Install

/-! # Installing capabilities

A capability is installed in the table of a type, or in one of the two tables that the schemas and
the fields of a registry share. In a plain world no function of a provider takes part in that, and
nothing but the one table changes.

* `World.installing` — a world in which capabilities were installed in a table, in order.
* `capabilityTable_installing` — no other table changes.
* `exec_giveCapability`, `exec_installShared` — what the engine does. -/

namespace DataShape

/-- A table in which capabilities were installed, one after the other. -/
def CapabilityTable.installAll (t : CapabilityTable) (cs : List Capability) : CapabilityTable :=
  cs.foldl CapabilityTable.install t

@[simp] theorem CapabilityTable.installAll_nil (t : CapabilityTable) : t.installAll [] = t := rfl

@[simp] theorem CapabilityTable.installAll_cons (t : CapabilityTable) (c : Capability)
    (cs : List Capability) : t.installAll (c :: cs) = (t.install c).installAll cs := rfl

theorem CapabilityTable.installAll_append (t : CapabilityTable) (cs cs' : List Capability) :
    t.installAll (cs ++ cs') = (t.installAll cs).installAll cs' := List.foldl_append

namespace World

/-! ## Changed tables -/

/-- A world with another table of an owner. -/
def changeTable (w : World) (owner : TableOwner) (change : CapabilityTable → CapabilityTable) :
    World :=
  match owner with
  | .type id => w.modifyType id fun t => { t with capabilities := change t.capabilities }
  | .registrySchemas id =>
      w.modifyRegistry id fun r => { r with schemaCapabilities := change r.schemaCapabilities }
  | .registryFields id =>
      w.modifyRegistry id fun r => { r with fieldCapabilities := change r.fieldCapabilities }

/-- Whether the owner of a table exists. -/
def Owns (w : World) : TableOwner → Prop
  | .type id => id < w.types.size
  | .registrySchemas id => id < w.registries.size
  | .registryFields id => id < w.registries.size

/-- The table of an owner is changed, and no other one. -/
theorem capabilityTable_changeTable {w : World} {owner : TableOwner} (owns : w.Owns owner)
    (change : CapabilityTable → CapabilityTable) (other : TableOwner) :
    (w.changeTable owner change).capabilityTable other
      = if other = owner then change (w.capabilityTable other) else w.capabilityTable other := by
  cases owner with
  | type id =>
    cases other with
    | type i =>
      simp only [changeTable, capabilityTable, type_modifyType, TableOwner.type.injEq]
      by_cases same : i = id
      · subst same
        have inside : i < w.types.size := owns
        simp [inside]
      · simp [same, Ne.symm same]
    | _ => rfl
  | registrySchemas id =>
    cases other with
    | registrySchemas i =>
      simp only [changeTable, capabilityTable, registry_modifyRegistry,
        TableOwner.registrySchemas.injEq]
      by_cases same : i = id
      · subst same
        have inside : i < w.registries.size := owns
        simp [inside]
      · simp [same, Ne.symm same]
    | registryFields i =>
      simp only [changeTable, capabilityTable, registry_modifyRegistry, reduceCtorEq, if_false]
      split <;> rfl
    | type i => rfl
  | registryFields id =>
    cases other with
    | registryFields i =>
      simp only [changeTable, capabilityTable, registry_modifyRegistry,
        TableOwner.registryFields.injEq]
      by_cases same : i = id
      · subst same
        have inside : i < w.registries.size := owns
        simp [inside]
      · simp [same, Ne.symm same]
    | registrySchemas i =>
      simp only [changeTable, capabilityTable, registry_modifyRegistry, reduceCtorEq, if_false]
      split <;> rfl
    | type i => rfl

/-- Two changes of one node are one change. -/
theorem modify_modify {α : Type} (nodes : Array α) (i : Nat) (f g : α → α) :
    (nodes.modify i f).modify i g = nodes.modify i fun n => g (f n) := by
  refine Array.ext (by simp) fun j _ _ => ?_
  simp only [Array.getElem_modify]
  split <;> rfl

/-- Two changes of one table are one change. -/
theorem changeTable_changeTable (w : World) (owner : TableOwner)
    (f g : CapabilityTable → CapabilityTable) :
    (w.changeTable owner f).changeTable owner g = w.changeTable owner fun t => g (f t) := by
  cases owner <;> simp [changeTable, modifyType, modifyRegistry, modify_modify]

/-- To leave a table as it is changes nothing. -/
theorem changeTable_id (w : World) (owner : TableOwner) : (w.changeTable owner fun t => t) = w := by
  have still : ∀ {α : Type} (nodes : Array α) (i : Nat), nodes.modify i (fun n => n) = nodes := by
    intro α nodes i
    refine Array.ext (by simp) fun j _ _ => ?_
    simp [Array.getElem_modify]
  cases owner <;> simp [changeTable, modifyType, modifyRegistry, still]

section Kept

variable (w : World) (owner : TableOwner) (change : CapabilityTable → CapabilityTable)

theorem untouched_changeTable : w.Untouched (w.changeTable owner change) :=
  (along_modifyTable (R := World.Untouched) owner change).out w

@[simp] theorem size_changeTable : (w.changeTable owner change).types.size = w.types.size := by
  cases owner <;> simp [changeTable, modifyType, modifyRegistry]

@[simp] theorem attributes_changeTable (i : Nat) :
    ((w.changeTable owner change).type i).attributes = (w.type i).attributes := by
  cases owner with
  | type id =>
    rw [changeTable, type_modifyType]
    split <;> rfl
  | _ => rfl

@[simp] theorem sharedParts_changeTable :
    (w.changeTable owner change).sharedParts = w.sharedParts := by
  cases owner <;> rfl

@[simp] theorem nextIdentity_changeTable :
    (w.changeTable owner change).nextIdentity = w.nextIdentity := by
  cases owner <;> rfl

end Kept

/-- Worlds that resemble each other do so after one change of a table. -/
theorem Resembles.changeTable {w u : World} (h : w.Resembles u) (owner : TableOwner)
    (change : CapabilityTable → CapabilityTable) :
    (w.changeTable owner change).Resembles (u.changeTable owner change) := by
  have rest : { u with log := w.log, nextIdentity := w.nextIdentity, schemas := w.schemas } = w :=
    Relisted.rest h
  refine ⟨?_, ?_, fun i => ?_⟩
  · -- a table lies outside of schemas, the log and the counter
    have changed := congrArg (fun v : World => v.changeTable owner change) rest
    cases owner <;> exact changed
  · have size := h.schemasSize
    cases owner <;> exact size
  · have kept := h.schema i
    cases owner <;> exact kept

/-! ## Installing -/

/-- A world in which capabilities were installed in a table, one after the other. -/
def installing (w : World) (owner : TableOwner) (cs : List Capability) : World :=
  w.changeTable owner (·.installAll cs)

@[simp] theorem installing_nil (w : World) (owner : TableOwner) : w.installing owner [] = w :=
  w.changeTable_id owner

theorem installing_append (w : World) (owner : TableOwner) (cs cs' : List Capability) :
    w.installing owner (cs ++ cs') = (w.installing owner cs).installing owner cs' := by
  simp only [installing, changeTable_changeTable, CapabilityTable.installAll_append]

theorem installing_cons (w : World) (owner : TableOwner) (c : Capability) (cs : List Capability) :
    w.installing owner (c :: cs) = (w.installing owner [c]).installing owner cs :=
  w.installing_append owner [c] cs

/-- **No other table changes.** The table in which capabilities are installed is overwritten by them
in order. -/
theorem capabilityTable_installing {w : World} {owner : TableOwner} (owns : w.Owns owner)
    (cs : List Capability) (other : TableOwner) :
    (w.installing owner cs).capabilityTable other
      = if other = owner then (w.capabilityTable other).installAll cs
        else w.capabilityTable other :=
  capabilityTable_changeTable owns _ other

theorem Plain.installing {w : World} (plain : w.Plain) (owner : TableOwner)
    (cs : List Capability) : (w.installing owner cs).Plain :=
  (w.untouched_changeTable owner _).plain plain

theorem Resembles.installing {w u : World} (h : w.Resembles u) (owner : TableOwner)
    (cs : List Capability) : (w.installing owner cs).Resembles (u.installing owner cs) :=
  h.changeTable owner _

end World

/-! ## What the engine does -/

section Engine

variable (call : Provider) (depth : Nat) {w : World}

/-- A capability is read as it is, so that its name is found without a call. -/
theorem exec_capabilityName (c : Capability) :
    exec ((call.dispatch (depth + 1)).member c.toValue "name") w = (.ok c.name, w) := by
  have name : computedMember? (call.dispatch depth) c.toValue "name" = some (pure c.name) := rfl
  show exec (readMember (call.dispatch depth) c.toValue "name") w = _
  rw [readMember_of_not_host _ rfl name]
  rfl

/-- A capability is installed on a type if its name can be a key, and it is refused otherwise. -/
theorem exec_giveCapability_eq (plain : w.Plain) (id : Nat) (c : Capability) :
    exec (giveCapability (call.dispatch (depth + 1)) id c) w
      = if c.name.hashable then (.ok ⟨⟩, w.installing (.type id) [c])
        else (.error .wrongType, w) := by
  unfold giveCapability
  rw [plain.exec_orStandIn]
  unfold installOnType
  rw [exec_bind_ok (plain.exec_standIn? _ _)]
  unfold installNamed
  rw [exec_bind_ok (exec_capabilityName call depth c)]
  cases c.name.hashable <;> rfl

theorem exec_giveCapability (plain : w.Plain) (id : Nat) {c : Capability}
    (keyed : c.name.hashable = true) :
    exec (giveCapability (call.dispatch (depth + 1)) id c) w
      = (.ok ⟨⟩, w.installing (.type id) [c]) := by
  rw [exec_giveCapability_eq call depth plain, if_pos keyed]

theorem exec_giveCapability_refused (plain : w.Plain) (id : Nat) {c : Capability}
    (keyed : c.name.hashable = false) :
    exec (giveCapability (call.dispatch (depth + 1)) id c) w = (.error .wrongType, w) := by
  rw [exec_giveCapability_eq call depth plain, if_neg (Bool.eq_false_iff.mp keyed)]

/-- By induction on the capabilities, which are installed one after the other. -/
theorem exec_giveCapabilities (plain : w.Plain) (id : Nat) {cs : List Capability}
    (keyed : ∀ c ∈ cs, c.name.hashable = true) :
    exec (cs.forM (giveCapability (call.dispatch (depth + 1)) id)) w
      = (.ok ⟨⟩, w.installing (.type id) cs) := by
  induction cs generalizing w with
  | nil =>
    rw [World.installing_nil]
    rfl
  | cons c rest ih =>
    show exec (giveCapability (call.dispatch (depth + 1)) id c >>= fun _ =>
      rest.forM (giveCapability (call.dispatch (depth + 1)) id)) w = _
    rw [exec_bind_ok (exec_giveCapability call depth plain id (keyed c List.mem_cons_self)),
      w.installing_cons _ c rest]
    exact ih (plain.installing _ _) fun c there => keyed c (List.mem_cons_of_mem _ there)

/-- The table that the objects of a target share. -/
def sharedTable (registry : Nat) : Target → TableOwner
  | .schema => .registrySchemas registry
  | _ => .registryFields registry

/-- A capability is installed in a shared table; then it is recorded, which words its name. -/
theorem exec_installShared (d : Dispatch) (registry : Nat) (target : Target) (c : Capability) :
    exec (installShared d registry target c) w = exec (do
      let name ← textOf d c.name
      writeLog .registry .debug s!"Installed {target.name} capability: {name}")
      (w.installing (sharedTable registry target) [c]) := by
  cases target <;> rfl

end Engine

end DataShape
