import DataShape.Capability.Entry
import DataShape.Registry.Define

/-! # Installing capabilities

Capabilities are installed by entries, one after the other, on the schemas or the fields of a
registry or on its types. An entry for types reaches the types registered when its turn comes that
satisfy its match specification, or all of them when it has none; each type is asked just before
it is served. Schemas and fields have one table each, and match specifications do not count there.
When an entry fails, what was installed before stays. -/

namespace DataShape

variable (d : Dispatch)

/-- The target that a value names. -/
def targetOf : Value → Action Target
  | .target t => pure t
  | .str "schema" => pure .schema
  | .str "field" => pure .field
  | .str "type" => pure .type
  | _ => throw (.wrongValue "")

/-- The names of capabilities as a shown list. -/
def capabilityNames (cs : List Capability) : Action String :=
  shown d (.fresh (cs.map (·.name)))

/-- Install capabilities on one type after the other, where a condition holds; the result is the
types that were served. -/
def serveTypes (condition : Option Predicate) (cs : List Capability) :
    List Nat → Action (List Nat)
  | [] => pure []
  | id :: rest => do
      let wanted ← condition.elim (pure true) fun p => p.holds d (.type id)
      if wanted then
        cs.forM (giveCapability d id)
        return id :: (← serveTypes condition cs rest)
      else serveTypes condition cs rest

/-- Install the capabilities of an entry on the types of a registry. -/
def installOnTypes (registry : Nat) (reading : EntryReading) : Action Unit := do
  let condition ← if reading.matchSpec.isMissing then pure none
    else some <$> compilePredicate d reading.matchSpec
  let w ← get
  let served ← serveTypes d condition reading.capabilities (w.typesOf registry)
  let w ← get
  let names ← capabilityNames d reading.capabilities
  let types ← shown d (.fresh (served.map w.typeName))
  writeLog .registry .debug s!"Installed type capabilities {names} on {types}"

/-- Install one capability in a shared table. -/
def installShared (registry : Nat) (target : Target) (c : Capability) : Action Unit := do
  modify fun w => w.modifyRegistry registry fun r => match target with
    | .schema => { r with schemaCapabilities := r.schemaCapabilities.install c }
    | _ => { r with fieldCapabilities := r.fieldCapabilities.install c }
  let name ← textOf d c.name
  writeLog .registry .debug s!"Installed {target.name} capability: {name}"

/-- Install one entry. -/
def installEntry (registry : Nat) (target : Target) (entry : Value) : Action Unit := do
  let reading ← readEntry d entry
  match target with
  | .type => installOnTypes d registry reading
  | target =>
      if !reading.matchSpec.isMissing then
        let names ← capabilityNames d reading.capabilities
        writeLog .registry .debug <|
          s!"Ignoring 'matches' for {target.name} capability install: " ++ names
      reading.capabilities.forM (installShared d registry target)

/-- Install one entry or several, in order. -/
def installCapabilities (registry : Nat) (target entries : Value) : Action Unit := do
  let t ← targetOf target
  (entryList entries).forM (installEntry d registry t)

/-- Install entries for schemas, fields and types; `null` means none. -/
def mixin (registry : Nat) (onSchema onField onType : Value) : Action Unit := do
  if !onSchema.isNull then installCapabilities d registry (.target .schema) onSchema
  if !onField.isNull then installCapabilities d registry (.target .field) onField
  if !onType.isNull then installCapabilities d registry (.target .type) onType

/-- Serving no types changes nothing. -/
@[simp] theorem serveTypes_nil (condition : Option Predicate) (cs : List Capability) : serveTypes d condition cs [] = pure [] := rfl

end DataShape
