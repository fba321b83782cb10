import DataShape.Value.Sharing
import DataShape.World

/-! # Occurrences of shared containers

A container with a share may occur in many places of the world: among the attributes of objects, in
what was stored or kept, and as the own attributes or fields of an object, if they were set to it.
A change to it is made in all of these places at once.

* `World.replaceShared` — put a changed container in the place of all its occurrences.
* `World.changePart` — change the entries of a part of an object, wherever they occur. -/

namespace DataShape

/-- Put a container in the place of every occurrence of a share in values with names. -/
def replaceStored (target : Nat) (new : Value) (t : Table String Value) : Table String Value :=
  t.map fun e => (e.1, Value.replaceShared target new e.2)

/-- Put a container in the place of every occurrence of a share among the values of the world. -/
def World.replaceValues (w : World) (target : Nat) (new : Value) : World :=
  { w with
    types := w.types.map fun t =>
      { t with
        attributes := replaceEntries target new t.attributes
        capabilities := replaceEntries target new t.capabilities
        stored := replaceStored target new t.stored }
    fields := w.fields.map fun f =>
      { f with
        schema := Value.replaceShared target new f.schema
        label := Value.replaceShared target new f.label
        attributes := replaceEntries target new f.attributes
        stored := replaceStored target new f.stored }
    schemas := w.schemas.map fun s =>
      { s with
        registry := Value.replaceShared target new s.registry
        collectionName := Value.replaceShared target new s.collectionName
        fields := replaceEntries target new s.fields
        stored := replaceStored target new s.stored }
    registries := w.registries.map fun r =>
      { r with
        schemaCapabilities := replaceEntries target new r.schemaCapabilities
        fieldCapabilities := replaceEntries target new r.fieldCapabilities }
    store := replaceEntries target new w.store
    kept := replaceStored target new w.kept }

namespace World

/-- Put entries in the place of those of a part. -/
def withPartEntries (w : World) (part : Part) (entries : Entries) : World :=
  match part with
  | .typeAttributes id => w.modifyType id fun t => { t with attributes := entries }
  | .fieldAttributes id => w.modifyField id fun f => { f with attributes := entries }
  | .schemaFields id => w.modifySchema id fun s => { s with fields := entries }
  | _ => w

/-- The parts that are the container of a share. -/
def partsWith (w : World) (share : Nat) : List Part :=
  (w.sharedParts.filter fun e => e.1 == share).map Prod.snd

/-- The share of the container that a part is, if it has one. -/
def shareOfPart? (w : World) (part : Part) : Option Nat :=
  (w.sharedParts.find? fun e => e.2 == part).map Prod.fst

/-- Put a container in the place of every occurrence of a share. -/
def replaceShared (w : World) (target : Nat) (new : Value) : World :=
  let w := w.replaceValues target new
  match new with
  | .dict _ entries => (w.partsWith target).foldl (fun w part => w.withPartEntries part entries) w
  | _ => w

/-- Change the entries of a part of an object, wherever they occur. -/
def changePart (w : World) (part : Part) (change : Entries → Entries) : World :=
  let entries := change (w.partEntries part)
  match w.shareOfPart? part with
  | some share => w.replaceShared share (.dict share entries)
  | none => w.withPartEntries part entries

/-- A part that is a container of its own. -/
def unlinkPart (w : World) (part : Part) : World :=
  { w with sharedParts := w.sharedParts.filter fun e => !(e.2 == part) }

/-- Let a part be the container of a share. -/
def shareParts (w : World) (share : Nat) (parts : List Part) : World :=
  { w with sharedParts := parts.map (share, ·) ++ w.sharedParts }

/-- Let a part be the container that another part is. -/
def linkParts (w : World) (part other : Part) : World :=
  match w.shareOfPart? other with
  | some share => w.shareParts share [part]
  | none => { w with nextIdentity := w.nextIdentity + 1 }.shareParts w.nextIdentity [part, other]

/-- Let a part be the container that a value is. -/
def linkPart (w : World) (part : Part) (v : Value) : World :=
  match v with
  | .live other _ => if other == part then w else (w.unlinkPart part).linkParts part other
  | .dict share _ =>
      if share = 0 then w.unlinkPart part else (w.unlinkPart part).shareParts share [part]
  | _ => w

/-- A part that is a container of its own changes alone. -/
theorem changePart_of_not_shared {w : World} {part : Part} (h : w.shareOfPart? part = none)
    (change : Entries → Entries) :
    w.changePart part change = w.withPartEntries part (change (w.partEntries part)) := by
  simp [changePart, h]

end World

end DataShape
