import DataShape.Proofs.Schema.Composition

/-! # Spellings of templates

A specification can be spelled in several ways, which all mean the same: what stands for a type can
be written as it is or as a mapping with a type, alone or in a list or tuple for an array. A
template compiles as the one in which all of them are written out.

* `Value.expanded`, `World.expanded` — a specification and a template that are written out.
* `readSpec_expanded` — a specification is read as it is written out.
* `exec_compileSchema_expanded` — templates compile alike. -/

namespace DataShape

/-! ## Specifications that are written out -/

/-- Whether a value stands for a type by itself: a name, a type or a schema. -/
def Value.isReference : Value → Bool
  | .str _ | .type _ | .schema _ => true
  | _ => false

/-- A specification with a type only. -/
def Value.ofType (reference : Value) : Value := .ofFields [("type", reference)]

/-- A specification that is written out: what stands for a type, by itself or as the only item of a
list or tuple, as a specification with that type. Other specifications stay as they are. -/
def Value.expanded (spec : Value) : Value :=
  if spec.unlisted.isReference then
    if spec.sequence?.isSome then .fresh [spec.unlisted.ofType] else spec.ofType
  else spec

/-- A template with all its specifications written out. -/
def World.expanded (w : World) (template : Value) : Value :=
  (w.mapping? template).elim template fun entries =>
    .freshDict (entries.map fun e => (e.1, e.2.expanded))

section Expansion

variable (d : Dispatch) (s : Nat)

/-- What stands for a type is read as the specification with that type. -/
theorem readPlainSpec_ofType {reference : Value} (h : reference.isReference = true) (field : String)
    (isArray : Bool) :
    readPlainSpec d s field isArray reference.ofType
      = readPlainSpec d s field isArray reference := by
  cases reference with
  | str _ | type _ | schema _ => rfl
  | _ => cases h

/-- A list or tuple with what stands for a type has no other items. -/
theorem single_of_isReference {spec : Value} {items : List Value}
    (given : spec.sequence? = some items) (h : spec.unlisted.isReference = true) :
    ∃ item, items = [item] ∧ spec.unlisted = item := by
  unfold Value.unlisted at h ⊢
  rw [given] at h ⊢
  split at h
  · next item single =>
    obtain rfl := Option.some.inj single
    exact ⟨item, rfl, rfl⟩
  · cases spec with
    | str _ | type _ | schema _ => cases given
    | _ => cases h

/-- A specification is read as it is written out. The cases are those of the reader. -/
theorem readSpec_expanded (field : String) (spec : Value) :
    readSpec d s field spec.expanded = readSpec d s field spec := by
  unfold Value.expanded
  split
  · next reference =>
    cases given : spec.sequence? with
    | none =>
      have whole : spec.unlisted = spec := by rw [Value.unlisted, given]
      have plain : spec.ofType.sequence? = none := rfl
      rw [whole] at reference
      rw [if_neg (by simp), readSpec, readSpec, given, plain]
      exact readPlainSpec_ofType d s reference field false
    | some items =>
      obtain ⟨item, rfl, here⟩ := single_of_isReference given reference
      have listed : (Value.fresh [item.ofType]).sequence? = some [item.ofType] := rfl
      rw [here] at reference
      rw [if_pos (by simp), here, readSpec, readSpec, given, listed]
      exact readPlainSpec_ofType d s reference field true
  · rfl

theorem compileField_expanded (name spec : Value) :
    compileField d s name spec.expanded = compileField d s name spec := by
  simp only [compileField, readSpec_expanded]

/-- By induction on the template. -/
theorem compileFields_expanded (entries : Entries) :
    compileFields d s (entries.map fun e => (e.1, e.2.expanded)) = compileFields d s entries := by
  induction entries with
  | nil => rfl
  | cons entry rest ih =>
    rw [List.map_cons, compileFields, compileFields, compileField_expanded, ih]

/-- A template compiles as it does when it is written out: the same schema is made, in the same
world, or the same fault ends the compilation. -/
theorem exec_compileSchema_expanded (w : World) (template collectionName parent registry : Value) :
    exec (compileSchema d (w.expanded template) collectionName parent registry) w
      = exec (compileSchema d template collectionName parent registry) w := by
  unfold World.expanded
  cases mapped : w.mapping? template with
  | none => rfl
  | some entries =>
    have written : w.mapping? (.freshDict (entries.map fun e => (e.1, e.2.expanded)))
        = some (entries.map fun e => (e.1, e.2.expanded)) := rfl
    unfold compileSchema
    rw [Option.elim_some, exec_bind_ok (exec_mappingOf? ..), exec_bind_ok (exec_mappingOf? ..),
      mapped, written]
    simp only [compileFields_expanded]

end Expansion

end DataShape
