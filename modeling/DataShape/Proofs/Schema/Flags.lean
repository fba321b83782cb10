import DataShape.Proofs.Schema.Lookup

/-! # Field lists for user interfaces

A list for user interfaces is made once, from the flags that the fields have at that time, and then
kept. Where flags are read without effect, what a schema lists is determined by the world in which
the first question is asked, whatever is listed in between.

* `World.excludes`, `World.shows` — the flag of a field, and whether a name is shown.
* `World.listed` — what a schema lists: a kept list, or a new one.
* `World.SameLists` — worlds in which every schema lists the same.
* `SameLists.exec_fieldNames` — listing. -/

namespace DataShape

namespace World

variable (d : Dispatch) (w : World)

/-- Flags of fields are read without effect, in all worlds that differ in kept lists only. -/
def FlagsQuiet : Prop :=
  ∀ f, ∃ b, ∀ w', w.Relisted w' → exec (uiExclude d f) w' = (.ok b, w')

/-- Whether a field is left out of user interfaces at present. -/
def excludes (f : Nat) : Bool :=
  match (exec (uiExclude d f) w).1 with
  | .ok b => b
  | .error _ => false

/-- Whether the field that a schema has under a name is shown in user interfaces at present. -/
def shows (s : Nat) (name : Value) : Bool :=
  match w.fieldNamed? s name with
  | some (.field f) => !w.excludes d f
  | _ => true

/-- What a schema lists: all names, or those that it keeps as the list for user interfaces; without
such a list the names that are shown at present. -/
def listed (uiOnly : Bool) (s : Nat) : List Value :=
  if uiOnly then
    ((w.schema s).fieldLists.get? shownOnly).getD ((w.declared s).filter (w.shows d s))
  else w.declared s

variable {d} {w}

/-- Every list is a part of the list of all names, in the same order. -/
theorem SoundSchemas.listed_sublist (sound : w.SoundSchemas) (uiOnly : Bool) (s : Nat) :
    (w.listed d uiOnly s).Sublist (w.declared s) := by
  unfold listed
  split
  · cases kept : (w.schema s).fieldLists.get? shownOnly with
    | none => exact List.filter_sublist
    | some names => exact sound.shown s names kept
  · exact List.Sublist.refl _

/-- The flag of a field is what reading it gives, in all worlds that differ in kept lists only. -/
theorem FlagsQuiet.exec_uiExclude (flags : w.FlagsQuiet d) (f : Nat) {w' : World}
    (relisted : w.Relisted w') : exec (uiExclude d f) w' = (.ok (w.excludes d f), w') := by
  obtain ⟨b, quiet⟩ := flags f
  rw [quiet w' relisted, excludes, quiet w (.refl w)]

/-! ## Lists that stay the same -/

/-- A world differs from another one in kept lists only, and every schema lists the same in both. -/
structure SameLists (d : Dispatch) (w w' : World) : Prop where
  relisted : w.Relisted w'
  sound : w'.SoundSchemas
  kept : ∀ s names, (w.schema s).fieldLists.get? shownOnly = some names →
    (w'.schema s).fieldLists.get? shownOnly = some names
  shown : ∀ s names, (w'.schema s).fieldLists.get? shownOnly = some names →
    names = w.listed d true s

namespace SameLists

theorem refl (sound : w.SoundSchemas) : SameLists d w w where
  relisted := .refl w
  sound := sound
  kept _ _ h := h
  shown s names h := by
    rw [listed, if_pos rfl, h]
    rfl

variable {w' : World}

theorem ofListed (same : SameLists d w w') {w'' : World} (listed : w'.Listed w'') :
    SameLists d w w'' where
  relisted := same.relisted.trans listed.relisted
  sound := listed.sound
  kept s names h := by
    rw [listed.shown]
    exact same.kept s names h
  shown s names h := by
    rw [listed.shown] at h
    exact same.shown s names h

/-- A schema that keeps no list for user interfaces lists what is shown at present. -/
theorem listed_of_missed (same : SameLists d w w') {s : Nat}
    (missed : (w'.schema s).fieldLists.get? shownOnly = none) :
    w.listed d true s = (w.declared s).filter (w.shows d s) := by
  rw [listed, if_pos rfl]
  cases found : (w.schema s).fieldLists.get? shownOnly with
  | none => rfl
  | some names =>
    rw [same.kept s names found] at missed
    cases missed

/-- To keep a list for user interfaces that was not kept before is to keep what is listed. -/
theorem withList (same : SameLists d w w') {s : Nat}
    (missed : (w'.schema s).fieldLists.get? shownOnly = none) :
    SameLists d w (w'.withList s shownOnly (w.listed d true s)) := by
  have relisted : w'.Relisted (w'.withList s shownOnly (w.listed d true s)) :=
    w'.relisted_keep s _ _
  refine ⟨same.relisted.trans relisted, same.sound.withList s nofun fun _ => ?_, ?_, ?_⟩
  · rw [same.relisted.declared, same.listed_of_missed missed]
    exact List.filter_sublist
  · intro i names h
    rw [World.withList, schema_modifySchema]
    split
    · next here =>
      obtain ⟨rfl, -⟩ := here
      rw [same.kept s names h] at missed
      cases missed
    · exact same.kept i names h
  · intro i names h
    rcases kept_of_withList h with ⟨rfl, -, rfl⟩ | old
    · rfl
    · exact same.shown i names old

/-- Declared names lead to the same fields in both worlds. -/
theorem exec_findField (same : SameLists d w w') {s : Nat} {n : Value} (there : n ∈ w.declared s) :
    exec (findField d s n) w' = (.ok (.field (w.fieldUnder s n)), w') := by
  rw [← same.relisted.declared] at there
  rw [same.sound.exec_findField_of_declared d there, same.relisted.fieldUnder]

/-- Whether a name is shown is asked without effect. -/
theorem exec_isShown (same : SameLists d w w') (flags : w.FlagsQuiet d) {s : Nat} {n : Value}
    (there : n ∈ w.declared s) (sound : w.SoundSchemas) :
    exec (isShown d s n) w' = (.ok (w.shows d s n), w') := by
  unfold isShown
  rw [exec_bind_ok (same.exec_findField there), isExcluded,
    exec_bind_ok (flags.exec_uiExclude _ same.relisted), shows, sound.fieldNamed?_eq_fieldUnder there]
  rfl

/-- A schema lists what is listed, and keeps it. -/
theorem exec_fieldList (same : SameLists d w w') (sound : w.SoundSchemas) {uiOnly : Bool}
    (flags : uiOnly = true → w.FlagsQuiet d) (s : Nat) :
    ∃ w'', exec (fieldList d s ⟨uiOnly, false⟩) w' = (.ok (w.listed d uiOnly s), w'') ∧
      SameLists d w w'' := by
  have declared := same.relisted.declared s
  cases uiOnly with
  | false =>
    obtain ⟨w'', run, listed⟩ := same.sound.lists_fieldList d s
    rw [declared] at run
    exact ⟨w'', run, same.ofListed listed⟩
  | true =>
    cases kept : (w'.schema s).fieldLists.get? shownOnly with
    | some names =>
      rw [← same.shown s names kept]
      exact ⟨w', same.sound.plain.exec_fieldList_of_kept d kept, same⟩
    -- Without a kept list the names are put together and filtered, and the result is kept.
    | none =>
      obtain ⟨w₁, run, listed⟩ := same.sound.lists_declaredNames d s
      have same₁ := same.ofListed listed
      rw [declared] at run
      have filtered : exec ((w.declared s).filterM (isShown d s)) w₁
          = (.ok ((w.declared s).filter (w.shows d s)), w₁) :=
        exec_filterM fun n there => same₁.exec_isShown (flags rfl) there sound
      have missed₁ : (w₁.schema s).fieldLists.get? shownOnly = none := by
        rw [listed.shown]
        exact kept
      have made := (same₁.listed_of_missed missed₁).symm
      have computed : exec (computedNames d s shownOnly) w' = (.ok (w.listed d true s), w₁) := by
        unfold computedNames
        rw [exec_bind_ok run, if_pos rfl, filtered, made]
      refine ⟨_, ?_, same₁.withList missed₁⟩
      rw [same.sound.plain.exec_fieldList_of_missed d kept, computed]

/-- The flags of a projection that drops what is left out of user interfaces, or does not. -/
theorem exec_fieldNames (same : SameLists d w w') (sound : w.SoundSchemas) {uiOnly : Bool}
    (flags : uiOnly = true → w.FlagsQuiet d) (s : Nat) :
    ∃ w'', exec (fieldNames d s [.bool uiOnly]) w' = (.ok (w.listed d uiOnly s), w'') ∧
      SameLists d w w'' := by
  obtain ⟨w'', run, same'⟩ := same.exec_fieldList sound flags s
  refine ⟨w'', ?_, same'⟩
  have chosen : exec (Projection.ofFlags d [.bool uiOnly]) w' = (.ok ⟨uiOnly, false⟩, w') := rfl
  rw [same.sound.plain.exec_fieldNames chosen, run]

end SameLists

end World

end DataShape
