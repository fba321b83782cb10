import DataShape.Proofs.Reading
import DataShape.Schema.Record

/-! # Records within a relation

What a schema does with records follows every relation that the dispatch is within and that the
listing of fields follows: walking the fields, projecting and converting a record, making the record
of all defaults. -/

namespace DataShape

set_option synthInstance.maxSize 1000

variable {R : World → World → Prop} {d : Dispatch} [d.Within R]

instance along_projectionOfFlags (flags : List Value) : Along R (Projection.ofFlags d flags) := by
  unfold Projection.ofFlags
  infer_instance

/-! ## Projection -/

section Nested

variable {nested : Nat → Value → Action Value} [∀ s v, Along R (nested s v)]

instance along_projectValue (field value : Value) :
    Along R (projectValue d nested field value) := by
  unfold projectValue
  refine Along.andThen fun held => ?_
  split
  · refine Along.andThen fun array => ?_
    split <;> infer_instance
  · infer_instance

instance along_projectNames (schema : Nat) (record : Value) (names : List Value)
    (entries : Entries) : Along R (projectNames d nested schema record names entries) := by
  induction names generalizing entries with
  | nil =>
    rw [projectNames]
    infer_instance
  | cons name rest ih =>
    rw [projectNames]
    infer_instance

end Nested

/-! ## Coercion -/

instance along_readText (type : Value) (text : String) : Along R (readText d type text) := by
  unfold readText
  split <;> infer_instance

instance along_readThrough (field : Nat) (type value : Value) :
    Along R (readThrough d field type value) := by
  unfold readThrough
  infer_instance

instance along_countsAsNative (type value : Value) : Along R (countsAsNative d type value) := by
  unfold countsAsNative
  split <;> infer_instance

instance along_canRead (type : Value) : Along R (canRead d type) := by
  unfold canRead
  split <;> infer_instance

instance along_convertValue (field : Nat) (value : Value) :
    Along R (convertValue d field value) := by
  have typed : ∀ type : Value, Along R (match type with
      | .schema _ => pure value
      | type => do
          if ← countsAsNative d type value then return value
          if ← canRead d type then readThrough d field type value else return value) := by
    intro type
    split <;> infer_instance
  unfold convertValue
  infer_instance

instance along_convertBy (field value : Value) : Along R (convertBy d field value) := by
  unfold convertBy
  split <;> infer_instance

instance along_convertField (sanitizing : Bool) (field value : Value) :
    Along R (convertField d sanitizing field value) := by
  have converted : Along R (match value.sequence? with
      | some items => do return some (.fresh (← items.mapM (convertBy d field)))
      | none => do
          if sanitizing then return none else return some (.fresh [← convertBy d field value]) :
      Action (Option Value)) := by
    split <;> infer_instance
  unfold convertField
  infer_instance

instance along_convertEntry (schema : Nat) (sanitizing : Bool) (converted : Entries)
    (entry : Value × Value) : Along R (convertEntry d schema sanitizing converted entry) := by
  unfold convertEntry
  infer_instance

instance along_convertEntries (schema : Nat) (sanitizing : Bool) (entries : Entries) :
    Along R (convertEntries d schema sanitizing entries) := by
  unfold convertEntries
  infer_instance

instance along_convert (schema : Nat) (record : Value) (sanitizing : Bool) :
    Along R (convert d schema record sanitizing) := by
  unfold convert
  split <;> infer_instance

/-! ## Walking -/

section Visit

variable {σ : Type} {visit : σ → Value → Action σ} [∀ s v, Along R (visit s v)]

instance along_visitNames (schema : Nat) (uiOnly : Bool) (names : List Value) (state : σ) :
    Along R (visitNames d schema uiOnly visit names state) := by
  induction names generalizing state with
  | nil =>
    rw [visitNames]
    infer_instance
  | cons name rest ih =>
    rw [visitNames]
    refine Along.andThen fun field => ?_
    split <;> infer_instance

end Visit

/-! ## Defaults -/

instance along_typeRecordDefault (type : Value) : Along R (typeRecordDefault d type) := by
  have given : ∀ v : Value, Along R (match v with
      | .missing => pure none
      | .list .. => pure (some (Value.fresh []))
      | v => pure (some v) : Action (Option Value)) := by
    intro v
    split <;> infer_instance
  unfold typeRecordDefault
  split <;> infer_instance

instance along_recordDefault (field : Value) : Along R (recordDefault d field) := by
  unfold recordDefault
  split <;> infer_instance

instance along_nameOfField (field : Value) : Along R (nameOfField d field) := by
  unfold nameOfField
  split <;> infer_instance

/-! ## Operations that list fields -/

section Listing

variable [∀ s p, Along R (fieldList d s p)]

instance along_fieldNames (schema : Nat) (flags : List Value) :
    Along R (fieldNames d schema flags) := by
  unfold fieldNames
  infer_instance

instance along_sanitizeWithin (uiOnly : Value) (depth schema : Nat) (record : Value) :
    Along R (sanitizeWithin d uiOnly depth schema record) := by
  induction depth generalizing schema record with
  | zero =>
    rw [sanitizeWithin]
    infer_instance
  | succ depth ih =>
    rw [sanitizeWithin]
    infer_instance

instance along_sanitize (schema : Nat) (record uiOnly : Value) :
    Along R (sanitize d schema record uiOnly) := by
  unfold sanitize
  infer_instance

section Visit

variable {σ : Type} {visit : σ → Value → Action σ} [∀ s v, Along R (visit s v)]

instance along_visitOwn (schema : Nat) (flags : List Value) (start : σ) :
    Along R (visitOwn d schema flags start visit) := by
  unfold visitOwn
  infer_instance

instance along_visitFields (schema : Nat) (flags : List Value) (start : σ) :
    Along R (visitFields d schema flags start visit) := by
  unfold visitFields
  refine Along.andThen fun found => ?_
  split <;> infer_instance

end Visit

instance along_fieldsOf (schema : Nat) (flags : List Value) :
    Along R (fieldsOf d schema flags) := by
  unfold fieldsOf
  infer_instance

instance along_defaultRecord (schema : Nat) (uiOnly : Value) :
    Along R (defaultRecord d schema uiOnly) := by
  have entered : ∀ (entries : Entries) (field : Value), Along R (do
      match ← recordDefault d field with
      | some v =>
          let name ← nameOfField d field
          if !name.hashable then throw .wrongType
          return Table.insert entries name v
      | none => return entries) := by
    intro entries field
    refine Along.andThen fun given => ?_
    split <;> infer_instance
  unfold defaultRecord
  infer_instance

end Listing

end DataShape
