import DataShape.Capability.Entry
import DataShape.Member.Basic
import DataShape.Proofs.Within

/-! # Reading within a relation

To read a member of a host, to search a base chain or the fields of a schema, to compile and to
evaluate a match specification and to describe an object only looks at objects. Each of these
follows every relation that the dispatch is within.

* `along_readMember` — reading a member, which every other operation of this module serves.
* `along_holds` — evaluating a predicate, constructor by constructor. -/

namespace DataShape

variable {R : World → World → Prop} {d : Dispatch}

section Frame

variable [Frame R]

instance along_viewAttributes (id : Nat) : Along R (viewAttributes id) := by
  unfold viewAttributes
  refine Along.andThen fun held => ?_
  split <;> infer_instance

instance along_capabilitiesOf (id : Nat) : Along R (capabilitiesOf id) := by
  unfold capabilitiesOf
  infer_instance

instance along_sortValues (vs : List Value) : Along R (sortValues vs) := by
  unfold sortValues
  split <;> infer_instance

instance along_findType? (registry : Nat) (name : Value) : Along R (findType? registry name) := by
  unfold findType?
  infer_instance

instance along_heldFields (id : Nat) : Along R (heldFields id) := by
  unfold heldFields
  infer_instance

instance along_askNodes {α : Type} {ask : Value → Action (Option α)}
    [∀ v, Along R (ask v)] (nodes : List Value) : Along R (askNodes ask nodes) := by
  induction nodes with
  | nil =>
    rw [askNodes]
    infer_instance
  | cons node rest ih =>
    rw [askNodes]
    refine Along.andThen fun answer => ?_
    split <;> infer_instance

instance along_labelFrom (name : Value) : Along R (labelFrom name) := by
  unfold labelFrom
  split <;> infer_instance

end Frame

/-! ## Match specifications

While a specification is compiled nothing but the words of a fault is asked of the dispatch. -/

section Specification

variable [Frame R] [∀ v, Along R (shown d v)]

instance along_refusePredicate {α : Type} (cause : PredicateFault) (spec : Value) :
    Along R (refusePredicate d cause spec : Action α) := by
  unfold refusePredicate
  infer_instance

instance along_refuseMixed {α : Type} (keys : List Value) (spec : Value) :
    Along R (refuseMixed d keys spec : Action α) := by
  unfold refuseMixed
  split <;> infer_instance

instance along_compileEntries (spec : Value) (entries : Entries) :
    Along R (compileEntries d spec entries) := by
  unfold compileEntries
  infer_instance

instance along_compileTest (spec : Value) : Along R (compileTest d spec) := by
  unfold compileTest
  infer_instance

section Compile

set_option linter.unusedSectionVars false

variable {compileLive : Part → Bool → Action Predicate} [∀ p b, Along R (compileLive p b)]

mutual

/-- Compiling a specification follows the relation, constructor by constructor. -/
theorem along_compileSpec_of : ∀ spec : Value, Along R (compileSpec d compileLive spec)
  | .list _ items => by
    have := along_compileParts items
    rw [compileSpec]
    infer_instance
  | .tuple items => by
    have := along_compileParts items
    rw [compileSpec]
    infer_instance
  | .dict share entries => by
    rw [compileSpec]
    exact along_compileMapping _ entries
  | .predicate _ | .null | .missing | .str _ | .live .. => by
    rw [compileSpec]
    infer_instance
  | .bool _ | .int _ | .float _ | .bytes _ | .date _ | .datetime _ | .time _ | .option _
  | .record .. | .native _ | .target _ | .type _ | .schema _ | .field _ | .registry _ | .table _
  | .function .. | .static .. | .bound .. | .method .. | .capability .. => by
    rw [compileSpec] <;> first | infer_instance | exact nofun
termination_by structural spec => spec

theorem along_compileParts : ∀ specs : List Value, Along R (compileParts d compileLive specs)
  | [] => by
    rw [compileParts]
    infer_instance
  | spec :: rest => by
    have := along_compileSpec_of spec
    have := along_compileParts rest
    rw [compileParts]
    infer_instance
termination_by structural specs => specs

theorem along_compileMapping (spec : Value) :
    ∀ entries : List (Value × Value), Along R (compileMapping d compileLive spec entries)
  | [] => by
    rw [compileMapping]
    infer_instance
  | entry :: rest => by
    have := along_compileEntry spec entry
    rw [compileMapping]
    infer_instance
termination_by structural entries => entries

theorem along_compileEntry (spec : Value) :
    ∀ entry : Value × Value, Along R (compileEntry d compileLive spec entry)
  | (key, operand) => by
    have := along_compileSpec_of operand
    have := along_compileOperand operand
    rw [compileEntry]
    split
    · infer_instance
    · refine Along.andThen fun parts => ?_
      split <;> infer_instance
termination_by structural entry => entry

theorem along_compileOperand : ∀ operand : Value, Along R (compileOperand d compileLive operand)
  | .list _ items => by
    have := along_compileParts items
    rw [compileOperand]
    infer_instance
  | .tuple items => by
    have := along_compileParts items
    rw [compileOperand]
    infer_instance
  | .null | .missing | .bool _ | .int _ | .float _ | .str _ | .bytes _ | .date _ | .datetime _
  | .time _ | .dict .. | .live .. | .option _ | .record .. | .native _ | .target _ | .type _
  | .schema _ | .field _ | .registry _ | .table _ | .function .. | .static .. | .bound ..
  | .method .. | .capability .. | .predicate _ => by
    rw [compileOperand] <;> first | infer_instance | exact nofun
termination_by structural operand => operand

end

instance along_compileSpec (spec : Value) : Along R (compileSpec d compileLive spec) :=
  along_compileSpec_of spec

end Compile

instance along_compilePart (depth : Nat) (part : Part) (readOnly : Bool) :
    Along R (compilePart d depth part readOnly) := by
  induction depth generalizing part readOnly with
  | zero =>
    rw [compilePart]
    infer_instance
  | succ depth ih =>
    have mapped : ∀ (spec : Value) (entries : List (Value × Value)),
        Along R (compileMapping d (compilePart d depth) spec entries) := along_compileMapping
    rw [compilePart]
    infer_instance

instance along_compilePredicate (spec : Value) : Along R (compilePredicate d spec) := by
  unfold compilePredicate
  infer_instance

end Specification

/-! ## Data

A value is read as data scalar by scalar, with the keys of mappings as texts. -/

section Data

set_option linter.unusedSectionVars false

variable [Frame R] [∀ v, Along R (plainScalar d v)] [∀ v, Along R (textOf d v)]

mutual

/-- Reading a value as data follows the relation, constructor by constructor. -/
theorem along_plainTree_of : ∀ v : Value, Along R (plainTree d v)
  | .dict _ entries => by
    have := along_plainEntries entries
    rw [plainTree]
    infer_instance
  | .list _ items => by
    have := along_plainItems items
    rw [plainTree]
    infer_instance
  | .tuple items => by
    have := along_plainItems items
    rw [plainTree]
    infer_instance
  | .null | .missing | .bool _ | .int _ | .float _ | .str _ | .bytes _ | .date _ | .datetime _
  | .time _ | .live .. | .option _ | .record .. | .native _ | .target _ | .type _ | .schema _
  | .field _ | .registry _ | .table _ | .function .. | .static .. | .bound .. | .method ..
  | .capability .. | .predicate _ => by
    rw [plainTree] <;> first | infer_instance | exact nofun
termination_by structural v => v

theorem along_plainItems : ∀ items : List Value, Along R (plainItems d items)
  | [] => by
    rw [plainItems]
    infer_instance
  | v :: vs => by
    have := along_plainTree_of v
    have := along_plainItems vs
    rw [plainItems]
    infer_instance
termination_by structural items => items

theorem along_plainEntries : ∀ entries : List (Value × Value), Along R (plainEntries d entries)
  | [] => by
    rw [plainEntries]
    infer_instance
  | e :: es => by
    have := along_plainEntry e
    have := along_plainEntries es
    rw [plainEntries]
    infer_instance
termination_by structural entries => entries

theorem along_plainEntry : ∀ e : Value × Value, Along R (plainEntry d e)
  | (k, v) => by
    have := along_plainTree_of v
    rw [plainEntry]
    infer_instance
termination_by structural e => e

end

instance along_plainTree (v : Value) : Along R (plainTree d v) := along_plainTree_of v

instance along_plainData (v : Value) : Along R (plainData d v) := by
  unfold plainData
  infer_instance

end Data

variable [d.Within R]

/-! ## Data types -/

instance along_askChain {α : Type} {ask : Value → Action (Option α)} [∀ v, Along R (ask v)]
    (fuel : Nat) (node : Value) : Along R (askChain d ask fuel node) := by
  have answered : ∀ (fuel : Nat) (node : Value), (∀ v, Along R (askChain d ask fuel v)) →
      Along R (do match ← ask node with
        | some a => return some a
        | none => askChain d ask fuel (← d.member node "_base_type")) := by
    intro fuel node rest
    refine Along.andThen fun answer => ?_
    split <;> infer_instance
  induction fuel generalizing node with
  | zero => cases node <;> rw [askChain] <;> first | infer_instance | exact nofun
  | succ fuel ih =>
    cases node <;> rw [askChain] <;> first | exact answered _ _ ih | infer_instance | exact nofun

instance along_searchLineage {α : Type} {ask : Value → Action (Option α)}
    [∀ v, Along R (ask v)] (id : Nat) (own : World → List Nat → Option α) :
    Along R (searchLineage d id ask own) := by
  unfold searchLineage
  infer_instance

instance along_lineageOf (id : Nat) : Along R (lineageOf d id) := by
  unfold lineageOf
  infer_instance

instance along_classNameOf (id : Nat) : Along R (classNameOf d id) := by
  unfold classNameOf
  infer_instance

instance along_heldUnder? (container name : Value) : Along R (heldUnder? d container name) := by
  unfold heldUnder?
  refine Along.andThen fun entries => ?_
  split <;> infer_instance

instance along_nodeAttribute? (name node : Value) : Along R (nodeAttribute? d name node) := by
  unfold nodeAttribute?
  infer_instance

instance along_nodeMember? (name node : Value) : Along R (nodeMember? d name node) := by
  unfold nodeMember?
  infer_instance

instance along_inheritedAttribute (id : Nat) (name : Value) :
    Along R (inheritedAttribute d id name) := by
  unfold inheritedAttribute
  infer_instance

instance along_typeAttribute (id : Nat) (name : Value) : Along R (typeAttribute d id name) := by
  unfold typeAttribute
  infer_instance

instance along_typeMember (id : Nat) (name : Value) : Along R (typeMember d id name) := by
  unfold typeMember
  infer_instance

instance along_isA (id : Nat) (other : Value) : Along R (isA d id other) := by
  unfold isA
  split <;> infer_instance

instance along_nativeType (id : Nat) : Along R (nativeType d id) := by
  unfold nativeType
  refine Along.andThen fun found => ?_
  split <;> infer_instance

instance along_typeOptions (id : Nat) : Along R (typeOptions d id) := by
  unfold typeOptions
  refine Along.andThen fun found => ?_
  split <;> infer_instance

instance along_isEnumeration (id : Nat) : Along R (isEnumeration d id) := by
  unfold isEnumeration
  infer_instance

instance along_produceDefault (v : Value) : Along R (produceDefault d v) := by
  unfold produceDefault
  infer_instance

instance along_typeDefault (id : Nat) : Along R (typeDefault d id) := by
  unfold typeDefault
  infer_instance

instance along_isNative (id : Nat) (v : Value) : Along R (isNative d id v) := by
  unfold isNative
  refine Along.andThen fun representation => ?_
  split <;> infer_instance

instance along_capabilityNamesOf (id : Nat) : Along R (capabilityNamesOf d id) := by
  unfold capabilityNamesOf
  refine Along.andThen fun table => ?_
  split <;> infer_instance

instance along_describeType (id : Nat) : Along R (describeType d id) := by
  unfold describeType
  refine Along.andThen fun w => Along.andThen fun base => Along.andThen fun held => ?_
  refine Along.andThen fun attributes => Along.andThen fun sorted => Along.andThen fun names => ?_
  refine Along.andThen fun capabilities => ?_
  infer_instance

/-! ## Capabilities -/

instance along_isCapabilityName (name : Value) : Along R (isCapabilityName d name) := by
  unfold isCapabilityName
  split <;> infer_instance

instance along_makeCapability (name function getter setter : Value) :
    Along R (makeCapability d name function getter setter) := by
  unfold makeCapability
  infer_instance

instance along_bindCapability (c : Capability) (receiver : Value) :
    Along R (c.bind d receiver) := by
  unfold Capability.bind
  split <;> infer_instance

instance along_readCapability (c : Capability) (receiver : Value) :
    Along R (c.read d receiver) := by
  unfold Capability.read
  infer_instance

instance along_ownName (v : Value) : Along R (ownName d v) := by
  unfold ownName
  split <;> infer_instance

instance along_capabilityName (part explicit : Value) :
    Along R (capabilityName d part explicit) := by
  unfold capabilityName
  infer_instance

instance along_entryAccessors (explicit getter setter : Value) :
    Along R (entryAccessors d explicit getter setter) := by
  unfold entryAccessors
  have chosen : ∀ getName setName : Option Value, Along R (match getName, setName with
      | some g, some s => do
          if ← areEqual g s then return [← makeCapability d g .null getter setter]
          else
            let first ← makeCapability d g .null getter .null
            let second ← makeCapability d s .null .null setter
            return [first, second]
      | some g, none => do return [← makeCapability d g .null getter .null]
      | none, some s => do return [← makeCapability d s .null .null setter]
      | none, none => pure []) := by
    intro getName setName
    split <;> infer_instance
  infer_instance

instance along_entryFunction (explicit function : Value) :
    Along R (entryFunction d explicit function) := by
  unfold entryFunction
  infer_instance

instance along_readMapping (entries : Entries) : Along R (readMapping d entries) := by
  unfold readMapping
  dsimp only
  split
  · split <;> infer_instance
  · infer_instance

instance along_readEntry (entry : Value) : Along R (readEntry d entry) := by
  unfold readEntry
  refine Along.andThen fun entries => ?_
  split <;> infer_instance

/-! ## Evaluation -/

section Match

set_option linter.unusedSectionVars false

variable {matchesLive : Part → Value → Action Bool} [∀ p v, Along R (matchesLive p v)]

mutual

theorem along_matchesEntries : ∀ (entries : List (Value × Value)) (obj : Value),
    Along R (matchesEntries d matchesLive entries obj)
  | [], obj => by
    rw [matchesEntries]
    infer_instance
  | entry :: rest, obj => by
    have := along_matchesEntry entry obj
    have := along_matchesEntries rest obj
    rw [matchesEntries]
    infer_instance
termination_by structural entries => entries

theorem along_matchesEntry : ∀ (entry : Value × Value) (obj : Value),
    Along R (matchesEntry d matchesLive entry obj)
  | (key, want), obj => by
    have := along_matchesValue want
    rw [matchesEntry]
    infer_instance
termination_by structural entry => entry

theorem along_matchesValue : ∀ want found : Value, Along R (matchesValue d matchesLive want found)
  | .dict _ expected, found => by
    have := along_matchesEntries expected found
    rw [matchesValue]
    infer_instance
  | .live .., found => by
    rw [matchesValue]
    infer_instance
  | .null, found | .missing, found | .bool _, found | .int _, found | .float _, found
  | .str _, found | .bytes _, found | .date _, found | .datetime _, found | .time _, found
  | .list .., found | .tuple _, found | .option _, found | .record .., found | .native _, found
  | .target _, found | .type _, found | .schema _, found | .field _, found | .registry _, found
  | .table _, found | .function .., found | .static .., found | .bound .., found
  | .method .., found | .capability .., found | .predicate _, found => by
    rw [matchesValue] <;> first | infer_instance | exact nofun
termination_by structural want => want

end

end Match

instance along_matchesPart (depth : Nat) (part : Part) (obj : Value) :
    Along R (matchesPart d depth part obj) := by
  induction depth generalizing part obj with
  | zero =>
    rw [matchesPart]
    infer_instance
  | succ depth ih =>
    have matched : ∀ (entry : Value × Value) (obj : Value),
        Along R (matchesEntry d (matchesPart d depth) entry obj) := along_matchesEntry
    rw [matchesPart]
    infer_instance

mutual

/-- Evaluating a predicate follows the relation, constructor by constructor. -/
theorem along_holds_of : ∀ (p : Predicate) (obj : Value), Along R (p.holds d obj)
  | .present path, obj => by
    rw [Predicate.holds]
    infer_instance
  | .all parts, obj => by
    rw [Predicate.holds]
    exact along_allHold parts obj
  | .any parts, obj => by
    rw [Predicate.holds]
    exact along_anyHolds parts obj
  | .negation part, obj => by
    have := along_holds_of part obj
    rw [Predicate.holds]
    infer_instance
  | .structural _ expected, obj => by
    rw [Predicate.holds]
    exact along_matchesEntries expected obj
  | .test f, obj => by
    rw [Predicate.holds]
    infer_instance
termination_by structural p => p

theorem along_allHold : ∀ (parts : List Predicate) (obj : Value), Along R (allHold d parts obj)
  | [], obj => by
    rw [allHold]
    infer_instance
  | part :: rest, obj => by
    have := along_holds_of part obj
    have := along_allHold rest obj
    rw [allHold]
    infer_instance
termination_by structural parts => parts

theorem along_anyHolds : ∀ (parts : List Predicate) (obj : Value), Along R (anyHolds d parts obj)
  | [], obj => by
    rw [anyHolds]
    infer_instance
  | part :: rest, obj => by
    have := along_holds_of part obj
    have := along_anyHolds rest obj
    rw [anyHolds]
    infer_instance
termination_by structural parts => parts

end

instance along_holds (p : Predicate) (obj : Value) : Along R (p.holds d obj) := along_holds_of p obj

/-! ## Registries -/

instance along_suggestions (registry : Nat) (name : Value) :
    Along R (suggestions d registry name) := by
  have found : ∀ close : Option (List String), Along R (match close with
      | some close => pure close
      | none => throw .noEntry : Action (List String)) := by
    intro close
    split <;> infer_instance
  unfold suggestions
  refine Along.andThen fun w => ?_
  dsimp only
  split <;> infer_instance

instance along_textIfTrue (v : Value) : Along R (textIfTrue d v) := by
  unfold textIfTrue
  infer_instance

instance along_typeNotFound {α : Type} (registry : Nat) (name field : Value) :
    Along R (typeNotFound d registry name field : Action α) := by
  unfold typeNotFound
  infer_instance

instance along_requireType (registry : Nat) (name field : Value) :
    Along R (requireType d registry name field) := by
  unfold requireType
  refine Along.andThen fun found => ?_
  split <;> infer_instance

/-! ## Dynamic members -/

instance along_sharedMember (registry : Value) (part : String)
    (table : RegistryNode → CapabilityTable) (name : Value) :
    Along R (sharedMember d registry part table name) := by
  unfold sharedMember
  split <;> infer_instance

instance along_registryOfSchema (schema : Value) : Along R (registryOfSchema d schema) := by
  unfold registryOfSchema
  split <;> infer_instance

instance along_fieldMember (id : Nat) (name : Value) : Along R (fieldMember d id name) := by
  have searched : ∀ w : World, Along R (do
      match ← heldUnder? d (w.fieldAttributes id) name with
      | some v => return v
      | none =>
          let registry ← registryOfSchema d (w.field id).schema
          sharedMember d registry "field_capabilities" (·.fieldCapabilities) name) := by
    intro w
    refine Along.andThen fun found => ?_
    split <;> infer_instance
  unfold fieldMember
  infer_instance

instance along_schemaMember (id : Nat) (name : Value) : Along R (schemaMember d id name) := by
  unfold schemaMember
  infer_instance

instance along_ownSearch (host name : Value) : Along R (ownSearch d host name) := by
  unfold ownSearch
  split <;> infer_instance

instance along_findMember (host name : Value) : Along R (findMember d host name) := by
  unfold findMember
  infer_instance

instance along_ownHostName (host : Value) : Along R (ownHostName d host) := by
  unfold ownHostName
  split <;> infer_instance

instance along_hostName (host : Value) : Along R (hostName d host) := by
  unfold hostName
  infer_instance

instance along_capabilityMissing {α : Type} (host name : Value) :
    Along R (capabilityMissing d host name : Action α) := by
  unfold capabilityMissing
  infer_instance

instance along_ownCapability (host name : Value) : Along R (ownCapability d host name) := by
  unfold ownCapability
  infer_instance

instance along_capabilityOn (host name : Value) : Along R (capabilityOn d host name) := by
  unfold capabilityOn
  infer_instance

instance along_hasOwnCapability (host name : Value) :
    Along R (hasOwnCapability d host name) := by
  unfold hasOwnCapability
  infer_instance

instance along_hasCapability (host name : Value) : Along R (hasCapability d host name) := by
  unfold hasCapability
  infer_instance

instance along_boundFunction (host capability : Value) :
    Along R (boundFunction d host capability) := by
  unfold boundFunction
  split <;> infer_instance

instance along_invokeOwn (host name : Value) (arguments : List Value)
    (named : List (String × Value)) : Along R (invokeOwn d host name arguments named) := by
  unfold invokeOwn
  refine Along.andThen fun capability => Along.andThen fun f => ?_
  split <;> infer_instance

instance along_invoke (host name : Value) (arguments : List Value) :
    Along R (invoke d host name arguments) := by
  unfold invoke
  infer_instance

instance along_dynamicMember (host : Value) (name : String) :
    Along R (dynamicMember d host name) := by
  have found : ∀ v : Value, Along R (match v with
      | .missing => capabilityMissing d host (.str name)
      | v => match v.capability? with
        | some c => c.read d host
        | none => pure v) := by
    intro v
    split
    · infer_instance
    · split <;> infer_instance
  unfold dynamicMember
  infer_instance

instance along_computedMember {compute : Action Value} [Along R compute] (host : Value)
    (name : String) : Along R (computedMember d host name compute) := by
  unfold computedMember
  infer_instance

/-! ## Fields -/

instance along_givenDefault (id : Nat) : Along R (givenDefault d id) := by
  unfold givenDefault
  refine Along.andThen fun w => ?_
  split <;> infer_instance

instance along_hasDefault (id : Nat) : Along R (hasDefault d id) := by
  unfold hasDefault
  infer_instance

instance along_fieldLabel (id : Nat) : Along R (fieldLabel d id) := by
  unfold fieldLabel
  infer_instance

instance along_fieldAttribute (id : Nat) (path : String) (fallback : Value) :
    Along R (fieldAttribute d id path fallback) := by
  unfold fieldAttribute
  infer_instance

instance along_isRequired (id : Nat) : Along R (isRequired d id) := by
  unfold isRequired
  infer_instance

instance along_uiExclude (id : Nat) : Along R (uiExclude d id) := by
  unfold uiExclude
  infer_instance

instance along_fieldDefault (id : Nat) : Along R (fieldDefault d id) := by
  unfold fieldDefault
  infer_instance

instance along_plainScalar (v : Value) : Along R (plainScalar d v) := by
  unfold plainScalar
  split <;> infer_instance

instance along_describeField (id : Nat) : Along R (describeField d id) := by
  have rest : ∀ (w : World) (held label : Value) (array nested : List (String × Value)),
      Along R (do
        let attributes ← if ← truthOf d (w.fieldAttributes id) then
            do pure [("attributes", ← plainData d (w.fieldAttributes id))]
          else pure []
        return Value.ofFields ([("name", (← get).fieldName id), ("type", held), ("label", label)]
          ++ array ++ nested ++ attributes)) := by
    intro w held label array nested
    infer_instance
  unfold describeField
  infer_instance

/-! ## Schemas -/

instance along_ownField (schema : Nat) (name : Value) : Along R (ownField d schema name) := by
  unfold ownField
  refine Along.andThen fun held => ?_
  split <;> infer_instance

instance along_ownFieldOr {further : Action Value} [Along R further] (schema : Nat)
    (name : Value) : Along R (ownFieldOr d schema name further) := by
  unfold ownFieldOr
  infer_instance

instance along_parentFieldOr {along : Action Value} [Along R along] (schema : Nat)
    (name : Value) : Along R (parentFieldOr d schema name along) := by
  unfold parentFieldOr
  refine Along.andThen fun parent => ?_
  split <;> infer_instance

instance along_fieldAlong (name : Value) (chain : List Nat) :
    Along R (fieldAlong d name chain) := by
  induction chain with
  | nil =>
    rw [fieldAlong]
    infer_instance
  | cons id rest ih =>
    rw [fieldAlong]
    infer_instance

instance along_findField (schema : Nat) (name : Value) : Along R (findField d schema name) := by
  unfold findField
  infer_instance

instance along_rootOf (id : Nat) : Along R (rootOf d id) := by
  unfold rootOf
  infer_instance

instance along_holdsArray (field : Value) : Along R (holdsArray d field) := by
  unfold holdsArray
  split <;> infer_instance

instance along_heldType (field : Value) : Along R (heldType d field) := by
  unfold heldType
  split <;> infer_instance

instance along_isExcluded (field : Value) : Along R (isExcluded d field) := by
  unfold isExcluded
  split <;> infer_instance

instance along_inheritedNames (schema : Nat) : Along R (inheritedNames d schema) := by
  unfold inheritedNames
  refine Along.andThen fun w => ?_
  split <;> infer_instance

instance along_declaredNames (schema : Nat) (ownOnly : Bool) :
    Along R (declaredNames d schema ownOnly) := by
  unfold declaredNames
  infer_instance

instance along_isShown (schema : Nat) (name : Value) : Along R (isShown d schema name) := by
  unfold isShown
  infer_instance

instance along_describeMember (field : Value) : Along R (describeMember d field) := by
  unfold describeMember
  split <;> infer_instance

instance along_ownFields (id : Nat) : Along R (ownFields d id) := by
  unfold ownFields
  refine Along.andThen fun held => Along.andThen fun entries => ?_
  split <;> infer_instance

instance along_describeSchema (id : Nat) : Along R (describeSchema d id) := by
  unfold describeSchema
  infer_instance

instance along_fingerprint (id : Nat) : Along R (fingerprint d id) := by
  unfold fingerprint
  infer_instance

/-! ## Members -/

/-- The computed members of a type follow the relation, one for each name. -/
theorem along_typeComputed {id : Nat} {name : String} {compute : Action Value}
    (h : typeComputed? d id name = some compute) : Along R compute := by
  unfold typeComputed? at h
  split at h <;> cases h <;> infer_instance

theorem along_fieldComputed {id : Nat} {name : String} {compute : Action Value}
    (h : fieldComputed? d id name = some compute) : Along R compute := by
  unfold fieldComputed? at h
  split at h <;> cases h <;> infer_instance

theorem along_schemaComputed {id : Nat} {name : String} {compute : Action Value}
    (h : schemaComputed? d id name = some compute) : Along R compute := by
  unfold schemaComputed? at h
  split at h <;> cases h <;> infer_instance

/-- A computed member of a value follows the relation. -/
theorem along_computed {v : Value} {name : String} {compute : Action Value}
    (h : computedMember? d v name = some compute) : Along R compute := by
  unfold computedMember? at h
  split at h
  · exact along_typeComputed h
  · exact along_fieldComputed h
  · exact along_schemaComputed h
  · obtain ⟨found, -, rfl⟩ := Option.map_eq_some_iff.mp h
    infer_instance

instance along_plainMember (v : Value) (name : String) : Along R (plainMember d v name) := by
  unfold plainMember
  refine Along.andThen fun w => ?_
  split <;> infer_instance

instance along_readMember (v : Value) (name : String) : Along R (readMember d v name) := by
  unfold readMember
  split
  · next compute h =>
    have := along_computed (R := R) h
    infer_instance
  · infer_instance

end DataShape
