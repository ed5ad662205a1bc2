import TypeBridge.Library.Worklist
import TypeBridge.Migration.Safety

namespace TypeBridge.Migration

open Library Schema

/-!
# Conditions on existing data

An operation whose safety depends on the data needs conditions that exclude
the data it would invalidate. They are derived from the operation and the two
declared schemas around its delta. A type that the source does not declare
has no instances, so what only concerns such types needs no condition: the
operation is then proven condition-free.

All conditions of an operation carry its index and its safety class. A
conditional operation without conditions is condition-free; where that cannot
be proven, a condition without a resolution stands for it.
-/

inductive ScalarSafetySubject where
  | value (id : ValueFactId)
  | owns (id : OwnsFactId)
  deriving DecidableEq

/-- What would make an unresolvable condition expressible. -/
inductive SafetyConditionUnlock where
  | bindingDistinct | valueRegex | backfill
  deriving DecidableEq, Repr

/-- Why a condition cannot be expressed. -/
inductive UnresolvableSafetyReason where
  | keyRequiresDistinctOwners | uniqueRequiresDistinctOwners
  | relatesCardinalityRequiresDistinctPlayers | playsCardinalityRequiresDistinctRelations
  | ownsMinimumRequiresDistinctAttributes | regexNarrowingRequiresValueRegex
  | valueTypeConversionRequiresBackfill | subtypeTransitionRequiresBackfill
  | roleSpecializationRequiresBackfill | conditionalTransitionRequiresBackfill
  deriving DecidableEq, Repr

/-- A derived condition on existing data. -/
inductive SafetyCondition where
  | noInstances (typeId : TypeId) (includeSubtypes : Bool)
  | ownsMinimum (owns : OwnsFactId) (minimum : Nat)
  | ownsMaximum (owns : OwnsFactId) (maximum : Nat)
  | rangeLower (subject : ScalarSafetySubject) (lower : CanonicalValue)
  | rangeUpper (subject : ScalarSafetySubject) (upper : CanonicalValue)
  | valuesNarrowed (subject : ScalarSafetySubject) (allowed : Finset CanonicalValue)
  | noOrphanAttributes (attributeId : AttributeId)
  | unresolvable (reason : UnresolvableSafetyReason) (unlock : SafetyConditionUnlock)
  deriving DecidableEq

/-- The assertion language can express the condition. -/
def SafetyCondition.isResolvable : SafetyCondition → Bool
  | .unresolvable _ _ => false
  | _ => true

structure OperationCondition where
  operationIndex : Nat
  condition : SafetyCondition
  deriving DecidableEq

/-! ## Types without instances -/

structure SafetyConditionDomainIndex where
  possibleSourceInstanceDomains : Finset TypeId
  sourceTypes : Finset TypeId

def supertypesOf (facts : Inventory) (subtype : TypeId) : List TypeId :=
  (directParents facts subtype).map (·.supertype)

/-- Source types may hold instances, and so may their target supertypes. -/
def SafetyConditionDomainIndex.new (source target : Inventory) : SafetyConditionDomainIndex :=
  let declared := directTypes source
  let edges := target.values.filter fun
    | .sub _ => true
    | _ => false
  let reached : Except Diagnostic (Finset TypeId) :=
    Worklist.closure (fun subtype => .ok (supertypesOf target subtype))
      (declared.length + edges.length + 1) declared ∅
  { possibleSourceInstanceDomains := reached.toOption.getD ∅
    sourceTypes := declared.toFinset }

namespace SafetyConditionDomainIndex

def sourceDeclaresType (domain : SafetyConditionDomainIndex) (id : TypeId) : Bool :=
  id ∈ domain.sourceTypes

def mayHaveSourceInstances (domain : SafetyConditionDomainIndex) (id : TypeId) : Bool :=
  id ∈ domain.possibleSourceInstanceDomains

end SafetyConditionDomainIndex

def annotationSubjectIsUninhabited (domain : SafetyConditionDomainIndex) :
    AnnotationSubjectId → AnnotationKindId → Bool
  -- An abstract type only loses its direct instances.
  | .type id, .abstract => !domain.sourceDeclaresType id
  | .type id, _ => !domain.mayHaveSourceInstances id
  | .sub id, _ => !domain.mayHaveSourceInstances id.subtype
  | .value id, _ => !domain.mayHaveSourceInstances (attributeTypeId id.attributeId)
  | .owns id, _ => !domain.mayHaveSourceInstances id.owner
  | .relates id, _ => !domain.mayHaveSourceInstances id.relation
  | .plays id, _ => !domain.mayHaveSourceInstances id.player
  | .function _, _ => false

/-! ## Narrowed constraints -/

section Narrowing

variable (compareSameDomain : CanonicalValue → CanonicalValue → Option Ordering)

def rangePayload (annotated : AnnotationFact) :
    Except Diagnostic (Option CanonicalValue × Option CanonicalValue) :=
  match annotated.value with
  | .range lower upper => .ok (lower, upper)
  | _ => .error ⟨"safety_condition_malformed_range_transition"⟩

def valuesPayload (annotated : AnnotationFact) : Except Diagnostic (Finset CanonicalValue) :=
  match annotated.value with
  | .values members => .ok members
  | _ => .error ⟨"safety_condition_malformed_values_transition"⟩

def boundNarrows (direction : Ordering) :
    Option CanonicalValue → Option CanonicalValue → Except Diagnostic Bool
  | _, none => .ok false
  | none, some _ => .ok true
  | some old, some new =>
      match compareSameDomain new old with
      | some ordering => .ok (ordering == direction)
      | none => .error ⟨"safety_condition_incomparable_range_domain"⟩

def rangeDomain (range : Option CanonicalValue × Option CanonicalValue) : Option ValueTypeTag :=
  (range.1.or range.2).map (·.valueType)

def rangeNarrowing (old : Option (Option CanonicalValue × Option CanonicalValue))
    (new : Option CanonicalValue × Option CanonicalValue) : Except Diagnostic (Bool × Bool) :=
  if old.any fun range => rangeDomain range ≠ rangeDomain new then
    .error ⟨"safety_condition_incomparable_range_domain"⟩
  else do
    let lower ← boundNarrows compareSameDomain .gt (old.bind Prod.fst) new.1
    let upper ← boundNarrows compareSameDomain .lt (old.bind Prod.snd) new.2
    return (lower, upper)

/-- The new members leave out an old one. -/
def valuesNarrow (old : Option (Finset CanonicalValue)) (new : Finset CanonicalValue) :
    Except Diagnostic Bool :=
  match old with
  | none => .ok true
  | some old =>
      if old.image (·.valueType) ≠ new.image (·.valueType) then
        .error ⟨"safety_condition_incomparable_values_domain"⟩
      else .ok (¬ old ⊆ new)

def scalarSubject : AnnotationSubjectId → Except Diagnostic ScalarSafetySubject
  | .value id => .ok (.value id)
  | .owns id => .ok (.owns id)
  | _ => .error ⟨"safety_condition_invalid_scalar_subject"⟩

def deriveRangeConditions (old : Option AnnotationFact) (new : AnnotationFact) :
    Except Diagnostic (List SafetyCondition) := do
  let range ← rangePayload new
  let oldRange ← old.mapM rangePayload
  let narrows ← rangeNarrowing compareSameDomain oldRange range
  let subject ← scalarSubject new.id.subject
  let lower := if narrows.1 then range.1.toList else []
  let upper := if narrows.2 then range.2.toList else []
  return lower.map (.rangeLower subject) ++ upper.map (.rangeUpper subject)

def deriveValuesConditions (old : Option AnnotationFact) (new : AnnotationFact) :
    Except Diagnostic (List SafetyCondition) := do
  let members ← valuesPayload new
  let oldMembers ← old.mapM valuesPayload
  if ← valuesNarrow oldMembers members then
    let subject ← scalarSubject new.id.subject
    return [.valuesNarrowed subject members]
  else return []

/-! ## Cardinalities -/

def interfaceKind : AnnotationSubjectId → Except Diagnostic InterfaceKind
  | .owns _ => .ok .owns
  | .relates _ => .ok .relates
  | .plays _ => .ok .plays
  | _ => .error ⟨"safety_condition_invalid_cardinality_subject"⟩

def declaredAnnotation (facts : Inventory) (subject : AnnotationSubjectId)
    (kind : AnnotationKindId) : Option SchemaAnnotationValue :=
  match facts[SchemaFactId.annotated ⟨subject, kind⟩]? with
  | some (.annotated fact) => some fact.value
  | _ => none

/-- The cardinality that a schema gives a directly annotated interface. -/
def declaredCardinality (facts : Inventory) (semantic : SemanticProfile)
    (subject : AnnotationSubjectId) :
    Except Diagnostic Cardinality := do
  let kind ← interfaceKind subject
  let explicit := declaredAnnotation facts subject .card
  let key := declaredAnnotation facts subject .key
  return semantic.effectiveCardinality kind (explicit.bind cardinalityValue)
    (kind = .owns && key.isSome)

def maximumNarrows : Option Nat → Option Nat → Bool
  | _, none => false
  | none, some _ => true
  | some old, some new => new < old

def deriveCardinalityConditions (source target : Inventory) (semantic : SemanticProfile)
    (subject : AnnotationSubjectId) :
    Except Diagnostic (List SafetyCondition) := do
  let old ← declaredCardinality source semantic subject
  let new ← declaredCardinality target semantic subject
  let minimumNarrows : Bool := old.min < new.min
  let maximumNarrows := maximumNarrows old.max new.max
  if minimumNarrows = false ∧ maximumNarrows = false then return []
  else
    match subject with
    | .owns owns =>
        let minimum :=
          if new.min = 1 then .ownsMinimum owns 1
          else
            .unresolvable .ownsMinimumRequiresDistinctAttributes
              .bindingDistinct
        let maximum := new.max.toList.map (.ownsMaximum owns)
        return (if minimumNarrows then [minimum] else []) ++
          (if maximumNarrows then maximum else [])
    | .relates _ =>
        return [.unresolvable .relatesCardinalityRequiresDistinctPlayers .bindingDistinct]
    | .plays _ => return [.unresolvable .playsCardinalityRequiresDistinctRelations .bindingDistinct]
    | _ => throw ⟨"safety_condition_invalid_cardinality_subject"⟩

/-! ## Conditions of an operation -/

variable (source target : Inventory) (semantic : SemanticProfile)

/-- The conditions of an added, changed or removed annotation. -/
def deriveAnnotationTransition (old new : Option AnnotationFact) (id : AnnotationFactId) :
    Except Diagnostic (List SafetyCondition) :=
  match id.kind, old, new with
  | .abstract, none, _ =>
      match id.subject with
      | .type typeId => .ok [.noInstances typeId false]
      | _ => .ok []
  | .independent, _, none =>
      match id.subject with
      | .type typeId =>
          if typeId.kind = .attribute then .ok [.noOrphanAttributes ⟨typeId.label⟩]
          else .ok []
      | _ => .ok []
  | .key, none, _ => .ok [.unresolvable .keyRequiresDistinctOwners .bindingDistinct]
  | .unique, none, _ => .ok [.unresolvable .uniqueRequiresDistinctOwners .bindingDistinct]
  | .card, _, _ => deriveCardinalityConditions source target semantic id.subject
  | .range, old, some new => deriveRangeConditions compareSameDomain old new
  | .values, old, some new => deriveValuesConditions old new
  | .regex, _, some _ => .ok [.unresolvable .regexNarrowingRequiresValueRegex .valueRegex]
  | _, _, _ => .ok []

def deriveDefinedFact (domain : SafetyConditionDomainIndex) :
    SchemaFact → Except Diagnostic (List SafetyCondition)
  | .annotated annotated =>
      if annotationSubjectIsUninhabited domain annotated.id.subject
          annotated.id.kind then
        .ok []
      else
        deriveAnnotationTransition compareSameDomain source target semantic
          none (some annotated) annotated.id
  | .sub id =>
      -- A subtype that the source does not declare has no instances.
      if domain.sourceDeclaresType id.subtype then
        .ok [.unresolvable .subtypeTransitionRequiresBackfill .backfill]
      else .ok []
  | .relates fact =>
      if fact.specializes.isSome then
        .ok [.unresolvable .roleSpecializationRequiresBackfill .backfill]
      else .ok []
  | _ => .ok []

def deriveRedefinition : SchemaFact → SchemaFact → Except Diagnostic (List SafetyCondition)
  | .annotated old, .annotated new =>
      deriveAnnotationTransition compareSameDomain source target semantic
        (some old) (some new) new.id
  | .value old, .value new =>
      if old.valueType ≠ new.valueType then
        .ok [.unresolvable .valueTypeConversionRequiresBackfill .backfill]
      else .ok []
  | .sub _, .sub _ => .ok [.unresolvable .subtypeTransitionRequiresBackfill .backfill]
  | .relates _, .relates _ => .ok [.unresolvable .roleSpecializationRequiresBackfill .backfill]
  | _, _ => .ok []

def deriveUndefinedFact : SchemaFact → Except Diagnostic (List SafetyCondition)
  | .type fact => .ok [.noInstances fact.id true]
  | .annotated annotated =>
      deriveAnnotationTransition compareSameDomain source target semantic
        (some annotated) none annotated.id
  | .relates fact =>
      if fact.specializes.isSome then
        .ok [.unresolvable .roleSpecializationRequiresBackfill .backfill]
      else .ok []
  | _ => .ok []

def deriveOperationConditions (domain : SafetyConditionDomainIndex) :
    SchemaOperation → Except Diagnostic (List SafetyCondition)
  | .define group =>
      (group.facts.mapM (deriveDefinedFact compareSameDomain source target semantic
          domain)).map List.flatten
  | .redefine replacement =>
      deriveRedefinition compareSameDomain source target semantic
        replacement.expected replacement.replacement
  | .undefine fact => deriveUndefinedFact compareSameDomain source target semantic fact

end Narrowing

/-! ## Condition-free operations -/

/-- What one defined fact says about a condition-free proof. -/
inductive ConditionFreeEvidence where
  | refuted | proven | neutral
  deriving DecidableEq, Repr

def conditionFreeEvidence (domain : SafetyConditionDomainIndex) : SchemaFact → ConditionFreeEvidence
  | .sub id => if domain.sourceDeclaresType id.subtype then .refuted else .proven
  | .relates fact => if fact.specializes.isSome then .refuted else .neutral
  | .annotated annotated =>
      if annotationSubjectIsUninhabited domain annotated.id.subject
          annotated.id.kind then
        .proven
      else .refuted
  | .struct _ => .refuted
  | _ => .neutral

/-- No fact of the group refutes the proof, and some fact needs it. -/
def isProvenConditionFreeDefine (domain : SafetyConditionDomainIndex) (facts : List SchemaFact) :
    Bool :=
  let evidence := facts.map (conditionFreeEvidence domain)
  (ConditionFreeEvidence.refuted ∉ evidence) && (ConditionFreeEvidence.proven ∈ evidence)

/-- The operation provably meets no data that it could invalidate. -/
def isProvenConditionFreeConstraintTransition
    (compareSameDomain : CanonicalValue → CanonicalValue → Option Ordering)
    (domain : SafetyConditionDomainIndex) : SchemaOperation → Except Diagnostic Bool
  | .define group => .ok (isProvenConditionFreeDefine domain group.facts)
  | .undefine _ => .ok false
  | .redefine replacement =>
      match replacement.expected, replacement.replacement with
      | .annotated old, .annotated new =>
          match new.id.kind with
          | .range => do
              let oldRange ← rangePayload old
              let newRange ← rangePayload new
              let narrows ← rangeNarrowing compareSameDomain (some oldRange) newRange
              return !narrows.1 && !narrows.2
          | .values => do
              let oldMembers ← valuesPayload old
              let newMembers ← valuesPayload new
              let narrows ← valuesNarrow (some oldMembers) newMembers
              return !narrows
          | _ => .ok false
      | _, _ => .ok false

/-- The operation has no condition and provably needs none. -/
def isConditionFree (compareSameDomain : CanonicalValue → CanonicalValue → Option Ordering)
    (domain : SafetyConditionDomainIndex) (operation : SchemaOperation)
    (conditions : List SafetyCondition) : Except Diagnostic Bool :=
  if conditions = [] then
    isProvenConditionFreeConstraintTransition compareSameDomain domain
      operation
  else .ok false

/-! ## Derivation -/

def validateExactTransition (source target : Inventory) : SchemaOperation → Except Diagnostic Unit
  | .define group =>
      (group.facts.mapM fun fact =>
        if (source[fact.id]?).isSome then
          (.error ⟨"safety_condition_source_define_conflict"⟩ : Except Diagnostic Unit)
        else if target[fact.id]? ≠ some fact then .error ⟨"safety_condition_target_define_mismatch"⟩
        else .ok ()).map fun _ => ()
  | .redefine replacement =>
      if source[replacement.expected.id]? ≠ some replacement.expected then
        .error ⟨"safety_condition_source_redefine_mismatch"⟩
      else if target[replacement.expected.id]? ≠
          some replacement.replacement then
        .error ⟨"safety_condition_target_redefine_mismatch"⟩
      else .ok ()
  | .undefine fact =>
      if source[fact.id]? ≠ some fact then .error ⟨"safety_condition_source_undefine_mismatch"⟩
      else if (target[fact.id]?).isSome then .error ⟨"safety_condition_target_undefine_conflict"⟩
      else .ok ()

def requiredCondition (operationIndex : Nat) (policy : SafetyClass) (condition : SafetyCondition) :
    RequiredSafetyCondition OperationCondition where
  condition := ⟨operationIndex, condition⟩
  isResolvable := condition.isResolvable
  policy := policy

/-- Conditions that leave no conditional operation unguarded. -/
def completeConditions (policy : SafetyClass) (conditionFree : Bool)
    (conditions : List SafetyCondition) : List SafetyCondition :=
  if policy = .conditional ∧ conditions = [] ∧ conditionFree = false then
    [.unresolvable .conditionalTransitionRequiresBackfill .backfill]
  else conditions

variable {Bytes Digest : Type} {codec : Codec Bytes Digest}

/-- Derive the conditions of one operation of a delta. -/
def deriveSafetyConditions (compareSameDomain : CanonicalValue → CanonicalValue → Option Ordering)
    (operationIndex : Nat) (operation : SchemaOperation) (source target : DeclaredSchema codec)
    (profileId : SemanticProfileId) :
    Except Diagnostic (DerivedSafetyConditions OperationCondition) := do
  let domain := SafetyConditionDomainIndex.new source.facts target.facts
  let policy := classifySchemaOperationSafety operation
  Checked.ensure (operationIndex < 2 ^ 32) ⟨"safety_condition_operation_index_limit"⟩
  validateExactTransition source.facts target.facts operation
  let semantic ← SemanticProfile.resolve profileId
  let conditions ←
    deriveOperationConditions compareSameDomain source.facts target.facts
      semantic domain operation
  let conditionFree ← isConditionFree compareSameDomain domain operation conditions
  return {
    policy := policy
    conditions :=
      (completeConditions policy conditionFree conditions).map
        (requiredCondition operationIndex policy)
    isConditionFree := conditionFree
  }

end TypeBridge.Migration
