import TypeBridge.Migration.Manifest

namespace TypeBridge.Migration

open Schema

/-!
# Safety classification of operations

Every schema operation has one of eight safety classes. The class is read off
the changed fact alone: neither the resolved schema nor any data is consulted.
A replacement that changes nothing the classifier knows is malformed, and a
malformed operation counts as unsupported.
-/

/-- How a fact other than an annotation changes. -/
inductive FactTransition where
  | define | undefine | redefine
  deriving DecidableEq, Repr

inductive AnnotationTransition where
  | add | change | remove
  deriving DecidableEq, Repr

inductive SafetyClassificationError where
  | unchangedRelatesSpecialization | redefinitionCategoryChanged
  deriving DecidableEq, Repr

def classifyFact : SchemaFact → FactTransition → SafetyClass
  | .type _, .define => .additive
  | .type _, .undefine => .destructive
  | .type _, .redefine => .unsupported
  | .sub _, .define => .conditional
  | .sub _, .redefine => .conditional
  | .sub _, .undefine => .destructive
  | .value _, .define => .additive
  | .value _, .undefine => .destructive
  | .value _, .redefine => .destructive
  | .owns _, .define | .relates _, .define | .plays _, .define => .additive
  | .owns _, .undefine | .relates _, .undefine | .plays _, .undefine => .destructive
  | .owns _, .redefine | .relates _, .redefine | .plays _, .redefine => .unsupported
  | .function _, .define => .additive
  | .function _, .undefine => .destructive
  | .function _, .redefine => .unclassified
  | .struct _, _ => .unsupported
  -- Annotations have a classifier of their own and never come here.
  | .annotated _, _ => .unsupported

def annotationSupported : AnnotationSubjectId → AnnotationKindId → Bool
  | .type _, .abstract | .type _, .independent => true
  | .value _, .regex | .value _, .range | .value _, .values => true
  | .owns _, .key | .owns _, .unique | .owns _, .distinct => true
  | .owns _, .card | .owns _, .regex | .owns _, .range => true
  | .owns _, .values => true
  | .relates _, .abstract | .relates _, .distinct | .relates _, .card => true
  | .plays _, .card => true
  | .function _, _ => false
  | _, .doc => true
  | _, .metadata _ => true
  | _, _ => false

def defaultCardinality : AnnotationSubjectId → Option Cardinality
  | .owns _ => some ⟨0, some 1⟩
  | .relates _ => some ⟨0, some 1⟩
  | .plays _ => some ⟨0, none⟩
  | _ => none

def intervalContains (outer inner : Cardinality) : Bool :=
  outer.min ≤ inner.min &&
    match outer.max, inner.max with
    | none, _ => true
    | some _, none => false
    | some outerMax, some innerMax => innerMax ≤ outerMax

def cardinalityTransitionSafety (fromCard toCard : Cardinality) : SafetyClass :=
  if fromCard = toCard then .formalOnly
  else if intervalContains toCard fromCard then .additive
  else if intervalContains fromCard toCard then .backfillRequired
  else .conditional

/-- The annotation only documents its subject. -/
def isMetadataKind : AnnotationKindId → Bool
  | .doc => true
  | .metadata _ => true
  | _ => false

def annotationKindSafety : AnnotationKindId → AnnotationTransition → SafetyClass
  | .abstract, .add => .conditional
  | .abstract, .remove => .additive
  | .abstract, .change => .unsupported
  | .independent, .add => .additive
  | .independent, .remove => .destructive
  | .independent, .change => .unsupported
  | .key, .add | .unique, .add => .backfillRequired
  | .key, .remove | .unique, .remove => .additive
  | .key, .change | .unique, .change => .unsupported
  | .distinct, _ => .unsupported
  | .card, _ => .conditional
  | .regex, .remove | .range, .remove | .values, .remove => .additive
  | .regex, _ | .range, _ | .values, _ => .conditional
  | .doc, _ | .metadata _, _ => .schemaMetadata

/-- The class of a changed annotation; a change names the old one. -/
def classifyAnnotation (annotated : AnnotationFact) (transition : AnnotationTransition)
    (expected : Option AnnotationFact) : SafetyClass :=
  let subject := annotated.id.subject
  let kind := annotated.id.kind
  if annotationSupported subject kind = false then .unsupported
  else if isMetadataKind kind then
    -- Subtype edges carry no other annotation.
    .schemaMetadata
  else
    match kind, cardinalityValue annotated.value, defaultCardinality subject with
    | .card, some target, some default =>
        match transition with
        | .add => cardinalityTransitionSafety default target
        | .remove => cardinalityTransitionSafety target default
        | .change =>
            match expected.bind fun old => cardinalityValue old.value with
            | some source => cardinalityTransitionSafety source target
            | none => annotationKindSafety kind transition
    | _, _, _ => annotationKindSafety kind transition

def definedFunctions (facts : List SchemaFact) : List FunctionId :=
  facts.filterMap fun
    | .function fact => some fact.id
    | _ => none

def classifyDefinedFact (functions : List FunctionId) : SchemaFact → SafetyClass
  | .relates fact =>
      if fact.specializes.isSome then .conditional
      else classifyFact (.relates fact) .define
  | .annotated annotated =>
      match annotated.id.subject with
      | .function function =>
          if function ∈ functions ∧ isMetadataKind annotated.id.kind then .schemaMetadata
          else classifyAnnotation annotated .add none
      | _ => classifyAnnotation annotated .add none
  | fact => classifyFact fact .define

def classifyUndefinedFact : SchemaFact → SafetyClass
  | .annotated annotated => classifyAnnotation annotated .remove none
  | .relates fact =>
      if fact.specializes.isSome then .conditional
      else classifyFact (.relates fact) .undefine
  | fact => classifyFact fact .undefine

def classifyRedefinition : SchemaFact → SchemaFact → Except SafetyClassificationError SafetyClass
  | .relates old, .relates new =>
      if old.collectionMode ≠ new.collectionMode then .ok .unsupported
      else if old.specializes ≠ new.specializes then .ok .conditional
      else .error .unchangedRelatesSpecialization
  | .annotated old, .annotated new => .ok <| classifyAnnotation new .change (some old)
  | .type _, .type new => .ok (classifyFact (.type new) .redefine)
  | .sub _, .sub new => .ok (classifyFact (.sub new) .redefine)
  | .value _, .value new => .ok (classifyFact (.value new) .redefine)
  | .owns _, .owns new => .ok (classifyFact (.owns new) .redefine)
  | .plays _, .plays new => .ok (classifyFact (.plays new) .redefine)
  | .function _, .function new => .ok (classifyFact (.function new) .redefine)
  | .struct _, .struct new => .ok (classifyFact (.struct new) .redefine)
  | _, _ => .error .redefinitionCategoryChanged

def classifyOperationSafety : SchemaOperation → Except SafetyClassificationError SafetyClass
  | .define group =>
      .ok ((group.facts.map (classifyDefinedFact (definedFunctions group.facts))).foldl
          SafetyClass.max .formalOnly)
  | .redefine replacement => classifyRedefinition replacement.expected replacement.replacement
  | .undefine fact => .ok (classifyUndefinedFact fact)

def classifySchemaOperationSafety (operation : SchemaOperation) : SafetyClass :=
  match classifyOperationSafety operation with
  | .ok safety => safety
  | .error _ => .unsupported

/-! ## Deltas -/

structure DeltaSafetyReason where
  operationIndex : Nat
  factId : SchemaFactId
  classification : SafetyClass
  deriving DecidableEq

structure DeltaSafetyReport where
  classification : SafetyClass
  reasons : List DeltaSafetyReason
  deriving DecidableEq

/-- Classify every operation of a delta, with one reason for each fact. -/
def classifyDeltaSafety {Digest : Type} [DecidableEq Digest] (delta : SchemaDelta Digest) :
    DeltaSafetyReport :=
  let reasons :=
    delta.operations.zipIdx.flatMap fun indexed =>
      indexed.1.affectedIds.map fun factId => {
        operationIndex := indexed.2
        factId := factId
        classification := classifySchemaOperationSafety indexed.1
      }
  {
    classification := (reasons.map (·.classification)).foldl SafetyClass.max .formalOnly
    reasons := reasons
  }

/-- The class asks for no condition, no backfill and no approval. -/
def SafetyClass.AtMostAdditive (safety : SafetyClass) : Prop :=
  safety = .formalOnly ∨ safety = .schemaMetadata ∨ safety = .additive

instance : DecidablePred SafetyClass.AtMostAdditive :=
  fun _ => inferInstanceAs (Decidable (_ ∨ _ ∨ _))

theorem exists_reason {Digest : Type} [DecidableEq Digest] {delta : SchemaDelta Digest}
    {operation : SchemaOperation} (listed : operation ∈ delta.operations)
    (affects : operation.affectedIds ≠ []) : ∃ reason ∈ (classifyDeltaSafety delta).reasons,
      reason.classification = classifySchemaOperationSafety operation := by
  obtain ⟨index, bound, isOperation⟩ := List.mem_iff_getElem.mp listed
  obtain ⟨factId, isAffected⟩ := List.exists_mem_of_ne_nil _ affects
  refine ⟨⟨index, factId, classifySchemaOperationSafety operation⟩, ?_, rfl⟩
  refine List.mem_flatMap.mpr ⟨(operation, index), ?_, ?_⟩
  · rw [List.mem_zipIdx_iff_getElem?, ← isOperation]
    exact List.getElem?_eq_getElem bound
  · exact List.mem_map.mpr ⟨factId, isAffected, rfl⟩

end TypeBridge.Migration
