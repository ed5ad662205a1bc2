import TypeBridge.Migration.ApplyPlan
import TypeBridge.Migration.SafetyCondition

namespace TypeBridge.Migration

open Library Schema
open Library.Checked hiding get

/-!
# Lowering of deltas to statement units

Lowering turns each operation of a delta into one unit of statements. It
classifies the operation again, with the transition registry of the provider,
and admits it only if its class needs nothing more, was resolved by the
verifier, or is destructive and approved.

The registry differs from the schema's own classification on two operations:
the removal of a specializing role and a role replacement that changes the
collection mode.
-/

/-! ## The transition registry -/

/-- The provider operation that lowers a transition. -/
inductive LoweringMechanism where
  | define | undefine | redefine | atomicUndefineDefine | unsupported
  deriving DecidableEq, Repr

structure TransitionRule where
  mechanism : LoweringMechanism
  safety : SafetyClass
  requiredCapabilities : CapabilitySet

/-- A transition without a lowering. -/
def unsupportedRule : TransitionRule := ⟨.unsupported, .unsupported, ∅⟩

def defineRule (safety : SafetyClass) : TransitionRule :=
  ⟨.define, safety, {⟨"schema.transition.define"⟩}⟩

/-- A transition lowered to a removal. -/
def undefineRule (safety : SafetyClass) : TransitionRule :=
  ⟨.undefine, safety, {⟨"schema.transition.undefine"⟩}⟩

def redefineRule (safety : SafetyClass) (capability : String) : TransitionRule :=
  ⟨.redefine, safety, {⟨capability⟩}⟩

/-- The fact categories of the registry. -/
inductive FactKind where
  | type | sub | value | owns | relates | relatesSpecialization | plays | function | struct
  deriving DecidableEq, Repr

def factTransitionRule : FactKind → FactTransition → TransitionRule
  | .type, .define => defineRule .additive
  | .type, .undefine => undefineRule .destructive
  | .type, .redefine => unsupportedRule
  | .sub, .define => defineRule .conditional
  | .sub, .undefine => undefineRule .destructive
  | .sub, .redefine => redefineRule .conditional "schema.transition.redefine.sub"
  | .value, .define => defineRule .additive
  | .value, .undefine => undefineRule .destructive
  | .value, .redefine => redefineRule .destructive "schema.transition.redefine.value"
  | .owns, .define | .relates, .define | .plays, .define => defineRule .additive
  | .owns, .undefine | .relates, .undefine | .plays, .undefine => undefineRule .destructive
  | .owns, .redefine | .relates, .redefine | .plays, .redefine => unsupportedRule
  | .relatesSpecialization, .define => defineRule .conditional
  | .relatesSpecialization, .undefine => undefineRule .conditional
  | .relatesSpecialization, .redefine =>
      redefineRule .conditional
        "schema.transition.redefine.relates.specialization"
  | .function, .define => defineRule .additive
  | .function, .undefine => undefineRule .destructive
  | .function, .redefine => redefineRule .unclassified "schema.transition.redefine.function"
  | .struct, _ => unsupportedRule

def factKind : SchemaFact → FactKind
  | .type _ => .type
  | .sub _ => .sub
  | .value _ => .value
  | .owns _ => .owns
  | .relates _ => .relates
  | .plays _ => .plays
  | .function _ => .function
  | .struct _ => .struct
  -- Annotations have a registry of their own and never come here.
  | .annotated _ => .struct

/-- The subject is a subtype edge. -/
def isSubSubject : AnnotationSubjectId → Bool
  | .sub _ => true
  | _ => false

def annotationTransitionRule (subject : AnnotationSubjectId) (kind : AnnotationKindId)
    (transition : AnnotationTransition) : TransitionRule :=
  if annotationSupported subject kind = false ∨ kind = .distinct then unsupportedRule
  else if isSubSubject subject then
    match transition with
    | .add => defineRule .schemaMetadata
    | .change =>
        ⟨.atomicUndefineDefine, .schemaMetadata,
          {⟨"schema.transaction.atomic"⟩, ⟨"schema.transition.undefine"⟩,
            ⟨"schema.transition.define"⟩,
            ⟨"schema.transition.replace.sub.annotation"⟩}⟩
    | .remove => undefineRule .schemaMetadata
  else if annotationKindSafety kind transition = .unsupported then unsupportedRule
  else
    match transition with
    | .add => defineRule (annotationKindSafety kind transition)
    | .change =>
        redefineRule (annotationKindSafety kind transition)
          "schema.transition.redefine.annotation"
    | .remove => undefineRule (annotationKindSafety kind transition)

/-- The rule of a changed annotation; cardinalities are compared. -/
def annotationRule (annotated : AnnotationFact) (transition : AnnotationTransition)
    (expected : Option AnnotationFact) : TransitionRule :=
  let rule := annotationTransitionRule annotated.id.subject annotated.id.kind transition
  match annotated.id.kind, cardinalityValue annotated.value,
      defaultCardinality annotated.id.subject with
  | .card, some target, some default =>
      match transition with
      | .add => { rule with safety := cardinalityTransitionSafety default target }
      | .remove => { rule with safety := cardinalityTransitionSafety target default }
      | .change =>
          match expected.bind fun old => cardinalityValue old.value with
          | some source =>
              { rule with
                safety := cardinalityTransitionSafety source target }
          | none => rule
  | _, _, _ => rule

def definedFactRule (functions : List FunctionId) : SchemaFact → TransitionRule
  | .relates fact =>
      if fact.specializes.isSome then factTransitionRule .relatesSpecialization .define
      else factTransitionRule .relates .define
  | .annotated annotated =>
      match annotated.id.subject with
      | .function function =>
          if function ∈ functions ∧ isMetadataKind annotated.id.kind then defineRule .schemaMetadata
          else annotationRule annotated .add none
      | _ => annotationRule annotated .add none
  | fact => factTransitionRule (factKind fact) .define

def undefinedFactRule : SchemaFact → TransitionRule
  | .annotated annotated => annotationRule annotated .remove none
  | fact => factTransitionRule (factKind fact) .undefine

def redefinitionRule : SchemaFact → SchemaFact → Except SafetyClassificationError TransitionRule
  | .relates old, .relates new =>
      match old.specializes, new.specializes with
      | none, some _ => .ok (factTransitionRule .relatesSpecialization .define)
      | some _, none => .ok (factTransitionRule .relatesSpecialization .undefine)
      | some _, some _ => .ok (factTransitionRule .relatesSpecialization .redefine)
      | none, none => .error .unchangedRelatesSpecialization
  | .annotated old, .annotated new => .ok (annotationRule new .change (some old))
  | .type _, .type _ => .ok (factTransitionRule .type .redefine)
  | .sub _, .sub _ => .ok (factTransitionRule .sub .redefine)
  | .value _, .value _ => .ok (factTransitionRule .value .redefine)
  | .owns _, .owns _ => .ok (factTransitionRule .owns .redefine)
  | .plays _, .plays _ => .ok (factTransitionRule .plays .redefine)
  | .function _, .function _ => .ok (factTransitionRule .function .redefine)
  | .struct _, .struct _ => .ok (factTransitionRule .struct .redefine)
  | _, _ => .error .redefinitionCategoryChanged

def operationRules : SchemaOperation → Except SafetyClassificationError (List TransitionRule)
  | .define group => .ok (group.facts.map (definedFactRule (definedFunctions group.facts)))
  | .redefine replacement =>
      (redefinitionRule replacement.expected replacement.replacement).map
        fun rule => [rule]
  | .undefine fact => .ok [undefinedFactRule fact]

structure OperationTransitionClassification where
  safety : SafetyClass
  atomic : Bool
  requiredCapabilities : CapabilitySet

def classifyOperationTransition (operation : SchemaOperation) :
    Except SafetyClassificationError OperationTransitionClassification :=
  (operationRules operation).map fun rules =>
    { safety := (rules.map (·.safety)).foldl SafetyClass.max .formalOnly
      atomic := rules.any (·.mechanism = .atomicUndefineDefine)
      requiredCapabilities := (rules.map (·.requiredCapabilities)).foldl (· ∪ ·) ∅ }

/-! ## The gate -/

def gateSafety (safety : SafetyClass) (verifierResolved destructiveApproved : Bool) :
    Except Diagnostic Unit :=
  if verifierResolved ∧ safety ≠ .conditional ∧ safety ≠ .backfillRequired then
    .error ⟨"schema_lowering_invalid_transition"⟩
  else
    match safety with
    | .formalOnly | .schemaMetadata | .additive => .ok ()
    | .conditional =>
        if verifierResolved then .ok ()
        else .error ⟨"schema_lowering_requires_assertion"⟩
    | .backfillRequired =>
        if verifierResolved then .ok ()
        else .error ⟨"schema_lowering_requires_backfill"⟩
    | .destructive =>
        if destructiveApproved then .ok ()
        else .error ⟨"schema_lowering_destructive"⟩
    | .unclassified => .error ⟨"schema_lowering_opaque"⟩
    | .unsupported => .error ⟨"schema_lowering_unsupported"⟩

/-- What the gate asks of an operation it admits. -/
def Admits (safety : SafetyClass) (resolved approved : Prop) : Prop :=
  match safety with
  | .formalOnly | .schemaMetadata | .additive => True
  | .conditional | .backfillRequired => resolved
  | .destructive => approved
  | .unclassified | .unsupported => False

theorem admits_of_gateSafety {safety : SafetyClass} {verifierResolved destructiveApproved : Bool}
    (admitted : gateSafety safety verifierResolved destructiveApproved = .ok ()) :
    Admits safety (verifierResolved = true) (destructiveApproved = true) := by
  unfold gateSafety at admitted
  obtain ⟨-, admitted⟩ := guard_eq_ok.mp admitted
  cases safety with
  | formalOnly => trivial
  | schemaMetadata => trivial
  | additive => trivial
  | conditional | backfillRequired | destructive => exact (require_eq_ok.mp admitted).1
  | unclassified => cases admitted
  | unsupported => cases admitted

/-! ## Units -/

inductive StatementOperationKind where
  | define | redefine | undefine
  deriving DecidableEq, Repr

def operationKind : SchemaOperation → StatementOperationKind
  | .define _ => .define
  | .redefine _ => .redefine
  | .undefine _ => .undefine

structure StatementUnit (Statement : Type) where
  operationIndex : Nat
  operationKind : StatementOperationKind
  safety : SafetyClass
  atomic : Bool
  affectedIds : List SchemaFactId
  requiredCapabilities : CapabilitySet
  statements : List Statement

structure SchemaLoweringPlan (Digest Statement : Type) [DecidableEq Digest] where
  delta : SchemaDelta Digest
  profile : MigrationProfile
  units : List (StatementUnit Statement)

abbrev RenderOperation (Statement : Type) :=
  SchemaOperation → Inventory → Inventory → Except Diagnostic (List Statement)

section Lower

variable {Digest Statement : Type} [DecidableEq Digest]

def lowerOperation (render : RenderOperation Statement) (sourceFacts targetFacts : Inventory)
    (binding : SchemaLoweringBinding) (discharged : List Nat) (destructiveApproved : Bool)
    (entry : SchemaOperation × Nat) :
    Except Diagnostic (StatementUnit Statement) := do
  let classification ← (classifyOperationTransition entry.1).mapError fun _ =>
      (⟨"schema_lowering_invalid_transition"⟩ : Diagnostic)
  Checked.ensure (classification.requiredCapabilities ⊆ binding.availableCapabilities)
    ⟨"schema_lowering_capability_mismatch"⟩
  gateSafety classification.safety (entry.2 ∈ discharged) destructiveApproved
  let statements ← render entry.1 sourceFacts targetFacts
  return {
    operationIndex := entry.2
    operationKind := operationKind entry.1
    safety := classification.safety
    atomic := classification.atomic
    affectedIds := entry.1.affectedIds
    requiredCapabilities := classification.requiredCapabilities
    statements := statements
  }

/-- The attributes whose type a delta removes. -/
def deletedAttributes (operations : List SchemaOperation) : List Label :=
  operations.filterMap fun
    | .undefine (.type fact) => if fact.id.kind = .attribute then some fact.id.label else none
    | _ => none

/-- A removed attribute takes its value domain along. -/
def dropCascaded (deleted : List Label) (operation : SchemaOperation)
    (unit : StatementUnit Statement) : StatementUnit Statement :=
  match operation with
  | .undefine (.value fact) =>
      if fact.id.attributeId.label ∈ deleted then { unit with statements := [] }
      else unit
  | _ => unit

def canonicalIndices (discharged : List Nat) (operations : Nat) : Bool :=
  discharged.Pairwise (· < ·) ∧ ∀ last ∈ discharged.getLast?, last < operations

/-- Lower a delta whose discharged operations the verifier resolved. -/
def lowerSchemaDelta (render : RenderOperation Statement) (delta : SchemaDelta Digest)
    (sourceFacts targetFacts : Inventory) (binding : SchemaLoweringBinding) (discharged : List Nat)
    (destructiveApproved : Bool) :
    Except Diagnostic (SchemaLoweringPlan Digest Statement) := do
  Checked.ensure (sourceFacts.keys.toFinset = delta.source.selection ∧
      targetFacts.keys.toFinset = delta.target.selection)
    ⟨"schema_lowering_fact_context_mismatch"⟩
  Checked.ensure (canonicalIndices discharged delta.operations.length)
    ⟨"schema_lowering_fact_context_mismatch"⟩
  let deleted := deletedAttributes delta.operations
  let units ←
    delta.operations.zipIdx.mapM fun entry =>
      (lowerOperation render sourceFacts targetFacts binding discharged
        destructiveApproved entry).map (dropCascaded deleted entry.1)
  return ⟨delta, binding.profile, units⟩

theorem dropCascaded_eq (deleted : List Label) (operation : SchemaOperation)
    (unit : StatementUnit Statement) : ∃ statements,
      dropCascaded deleted operation unit = { unit with statements := statements } := by
  unfold dropCascaded
  split
  · split
    · exact ⟨[], rfl⟩
    · exact ⟨unit.statements, rfl⟩
  · exact ⟨unit.statements, rfl⟩

variable {render : RenderOperation Statement} {delta : SchemaDelta Digest}
  {sourceFacts targetFacts : Inventory} {binding : SchemaLoweringBinding} {discharged : List Nat}
  {destructiveApproved : Bool} {plan : SchemaLoweringPlan Digest Statement}

variable (lowered : lowerSchemaDelta render delta sourceFacts targetFacts binding discharged
  destructiveApproved = .ok plan)
include lowered

theorem delta_of_lowerSchemaDelta : plan.delta = delta := by
  obtain ⟨_, -, lowered⟩ := bind_eq_ok.mp lowered
  obtain ⟨_, -, lowered⟩ := bind_eq_ok.mp lowered
  obtain ⟨units, -, lowered⟩ := bind_eq_ok.mp lowered
  cases lowered
  rfl

theorem mem_units_of_lowerSchemaDelta {unit : StatementUnit Statement} (member : unit ∈ plan.units) :
    ∃ operation classification, delta.operations[unit.operationIndex]? = some operation ∧
        classifyOperationTransition operation = .ok classification ∧
        unit.safety = classification.safety ∧ Admits unit.safety (unit.operationIndex ∈ discharged)
          (destructiveApproved = true) := by
  unfold lowerSchemaDelta at lowered
  obtain ⟨_, -, lowered⟩ := bind_eq_ok.mp lowered
  obtain ⟨_, -, lowered⟩ := bind_eq_ok.mp lowered
  obtain ⟨units, mapped, lowered⟩ := bind_eq_ok.mp lowered
  cases lowered
  obtain ⟨entry, entryMember, lowered⟩ := (mem_of_mapM_eq_ok mapped).mp member
  obtain ⟨plain, lowered, cascaded⟩ := map_eq_ok.mp lowered
  obtain ⟨statements, same⟩ := dropCascaded_eq (deletedAttributes delta.operations) entry.1 plain
  rw [same] at cascaded
  obtain ⟨classification, classified, lowered⟩ := bind_eq_ok.mp lowered
  obtain ⟨_, -, lowered⟩ := bind_eq_ok.mp lowered
  obtain ⟨_, admitted, lowered⟩ := bind_eq_ok.mp lowered
  obtain ⟨_, -, lowered⟩ := bind_eq_ok.mp lowered
  cases lowered
  subst cascaded
  refine ⟨entry.1, classification, List.mem_zipIdx_iff_getElem?.mp entryMember,
    mapError_eq_ok.mp classified, rfl, ?_⟩
  have admits := admits_of_gateSafety admitted
  simpa using admits

end Lower

end TypeBridge.Migration
