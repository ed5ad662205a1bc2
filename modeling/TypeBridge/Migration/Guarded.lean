import TypeBridge.Migration.PlanningRun

namespace TypeBridge.Migration

open Library Schema
open Library.Checked hiding get

/-!
# Guarded statements

Four layers share the responsibility for dangerous statements: classification,
assertion coverage, the policy and approval gate of a plan, and the lowering
gate of an operation. This module composes them: what holds of each statement
unit of an execution-authorized plan, forward or backward.

The lowering gate uses the registry of the provider. On every operation that
coverage lets through, the registry agrees with the schema's classification.
-/

/-! ## The registry agrees with the classification -/

theorem SafetyClass.formalOnly_max (safety : SafetyClass) :
    SafetyClass.max .formalOnly safety = safety := by
  cases safety <;> rfl

theorem annotationTransitionRule_safety (subject : AnnotationSubjectId) (kind : AnnotationKindId)
    (transition : AnnotationTransition) :
    (annotationTransitionRule subject kind transition).safety =
      if annotationSupported subject kind = false then .unsupported
      else annotationKindSafety kind transition := by
  unfold annotationTransitionRule
  by_cases supported : annotationSupported subject kind = false
  · simp [supported, unsupportedRule]
  · by_cases isDistinct : kind = .distinct
    · subst isDistinct
      simp [annotationKindSafety, unsupportedRule]
    · rw [if_neg (by simp [supported, isDistinct]), if_neg supported]
      by_cases isSub : isSubSubject subject = true
      · -- Subtype edges are only documented.
        rw [if_pos isSub]
        cases subject with
        | sub id =>
          cases kind with
          | doc | metadata label => cases transition <;> rfl
          | _ => exact (supported rfl).elim
        | _ => cases isSub
      · rw [if_neg isSub]
        by_cases unsupported : annotationKindSafety kind transition = .unsupported
        · rw [if_pos unsupported, unsupported]
          rfl
        · rw [if_neg unsupported]
          cases transition with
          | add => rfl
          | change => rfl
          | remove => rfl

theorem annotationSupported_card {subject : AnnotationSubjectId} {default : Cardinality}
    (hasDefault : defaultCardinality subject = some default) :
    annotationSupported subject .card = true := by
  cases subject with
  | owns id => rfl
  | relates id => rfl
  | plays id => rfl
  | _ => cases hasDefault

theorem annotationRule_safety (annotated : AnnotationFact) (transition : AnnotationTransition)
    (expected : Option AnnotationFact) : (annotationRule annotated transition expected).safety =
      classifyAnnotation annotated transition expected := by
  have registered :=
    annotationTransitionRule_safety annotated.id.subject annotated.id.kind transition
  unfold annotationRule classifyAnnotation
  dsimp only
  cases kind : annotated.id.kind with
  | card =>
    rw [kind] at registered
    cases hasTarget : cardinalityValue annotated.value with
    | none => exact registered
    | some target =>
      cases hasDefault : defaultCardinality annotated.id.subject with
      | none => exact registered
      | some default =>
        -- Where there is a default, both sides compare cardinalities.
        have supported := annotationSupported_card hasDefault
        simp only [supported, isMetadataKind, Bool.true_eq_false, Bool.false_eq_true, ↓reduceIte]
        cases transition with
        | add => rfl
        | remove => rfl
        | change =>
          cases source : expected.bind fun old => cardinalityValue old.value with
          | some old => rfl
          | none =>
            rw [supported] at registered
            exact registered
  | _ =>
    rw [kind] at registered
    exact registered

theorem definedFactRule_safety (functions : List FunctionId) (fact : SchemaFact) :
    (definedFactRule functions fact).safety = classifyDefinedFact functions fact := by
  cases fact with
  | relates fact =>
    by_cases specializes : fact.specializes.isSome = true
    · simp [definedFactRule, classifyDefinedFact, specializes, factTransitionRule, defineRule]
    · simp [definedFactRule, classifyDefinedFact, specializes,
        factTransitionRule, defineRule, classifyFact]
  | annotated annotated =>
    have registered := annotationRule_safety annotated .add none
    simp only [definedFactRule, classifyDefinedFact]
    cases subject : annotated.id.subject with
    | function function =>
      by_cases documents : function ∈ functions ∧ isMetadataKind annotated.id.kind = true
      · simp only [documents, and_self, ↓reduceIte]
        rfl
      · simp only [documents, ↓reduceIte]
        exact registered
    | _ => exact registered
  | _ => rfl

theorem undefinedFactRule_safety (fact : SchemaFact)
    (plain : ∀ role, fact = .relates role → role.specializes = none) :
    (undefinedFactRule fact).safety = classifyUndefinedFact fact := by
  cases fact with
  | relates role =>
    simp [undefinedFactRule, classifyUndefinedFact, plain role rfl,
      factKind, factTransitionRule, undefineRule, classifyFact]
  | annotated annotated => exact annotationRule_safety annotated .remove none
  | _ => rfl

theorem redefinitionRule_safety {expected replacement : SchemaFact} {rule : TransitionRule}
    (sameMode : ∀ old new, expected = .relates old → replacement = .relates new →
        old.collectionMode = new.collectionMode ∧ old.specializes ≠ new.specializes)
    (registered : redefinitionRule expected replacement = .ok rule) :
    classifyRedefinition expected replacement = .ok rule.safety := by
  cases expected with
  | relates old =>
    cases replacement with
    | relates new =>
      obtain ⟨mode, specialization⟩ := sameMode old new rfl rfl
      simp only [classifyRedefinition, mode, ne_eq, not_true_eq_false,
        ↓reduceIte, specialization, not_false_eq_true]
      unfold redefinitionRule at registered
      cases oldRole : old.specializes with
      | none =>
        cases newRole : new.specializes with
        | none => exact (specialization (oldRole.trans newRole.symm)).elim
        | some role =>
          simp only [oldRole, newRole] at registered
          cases registered
          rfl
      | some role =>
        cases newRole : new.specializes with
        | none | some replaced =>
          simp only [oldRole, newRole] at registered
          cases registered
          rfl
    | _ => cases registered
  | annotated old =>
    cases replacement with
    | annotated new =>
      cases registered
      exact congrArg Except.ok (annotationRule_safety new .change (some old)).symm
    | _ => cases registered
  | _ =>
    cases replacement <;> cases registered
    rfl

def RegistryDiffers : SchemaOperation → Prop
  | .undefine (.relates role) => role.specializes ≠ none
  | .redefine replacement =>
      ∃ old new,
        replacement.expected = .relates old ∧ replacement.replacement = .relates new ∧
          old.collectionMode ≠ new.collectionMode
  | _ => False

theorem Replacement.specializes_ne {replacement : Replacement} {old new : RelatesFact}
    (expected : replacement.expected = .relates old)
    (replaced : replacement.replacement = .relates new)
    (mode : old.collectionMode = new.collectionMode) : old.specializes ≠ new.specializes := by
  intro specialization
  apply replacement.changed
  have identity := replacement.sameIdentity
  rw [expected, replaced] at identity ⊢
  simp only [SchemaFact.id, SchemaFactId.relates.injEq] at identity
  obtain ⟨oldId, oldRole, oldMode, _⟩ := old
  obtain ⟨newId, newRole, newMode, _⟩ := new
  cases identity
  cases specialization
  cases mode
  rfl

theorem classification_safety {operation : SchemaOperation}
    {classification : OperationTransitionClassification}
    (classified : classifyOperationTransition operation = .ok classification)
    (agrees : ¬ RegistryDiffers operation) :
    classification.safety = classifySchemaOperationSafety operation := by
  obtain ⟨rules, registered, same⟩ := map_eq_ok.mp classified
  subst same
  cases operation with
  | define group =>
    cases registered
    simp only [classifySchemaOperationSafety, classifyOperationSafety, List.map_map]
    congr 1
    apply List.map_congr_left
    intro fact _
    exact definedFactRule_safety _ fact
  | undefine fact =>
    cases registered
    have rule :=
      undefinedFactRule_safety fact (by
        intro role isRole
        subst isRole
        exact not_not.mp agrees)
    simp only [classifySchemaOperationSafety, classifyOperationSafety,
      List.map_singleton, List.foldl_cons, List.foldl_nil, rule, SafetyClass.formalOnly_max]
  | redefine replacement =>
    obtain ⟨rule, isRegistered, isRule⟩ := map_eq_ok.mp registered
    subst isRule
    have classifies :=
      redefinitionRule_safety (by
        intro old new expected replaced
        have mode : old.collectionMode = new.collectionMode := by
          by_contra different
          exact agrees ⟨old, new, expected, replaced, different⟩
        exact ⟨mode, Replacement.specializes_ne expected replaced mode⟩)
        isRegistered
    simp only [classifySchemaOperationSafety, classifyOperationSafety,
      classifies, List.map_singleton, List.foldl_cons, List.foldl_nil, SafetyClass.formalOnly_max]

/-! ## Guarded units -/

section Guarded

variable {Bytes Digest Body Statement PlanDigest : Type} {codec : Codec Bytes Digest}
  [DecidableEq Digest] [DecidableEq Body]
  {compareSameDomain : CanonicalValue → CanonicalValue → Option Ordering}
  {lower : RequiredSafetyCondition OperationCondition → DeclaredSchema codec →
    ManagedSchemaState Digest → Except Diagnostic (MigrationAssertionPlan Body)}
  {source target : DeclaredSchema codec} {profile : SemanticProfileId}
  {assertions : List (MigrationAssertionPlan Body)} {delta : SchemaDelta Digest}
  {coverage : VerifiedAssertionCoverage Body}

omit [DecidableEq Digest] [DecidableEq Body] in
theorem CoveredOperation.not_registryDiffers {discharged : List Nat}
    {expected : List (RequiredSafetyCondition OperationCondition)} {operationIndex : Nat}
    {operation : SchemaOperation} {derived : DerivedSafetyConditions OperationCondition}
    (derivation : deriveSafetyConditions compareSameDomain operationIndex operation source
        target profile = .ok derived)
    (covered : CoveredOperation discharged expected operationIndex operation derived) :
    ¬ RegistryDiffers operation := by
  intro differs
  cases operation with
  | define group => exact differs
  | undefine fact =>
    cases fact with
    | relates role =>
      -- A removed specialization has an unresolvable condition.
      have specializes : role.specializes.isSome = true := Option.isSome_iff_ne_none.mpr differs
      have conditional : classifySchemaOperationSafety (.undefine (.relates role)) =
            .conditional := by
        simp [classifySchemaOperationSafety, classifyOperationSafety,
          classifyUndefinedFact, specializes]
      obtain ⟨semantic, conditions, conditionFree, derivedConditions, -,
        same⟩ := deriveSafetyConditions_eq_ok derivation
      simp only [deriveOperationConditions, deriveUndefinedFact,
        specializes, ↓reduceIte, Except.ok.injEq] at derivedConditions
      subst derivedConditions
      have policy := covered.derivedFor.policy.trans conditional
      obtain ⟨resolvable, -⟩ := covered.asserted policy
      subst same
      have claimed :=
        resolvable _ (by
          simp [completeConditions]
          rfl)
      cases claimed
    | _ => exact differs
  | redefine replacement =>
    obtain ⟨old, new, expected, replaced, mode⟩ := differs
    have unsupported : classifySchemaOperationSafety (.redefine replacement) = .unsupported := by
      simp [classifySchemaOperationSafety, classifyOperationSafety,
        expected, replaced, classifyRedefinition, mode]
    obtain ⟨safety, forward⟩ := covered.forward
    rw [unsupported] at forward
    unfold verifiedForwardSafety at forward
    split at forward
    · cases forward
    · cases forward

/--
What guards one statement unit.

A destructive operation was approved. A conditional one is condition-free, or
all conditions derived for it are among those its group asserts, and all of
those that carry its index are its own. One that needs a backfill is
condition-free. No other dangerous class occurs.
-/
def UnitGuarded (compareSameDomain : CanonicalValue → CanonicalValue → Option Ordering)
    (source target : DeclaredSchema codec) (profile : SemanticProfileId)
    (asserted : List (RequiredSafetyCondition OperationCondition)) (approved : Prop)
    (operationIndex : Nat) (operation : SchemaOperation) : Prop :=
  match classifySchemaOperationSafety operation with
  | .formalOnly | .schemaMetadata | .additive => True
  | .conditional =>
      ∃ derived, deriveSafetyConditions compareSameDomain operationIndex operation
            source target profile = .ok derived ∧
          (derived.isConditionFree = true ∨ derived.conditions ≠ [] ∧
              ofOperation operationIndex asserted = derived.conditions)
  | .backfillRequired =>
      ∃ derived, deriveSafetyConditions compareSameDomain operationIndex operation
            source target profile = .ok derived ∧
          derived.isConditionFree = true
  | .destructive => approved
  | .unclassified | .unsupported => False

theorem unitGuarded_of_lowerSchemaDelta {render : RenderOperation Statement}
    {binding : SchemaLoweringBinding} {approved : Bool}
    {lowering : SchemaLoweringPlan Digest Statement}
    (covered : verifyAssertionCoverage (schemaSafetyRules compareSameDomain lower)
        assertions delta source target profile = .ok coverage)
    (lowered : lowerSchemaDelta render delta source.facts target.facts binding
        coverage.dischargedOperationIndices approved = .ok lowering) :
    ∃ asserted, List.Forall₂ (fun condition assertion =>
            lower condition source delta.source = .ok assertion) asserted assertions ∧
        ∀ unit ∈ lowering.units, ∃ operation,
          delta.operations[unit.operationIndex]? = some operation ∧
            unit.safety = classifySchemaOperationSafety operation ∧
            UnitGuarded compareSameDomain source target profile asserted
              (approved = true) unit.operationIndex operation := by
  obtain ⟨asserted, pairs, operations⟩ := exists_coveredOperations covered
  refine ⟨asserted, pairs, ?_⟩
  intro unit member
  obtain ⟨operation, classification, found, classified, safety, admits⟩ :=
    mem_units_of_lowerSchemaDelta lowered member
  obtain ⟨derived, derivation, isCovered⟩ := operations unit.operationIndex operation found
  have agrees : unit.safety = classifySchemaOperationSafety operation := by
    rw [safety]
    exact classification_safety classified (isCovered.not_registryDiffers derivation)
  refine ⟨operation, found, agrees, ?_⟩
  rw [agrees] at admits
  have policy := isCovered.derivedFor.policy
  unfold UnitGuarded
  cases isClass : classifySchemaOperationSafety operation with
  | formalOnly => trivial
  | schemaMetadata => trivial
  | additive => trivial
  | conditional =>
    have conditional := policy.trans isClass
    refine ⟨derived, derivation, ?_⟩
    by_cases empty : derived.conditions = []
    · exact Or.inl (isCovered.derivedFor.complete conditional empty)
    · exact Or.inr ⟨empty, (isCovered.asserted conditional).2⟩
  | backfillRequired =>
    rw [isClass] at admits
    refine ⟨derived, derivation, ?_⟩
    rcases isCovered.resolves admits with conditional | free
    · rw [policy, isClass] at conditional
      cases conditional
    · exact free.2
  | destructive | unclassified | unsupported =>
    rw [isClass] at admits
    exact admits

end Guarded

/-! ## Approvals -/

section Approval

variable {Bytes Digest Condition Body Lowered PlanDigest : Type} {codec : Codec Bytes Digest}
  [DecidableEq Digest]

omit [DecidableEq Digest] in
theorem exists_of_anyBinds
    {binds : MigrationApplyApproval Digest PlanDigest → Except Diagnostic Bool}
    {approvals : List (MigrationApplyApproval Digest PlanDigest)}
    (found : anyBinds binds approvals = .ok true) :
    ∃ approval ∈ approvals, binds approval = .ok true := by
  induction approvals with
  | nil => cases found
  | cons first rest ih =>
    obtain ⟨bound, computed, found⟩ := bind_eq_ok.mp found
    cases bound with
    | true => exact ⟨first, by simp, computed⟩
    | false =>
      obtain ⟨approval, member, binds⟩ := ih found
      exact ⟨approval, by simp [member], binds⟩

theorem policyGate_eq_ok_true {policy : MigrationSafetyPolicy} {safety : SafetyClass}
    {rejected required : String} {approved : Except Diagnostic Bool}
    (gate : policyGate policy safety rejected required approved = .ok true) :
    policy.decision safety = .requireApproval ∧ approved = .ok true := by
  unfold policyGate at gate
  split at gate
  · cases gate
  · cases gate
  · rename_i requires
    obtain ⟨bound, computed, gate⟩ := bind_eq_ok.mp gate
    cases bound with
    | true => exact ⟨requires, mapError_eq_ok.mp computed⟩
    | false => cases gate

variable [DecidableEq PlanDigest] {services : PlanServices codec Condition Body Lowered PlanDigest}
  {inputs : PlanInputs Digest PlanDigest} {manifest : VerifiedSchemaMigrationManifest codec Body}
  {approval : MigrationApplyApproval Digest PlanDigest} {safety : SafetyClass}
  {source target : ManagedSchemaState Digest}

/-- Everything that an approval and the transition it binds agree on. -/
structure BoundTransition (services : PlanServices codec Condition Body Lowered PlanDigest)
    (manifest : VerifiedSchemaMigrationManifest codec Body) (safety : SafetyClass)
    (source target : ManagedSchemaState Digest)
    (approval : MigrationApplyApproval Digest PlanDigest) : Prop where
  safety : approval.safety = safety
  source : approval.sourceState = source
  target : approval.targetState = target
  id : approval.id = manifest.id
  fingerprint : approval.planFingerprint = services.planFingerprint manifest
  semantic : approval.semanticProfile = manifest.semanticProfile
  lowering : approval.loweringProfile = manifest.loweringProfile
  digest : services.manifestDigest manifest = .ok approval.manifestDigest

theorem bindsTransition_eq_ok_true :
    approval.bindsTransition services manifest safety source target = .ok true ↔
      BoundTransition services manifest safety source target approval := by
  unfold MigrationApplyApproval.bindsTransition MigrationApplyApproval.bindsIdentity
  constructor
  · intro binds
    split at binds
    · rename_i states
      split at binds
      · rename_i identity
        obtain ⟨digest, computed, same⟩ := bind_eq_ok.mp binds
        have sameDigest : approval.manifestDigest = digest := by simpa [pure_eq_ok] using same
        rw [← sameDigest] at computed
        exact ⟨states.1, states.2.1, states.2.2, identity.1, identity.2.1,
          identity.2.2.1, identity.2.2.2, computed⟩
      · cases binds
    · cases binds
  · intro bound
    rw [if_pos ⟨bound.safety, bound.source, bound.target⟩,
      if_pos ⟨bound.id, bound.fingerprint, bound.semantic, bound.lowering⟩, bound.digest]
    simp [bind, Except.bind, pure, Except.pure]

instance : Decidable (BoundTransition services manifest safety source target approval) :=
  decidable_of_iff _ bindsTransition_eq_ok_true

/-- The approval agrees with the application of a migration. -/
def BindsApply
    (services : PlanServices codec Condition Body Lowered PlanDigest)
    (manifest : VerifiedSchemaMigrationManifest codec Body)
    (approval : MigrationApplyApproval Digest PlanDigest) : Prop :=
  BoundTransition services manifest manifest.safety
    manifest.sourceState manifest.targetState approval

/-- The approval agrees with the rollback of a migration, its states swapped. -/
def BindsRollback
    (services : PlanServices codec Condition Body Lowered PlanDigest)
    (manifest : VerifiedSchemaMigrationManifest codec Body)
    (rollbackSafety : SafetyClass)
    (approval : MigrationApplyApproval Digest PlanDigest) : Prop :=
  BoundTransition services manifest rollbackSafety
    manifest.targetState manifest.sourceState approval

theorem exists_bindsApply (authorized : inputs.executionAuthorized = true)
    (gate : applyApproval services inputs manifest = .ok true) :
    ∃ approval ∈ inputs.approvals, BindsApply services manifest approval := by
  unfold applyApproval at gate
  rw [if_pos authorized] at gate
  obtain ⟨approval, member, binds⟩ := exists_of_anyBinds (policyGate_eq_ok_true gate).2
  exact ⟨approval, member, bindsTransition_eq_ok_true.mp binds⟩

theorem exists_bindsRollback {rollbackSafety : SafetyClass}
    (authorized : inputs.executionAuthorized = true)
    (gate : rollbackApproval services inputs manifest rollbackSafety = .ok true) :
    ∃ approval ∈ inputs.approvals, BindsRollback services manifest rollbackSafety approval := by
  unfold rollbackApproval at gate
  rw [if_pos authorized] at gate
  obtain ⟨approval, member, binds⟩ := exists_of_anyBinds (policyGate_eq_ok_true gate).2
  exact ⟨approval, member, bindsTransition_eq_ok_true.mp binds⟩

end Approval

/-! ## Authorized plans -/

section Plans

variable {Bytes Digest Body Statement PlanDigest : Type} {codec : Codec Bytes Digest}
  [DecidableEq Digest] [DecidableEq Body] [DecidableEq PlanDigest]

def schemaPlanServices (compareSameDomain : CanonicalValue → CanonicalValue → Option Ordering)
    (lower : RequiredSafetyCondition OperationCondition → DeclaredSchema codec →
        ManagedSchemaState Digest → Except Diagnostic (MigrationAssertionPlan Body))
    (render : RenderOperation Statement)
    (manifestDigest : VerifiedSchemaMigrationManifest codec Body → Except Diagnostic PlanDigest)
    (planFingerprint : VerifiedSchemaMigrationManifest codec Body → PlanDigest) :
    PlanServices codec OperationCondition Body
      (SchemaLoweringPlan Digest Statement) PlanDigest where
  rules := schemaSafetyRules compareSameDomain lower
  lower := lowerSchemaDelta render
  manifestDigest := manifestDigest
  planFingerprint := planFingerprint

variable {compareSameDomain : CanonicalValue → CanonicalValue → Option Ordering}
  {lower : RequiredSafetyCondition OperationCondition → DeclaredSchema codec →
    ManagedSchemaState Digest → Except Diagnostic (MigrationAssertionPlan Body)}
  {render : RenderOperation Statement}
  {manifestDigest : VerifiedSchemaMigrationManifest codec Body → Except Diagnostic PlanDigest}
  {planFingerprint : VerifiedSchemaMigrationManifest codec Body → PlanDigest}

/--
The units of a lowered delta, each guarded by an approval or by conditions.

The conditions are derived between the schemas that the delta connects, under
the given profile. The asserted ones are those that the given assertions were
lowered from.
-/
def UnitsGuarded (compareSameDomain : CanonicalValue → CanonicalValue → Option Ordering)
    (lower : RequiredSafetyCondition OperationCondition → DeclaredSchema codec →
        ManagedSchemaState Digest → Except Diagnostic (MigrationAssertionPlan Body))
    (context : ManagedDeltaContext) (profile : SemanticProfileId)
    (assertions : List (MigrationAssertionPlan Body))
    (lowering : SchemaLoweringPlan Digest Statement) (approved : Prop) : Prop :=
  ∃ source target asserted,
    applyDelta source lowering.delta context = .ok target ∧ List.Forall₂
        (fun condition assertion => lower condition source lowering.delta.source = .ok assertion)
        asserted assertions ∧
      ∀ unit ∈ lowering.units, ∃ operation,
        lowering.delta.operations[unit.operationIndex]? = some operation ∧
          unit.safety = classifySchemaOperationSafety operation ∧
          UnitGuarded compareSameDomain source target profile asserted
            approved unit.operationIndex operation

variable {source target : DeclaredSchema codec} {profile : SemanticProfileId} {evidence : Prop}

omit [DecidableEq Digest] in
theorem UnitGuarded.mono {asserted : List (RequiredSafetyCondition OperationCondition)}
    {approved : Prop} {operationIndex : Nat} {operation : SchemaOperation}
    (implies : approved → evidence)
    (guarded : UnitGuarded compareSameDomain source target profile asserted approved
        operationIndex operation) :
    UnitGuarded compareSameDomain source target profile asserted evidence
      operationIndex operation := by
  unfold UnitGuarded at guarded ⊢
  cases isClass : classifySchemaOperationSafety operation with
  | destructive =>
    rw [isClass] at guarded
    exact implies guarded
  | _ =>
    rw [isClass] at guarded
    exact guarded

omit [DecidableEq PlanDigest] in
theorem PlannedDelta.unitsGuarded {context : ManagedDeltaContext} {binding : SchemaLoweringBinding}
    {approved : Bool} {assertions : List (MigrationAssertionPlan Body)} {delta : SchemaDelta Digest}
    {lowering : SchemaLoweringPlan Digest Statement} {coverage : VerifiedAssertionCoverage Body}
    (implies : approved = true → evidence)
    (planned : PlannedDelta (schemaPlanServices compareSameDomain lower render manifestDigest
          planFingerprint) context profile binding approved assertions delta lowering source
        target coverage) :
    UnitsGuarded compareSameDomain lower context profile assertions lowering evidence := by
  obtain ⟨asserted, pairs, guarded⟩ :=
    unitGuarded_of_lowerSchemaDelta planned.covered planned.lowered
  have sameDelta := delta_of_lowerSchemaDelta planned.lowered
  subst sameDelta
  refine ⟨source, target, asserted, planned.applied, pairs, ?_⟩
  intro unit member
  obtain ⟨operation, found, safety, isGuarded⟩ := guarded unit member
  exact ⟨operation, found, safety, isGuarded.mono implies⟩

/--
No dangerous statement runs unguarded.

In every authorized plan, forward or backward, every unit of every transaction
group is guarded: a destructive one by a supplied approval that binds its
manifest in that direction, a conditional one by the assertions of its own
group or by a proof that it needs none, one that needs a backfill by such a
proof, and no other dangerous class occurs.
-/
theorem units_guarded
    (graph : MigrationHistoryGraph codec Body)
    (applied : IdSet)
    (inputs : PlanInputs Digest PlanDigest)
    (authorized : inputs.executionAuthorized = true) :
    (∀ target plan,
      buildVerifiedMigrationApplyPlan
          (schemaPlanServices compareSameDomain lower render manifestDigest planFingerprint)
          graph applied target inputs = .ok plan →
      ∀ entry ∈ plan.migrations, ∀ group ∈ entry.transactionGroups,
        ∃ earlier assertions step lowering later execution,
          entry.steps =
              earlier ++ (StepBlock.guarded assertions step lowering).steps ++ later ∧
            group.firstStepIndex = earlier.length ∧
            group.schemaDeltaStepIndex = earlier.length + assertions.length ∧
            lowering.delta = step.delta ∧
            bridgeAncestorExecution graph entry.manifest inputs.context inputs.binding =
              .ok execution ∧
            UnitsGuarded compareSameDomain lower execution.1
              execution.1.semanticProfile (assertions.map (·.1.2)) lowering
              (∃ approval ∈ inputs.approvals,
                BindsApply
                  (schemaPlanServices compareSameDomain lower render manifestDigest planFingerprint)
                  entry.manifest approval)) ∧
    ∀ removals plan,
      buildVerifiedMigrationRollbackPlan
          (schemaPlanServices compareSameDomain lower render manifestDigest planFingerprint)
          graph applied removals inputs = .ok plan →
      ∀ entry ∈ plan.rollbacks, ∀ step ∈ entry.steps,
        UnitsGuarded compareSameDomain lower inputs.context
          entry.manifest.semanticProfile [] step.lowering
          (∃ approval ∈ inputs.approvals,
            BindsRollback
              (schemaPlanServices compareSameDomain lower render manifestDigest planFingerprint)
              entry.manifest entry.rollbackSafety approval) := by
  constructor
  · intro target plan built entry member group isGroup
    obtain ⟨context, binding, approved, current, planned, -⟩ := exists_plannedEntry built member
    obtain ⟨earlier, assertions, step, lowering, later, shape, starts, ends,
      source, reached, coverage, delta⟩ := exists_plannedGroup planned.steps isGroup
    refine ⟨earlier, assertions, step, lowering, later, (context, binding),
      shape, starts, ends, delta_of_lowerSchemaDelta delta.lowered,
      planned.execution, delta.unitsGuarded ?_⟩
    intro isApproved
    subst isApproved
    exact exists_bindsApply authorized planned.gate
  · intro removals plan built entry member step isStep
    have reversed := exists_reversedEntry built member
    obtain ⟨-, approved, gate, deltas⟩ := exists_plannedReverse reversed.steps
    obtain ⟨delta, source, target, coverage, planned⟩ := deltas step isStep
    refine planned.unitsGuarded ?_
    intro isApproved
    subst isApproved
    exact exists_bindsRollback authorized gate

end Plans

/-! ## Approved removals -/

/-- A context that can define and undefine. -/
def droppingContext : ManagedDeltaContext :=
  plainContext
    {⟨"schema.transition.define"⟩, ⟨"schema.transition.undefine"⟩}

/-- The facts `attribute a, value string` and `attribute b, value string`. -/
def twoAttributeFacts : List SchemaFact :=
  attributeFacts .string ++ [attributeB, .value ⟨⟨⟨⟨"b"⟩⟩⟩, .string⟩]

/-- The attributes `a` and `b`. -/
def twoAttributes : DeclaredSchema plainCodec :=
  Checked.get (declarePlain twoAttributeFacts) (by decide +kernel)

/--
Digests of the small histories: what an approval must tell apart.

No two manifests of one identity that differ in safety or states share one.
-/
abbrev PlainPlanDigest :=
  MigrationId × Nat × ManagedSchemaState PlainBytes ×
    ManagedSchemaState PlainBytes

def plainPlanDigest (manifest : VerifiedSchemaMigrationManifest plainCodec Unit) :
    PlainPlanDigest :=
  (manifest.id, manifest.safety.rank, manifest.sourceState, manifest.targetState)

/-- No condition of the small histories is lowered to an assertion. -/
def noAssertions (_ : RequiredSafetyCondition OperationCondition) (_ : DeclaredSchema plainCodec)
    (_ : ManagedSchemaState PlainBytes) : Except Diagnostic (MigrationAssertionPlan Unit) :=
  .error ⟨"unsupported_condition"⟩

/-- No two values of the small histories are compared. -/
def noComparison (_ _ : CanonicalValue) : Option Ordering := none

/-- Planning with the schema's own rules and without rendered statements. -/
def droppingServices : PlanServices plainCodec OperationCondition Unit
      (SchemaLoweringPlan PlainBytes Unit) PlainPlanDigest :=
  schemaPlanServices noComparison noAssertions (fun _ _ _ => .ok [])
    (fun manifest => .ok (plainPlanDigest manifest)) plainPlanDigest

def droppingStep (name : String) (source target : DeclaredSchema plainCodec) :
    Except Diagnostic (MigrationStep PlainBytes Unit) := do
  let delta ← (diffManaged source target droppingContext).mapError deltaDiagnostic
  let inverse ← (inverseDelta delta).mapError deltaDiagnostic
  let id ← MigrationStepId.new name
  let step ← SchemaDeltaStep.new id delta (some inverse)
  return .schemaDelta step

def droppingManifest (name : String) (parents : List MigrationId)
    (source : DeclaredSchema plainCodec) (steps : List (MigrationStep PlainBytes Unit)) :
    Except Diagnostic (VerifiedSchemaMigrationManifest plainCodec Unit) := do
  let id ← MigrationId.new "app" name
  let draft ← SchemaMigrationDraft.new id parents steps
  buildVerifiedManifest droppingServices.rules draft source droppingContext

/-- The migration that removes the attribute `b`. -/
def dropManifest : VerifiedSchemaMigrationManifest plainCodec Unit :=
  Checked.get (do
      let step ← droppingStep "drop" twoAttributes stringAttribute
      droppingManifest "drop" [] twoAttributes [step])
    (by decide +kernel)

/-- No declarations. -/
def noAttributes : DeclaredSchema plainCodec :=
  Checked.get (declarePlain []) (by decide +kernel)

/-- The migration after it, which removes the attribute `a`. -/
def clearManifest : VerifiedSchemaMigrationManifest plainCodec Unit :=
  Checked.get (do
      let step ← droppingStep "clear" stringAttribute noAttributes
      droppingManifest "clear" [dropManifest.id] stringAttribute [step])
    (by decide +kernel)

def dropHistory : MigrationHistoryGraph plainCodec Unit :=
  Checked.get
    (MigrationHistoryGraph.fromVerified [dropManifest, clearManifest]) (by decide +kernel)

def dropApproval : MigrationApplyApproval PlainBytes PlainPlanDigest :=
  Checked.get (MigrationApplyApproval.forManifest droppingServices dropManifest) (by decide +kernel)

/-- The approvals of both removals. -/
def dropApprovals : List (MigrationApplyApproval PlainBytes PlainPlanDigest) :=
  [dropApproval, Checked.get
    (MigrationApplyApproval.forManifest droppingServices clearManifest) (by decide +kernel)]

/-- Execution under the default policy with the given approvals. -/
def droppingInputs (approvals : List (MigrationApplyApproval PlainBytes PlainPlanDigest)) :
    PlanInputs PlainBytes PlainPlanDigest :=
  ⟨droppingContext, ⟨.typedb3121, droppingContext.availableCapabilities⟩,
    .defaultPolicy, approvals, true⟩

/-- The plan of the approved removals. -/
def dropPlan : VerifiedMigrationApplyPlan plainCodec Unit
      (SchemaLoweringPlan PlainBytes Unit) PlainPlanDigest :=
  Checked.get (buildVerifiedMigrationApplyPlan droppingServices dropHistory ∅
      .defaultHead (droppingInputs dropApprovals))
    (by decide +kernel)

/-- The plan that takes the first removal back, for which no approval is needed. -/
def restorePlan : VerifiedMigrationRollbackPlan plainCodec Unit
      (SchemaLoweringPlan PlainBytes Unit) PlainPlanDigest :=
  Checked.get (buildVerifiedMigrationRollbackPlan droppingServices dropHistory
      (namedIds ["drop"]) (namedIds ["drop"]) (droppingInputs dropApprovals))
    (by decide +kernel)

def hasDestructiveUnit :
    VerifiedMigrationApplyStep PlainBytes Unit (SchemaLoweringPlan PlainBytes Unit) → Bool
  | .schemaDelta _ lowering => lowering.units.any fun unit => unit.safety = .destructive
  | _ => false

/--
The destructive units of the removal are guarded by its approval, and those
of its restoration need none.
-/
theorem dropPlan_units_guarded :
    (∃ entry ∈ dropPlan.migrations, entry.steps.any hasDestructiveUnit = true ∧
        ∃ group ∈ entry.transactionGroups, ∃ earlier assertions step lowering later execution,
            entry.steps = earlier ++ (StepBlock.guarded assertions step lowering).steps ++ later ∧
              group.firstStepIndex = earlier.length ∧
              UnitsGuarded noComparison noAssertions execution
                execution.semanticProfile (assertions.map (·.1.2)) lowering
                (∃ approval ∈ dropApprovals,
                  BindsApply droppingServices entry.manifest approval)) ∧
      ∃ entry ∈ restorePlan.rollbacks, ∃ step ∈ entry.steps, step.lowering.units ≠ [] ∧
          UnitsGuarded noComparison noAssertions droppingContext
            entry.manifest.semanticProfile [] step.lowering (∃ approval ∈ dropApprovals,
              BindsRollback droppingServices entry.manifest entry.rollbackSafety approval) := by
  constructor
  · have planned : (dropPlan.migrations.any fun entry =>
          entry.steps.any hasDestructiveUnit && !entry.transactionGroups.isEmpty) = true := by
      decide +kernel
    obtain ⟨entry, member, isPlanned⟩ := List.any_eq_true.mp planned
    obtain ⟨destructive, grouped⟩ := Bool.and_eq_true_iff.mp isPlanned
    obtain ⟨group, isGroup⟩ : ∃ group, group ∈ entry.transactionGroups := by
      apply List.exists_mem_of_ne_nil
      simpa using grouped
    obtain ⟨earlier, assertions, step, lowering, later, execution, shape,
      starts, -, -, -, guarded⟩ :=
      (units_guarded dropHistory ∅ (droppingInputs dropApprovals) rfl).1
        .defaultHead dropPlan (eq_ok_get _ _) entry member group isGroup
    exact ⟨entry, member, destructive, group, isGroup, earlier, assertions,
      step, lowering, later, execution.1, shape, starts, guarded⟩
  · have restored : (restorePlan.rollbacks.any fun entry =>
          entry.steps.any fun step => !step.lowering.units.isEmpty) = true := by
      decide +kernel
    obtain ⟨entry, member, isRestored⟩ := List.any_eq_true.mp restored
    obtain ⟨step, isStep, nonempty⟩ := List.any_eq_true.mp isRestored
    refine ⟨entry, member, step, isStep, by simpa using nonempty, ?_⟩
    exact (units_guarded dropHistory (namedIds ["drop"])
        (droppingInputs dropApprovals) rfl).2 (namedIds ["drop"]) restorePlan
        (eq_ok_get _ _) entry member step isStep

end TypeBridge.Migration
