import TypeBridge.Schema.Delta

namespace TypeBridge.Migration

open Library Schema

/-!
# Verified migration manifests

A migration is a list of steps over a declared source schema: assertions,
schema deltas and backfills. `buildVerifiedManifest` replays the steps,
compares each delta with the dependency plan of the schemas it connects,
requires the verifier's own assertions before each delta, and accepts a
reverse delta only if it replays back to the step's source in the planner's
order.

The derivation of safety conditions and their lowering to assertion plans are
parameters of the verifier, collected in `SafetyRules`.
-/

/-! ## Identities -/

def isLower (character : Char) : Bool := 'a' ≤ character && character ≤ 'z'

def isDigit (character : Char) : Bool := '0' ≤ character && character ≤ '9'

/-- A bounded portable lowercase component. -/
def validComponent (leadingDigit : Bool) (value : String) : Bool :=
  value.utf8ByteSize ≤ 255 &&
    match value.toList with
    | [] => false
    | first :: rest =>
        (isLower first || (leadingDigit && isDigit first)) && rest.all fun character =>
            isLower character || isDigit character || character = '_' ||
              character = '-'

@[ext] structure MigrationId where
  appLabel : String
  name : String
  validAppLabel : validComponent false appLabel
  validName : validComponent true name

/-- Check the components of a migration identity. -/
def MigrationId.new (appLabel name : String) : Except Diagnostic MigrationId :=
  if validAppLabel : validComponent false appLabel then
    if validName : validComponent true name then .ok ⟨appLabel, name, validAppLabel, validName⟩
    else .error ⟨"invalid_migration_identity_component"⟩
  else .error ⟨"invalid_migration_identity_component"⟩

/-- Migration identities are ordered by label, then by name. -/
def MigrationId.orderKey (id : MigrationId) : String ×ₗ String := toLex (id.appLabel, id.name)

theorem MigrationId.orderKey_injective : Function.Injective MigrationId.orderKey := by
  intro left right same
  have components := Prod.ext_iff.mp (toLex.injective same)
  exact MigrationId.ext components.1 components.2

instance : LinearOrder MigrationId :=
  LinearOrder.lift' MigrationId.orderKey MigrationId.orderKey_injective

instance lawfulBEq_migrationId : LawfulBEq MigrationId := inferInstance

/-- A step identity, unique within one migration. -/
structure MigrationStepId where
  text : String
  valid : validComponent false text
  deriving DecidableEq

/-- Check a step identity. -/
def MigrationStepId.new (text : String) : Except Diagnostic MigrationStepId :=
  if valid : validComponent false text then .ok ⟨text, valid⟩
  else .error ⟨"invalid_migration_identity_component"⟩

/-! ## Profiles -/

/-- The TypeDB lines with a schema-transition registry, oldest first. -/
inductive MigrationProfile where
  | typedb3121 | typedb3136
  deriving DecidableEq, Repr

namespace MigrationProfile

def semanticProfileId : MigrationProfile → SemanticProfileId
  | .typedb3121 => ⟨"typedb-3.12.1/v1"⟩
  | .typedb3136 => ⟨"typedb-3.13.6/v1"⟩

def forSemanticProfile (id : SemanticProfileId) : Option MigrationProfile :=
  [typedb3121, typedb3136].find? fun profile => profile.semanticProfileId = id

def release : MigrationProfile → Nat
  | .typedb3121 => 0
  | .typedb3136 => 1

end MigrationProfile

/--
The lowering profile bound to a semantic profile; each registry has one, so
the registry stands for its binding.
-/
def loweringProfileBinding (id : SemanticProfileId) : Except Diagnostic MigrationProfile :=
  match MigrationProfile.forSemanticProfile id with
  | some profile => .ok profile
  | none => .error ⟨"schema_lowering_semantic_profile_unsupported"⟩

/-! ## Safety -/

/-- Safety classes, least restrictive first. -/
inductive SafetyClass where
  | formalOnly | schemaMetadata | additive | conditional | backfillRequired | destructive
  | unclassified | unsupported
  deriving DecidableEq, Repr

namespace SafetyClass

def rank : SafetyClass → Nat
  | .formalOnly => 0
  | .schemaMetadata => 1
  | .additive => 2
  | .conditional => 3
  | .backfillRequired => 4
  | .destructive => 5
  | .unclassified => 6
  | .unsupported => 7

/-- The more restrictive of two classes. -/
def max (left right : SafetyClass) : SafetyClass :=
  if left.rank ≤ right.rank then right
  else left

end SafetyClass

/-- A condition on existing data and the policy it falls under. -/
structure RequiredSafetyCondition (Condition : Type) where
  condition : Condition
  isResolvable : Bool
  policy : SafetyClass

structure DerivedSafetyConditions (Condition : Type) where
  policy : SafetyClass
  conditions : List (RequiredSafetyCondition Condition)
  isConditionFree : Bool

structure MigrationAssertionPlan (Body : Type) where
  body : Body
  requiredCapabilities : CapabilitySet
  deriving DecidableEq

/--
How operations are classified, which conditions they need, and how a
condition becomes an assertion plan over the source schema.
-/
structure SafetyRules {Bytes Digest : Type} (codec : Codec Bytes Digest)
    (Condition Body : Type) where
  classify : SchemaOperation → SafetyClass
  derive : Nat → SchemaOperation → DeclaredSchema codec → DeclaredSchema codec →
      SemanticProfileId → Except Diagnostic (DerivedSafetyConditions Condition)
  lower : RequiredSafetyCondition Condition → DeclaredSchema codec → ManagedSchemaState Digest →
        Except Diagnostic (MigrationAssertionPlan Body)

/-! ## Steps -/

section Steps

variable {Digest : Type} [DecidableEq Digest]

/-- Deltas are equal when their recorded fields are. -/
instance : DecidableEq (SchemaDelta Digest) := fun left right =>
  decidable_of_iff (left.format = right.format ∧ left.operations = right.operations ∧
      left.requiredCapabilities = right.requiredCapabilities ∧
      left.source = right.source ∧ left.target = right.target) (by
    cases left
    cases right
    simp)

structure SchemaDeltaStep (Digest : Type) [DecidableEq Digest] where
  id : MigrationStepId
  delta : SchemaDelta Digest
  reverse : Option (SchemaDelta Digest)
  exactReverse : ∀ inverse ∈ reverse, inverseDelta delta = .ok inverse

def deltaDiagnostic : DeltaError → Diagnostic
  | .contract diagnostic => diagnostic
  | .schema (diagnostic :: _) => diagnostic
  | .schema [] => ⟨"migration_manifest_schema_verification_failed"⟩

/-- Check a claimed reverse against the operation-wise inverse. -/
def SchemaDeltaStep.new (id : MigrationStepId) (delta : SchemaDelta Digest)
    (reverse : Option (SchemaDelta Digest)) : Except Diagnostic (SchemaDeltaStep Digest) :=
  match reverse with
  | none => .ok ⟨id, delta, none, by simp⟩
  | some candidate =>
      match expected : inverseDelta delta with
      | .error failure => .error (deltaDiagnostic failure)
      | .ok inverse =>
          if same : candidate = inverse then
            .ok ⟨id, delta, some candidate, by simp [same, expected]⟩
          else .error ⟨"schema_delta_step_inverse_mismatch"⟩

inductive BackfillReverseProgram where
  | removeEqualCopiedDestination
  deriving DecidableEq, Repr

def maxBackfillBatchRows : Nat := 10000

/--
A plan that copies the values of one owned attribute to another, in batches
ordered by a key of the owner.
-/
structure AttributeBackfillPlan (Digest : Type) where
  owner : TypeId
  source : AttributeId
  destination : AttributeId
  batchRows : Nat
  stableAttribute : AttributeId
  managedSemantics : SemanticFingerprint Digest
  reverse : Option BackfillReverseProgram
  ownerKind : owner.kind = .entity ∨ owner.kind = .relation
  distinctAttributes : source ≠ destination
  batchPositive : 0 < batchRows
  batchBounded : batchRows ≤ maxBackfillBatchRows

instance {Digest : Type} [DecidableEq Digest] : DecidableEq (AttributeBackfillPlan Digest) :=
  fun first second => decidable_of_iff (first.owner = second.owner ∧ first.source = second.source ∧
    first.destination = second.destination ∧ first.batchRows = second.batchRows ∧
    first.stableAttribute = second.stableAttribute ∧
    first.managedSemantics = second.managedSemantics ∧ first.reverse = second.reverse)
    (by cases first; cases second; simp)

def copyAttributeBackfillCapability : CapabilityId := ⟨"migration.backfill.copy-attribute"⟩

/-- The capability an assertion requires beside those of its query. -/
def conditionalResolutionCapability : CapabilityId := ⟨"migration.conditional-resolution"⟩

/--
One migration step. An assertion expects no rows; that is the only
expectation a persisted assertion supports.
-/
inductive MigrationStep (Digest Body : Type) [DecidableEq Digest] where
  | schemaDelta (step : SchemaDeltaStep Digest)
  | assertion (id : MigrationStepId) (plan : MigrationAssertionPlan Body)
  | backfill (id : MigrationStepId) (plan : AttributeBackfillPlan Digest)

namespace MigrationStep

variable {Body : Type}

def id : MigrationStep Digest Body → MigrationStepId
  | .schemaDelta step => step.id
  | .assertion id _ => id
  | .backfill id _ => id

def requiredCapabilities : MigrationStep Digest Body → CapabilitySet
  | .schemaDelta step => step.delta.requiredCapabilities
  | .assertion _ plan => insert conditionalResolutionCapability plan.requiredCapabilities
  | .backfill _ _ => {copyAttributeBackfillCapability}

end MigrationStep

end Steps

/-! ## Assertion coverage -/

section Coverage

variable {Bytes Digest Condition Body : Type} {codec : Codec Bytes Digest} [DecidableEq Digest]

/-- The safety a manifest carries for one operation. -/
def verifiedForwardSafety (safety : SafetyClass) (verifierResolved : Bool) :
    Except Diagnostic SafetyClass :=
  if verifierResolved then
    match safety with
    | .conditional => .ok .conditional
    | .backfillRequired => .ok .conditional
    | _ => .error ⟨"migration_manifest_invalid_resolved_safety"⟩
  else
    match safety with
    | .backfillRequired | .unclassified | .unsupported =>
        .error ⟨"migration_manifest_unresolved_safety"⟩
    | _ => .ok safety

/-- What is known of a delta's operations while they are scanned. -/
structure CoverageScan (Condition : Type) where
  required : List (RequiredSafetyCondition Condition)
  withDestructiveGuards : List (RequiredSafetyCondition Condition)
  dischargedOperationIndices : List Nat
  effectiveSafety : SafetyClass

/-- Collect the conditions of one operation. -/
def scanConditions (scan : CoverageScan Condition) :
    List (RequiredSafetyCondition Condition) → Except Diagnostic (CoverageScan Condition × Bool)
  | [] => .ok (scan, false)
  | condition :: rest =>
      match condition.policy with
      | .conditional =>
          if condition.isResolvable then do
            let (next, _) ←
              scanConditions
                { scan with
                  required := scan.required ++ [condition]
                  withDestructiveGuards := scan.withDestructiveGuards ++ [condition] }
                rest
            return (next, true)
          else .error ⟨"migration_manifest_unresolvable_conditional_assertion"⟩
      | .destructive =>
          if condition.isResolvable then
            scanConditions
              { scan with
                withDestructiveGuards := scan.withDestructiveGuards ++ [condition] }
              rest
          else scanConditions scan rest
      | _ => scanConditions scan rest

def scanOperation (rules : SafetyRules codec Condition Body) (source target : DeclaredSchema codec)
    (profile : SemanticProfileId) (scan : CoverageScan Condition) (entry : SchemaOperation × Nat) :
    Except Diagnostic (CoverageScan Condition) := do
  let derived ← rules.derive entry.2 entry.1 source target profile
  let (scanned, requiresAssertion) ← scanConditions scan derived.conditions
  let discharged :=
    requiresAssertion || derived.policy = .conditional ||
      (derived.policy = .backfillRequired && derived.isConditionFree)
  let safety ← verifiedForwardSafety (rules.classify entry.1) discharged
  return { scanned with
    dischargedOperationIndices :=
      if discharged then scanned.dischargedOperationIndices ++ [entry.2]
      else scanned.dischargedOperationIndices
    effectiveSafety := scanned.effectiveSafety.max safety }

structure VerifiedAssertionCoverage (Body : Type) where
  dischargedOperationIndices : List Nat
  effectiveSafety : SafetyClass
  validated : List (MigrationAssertionPlan Body)

variable [DecidableEq Body]

def validateAssertions (rules : SafetyRules codec Condition Body) (source : DeclaredSchema codec)
    (state : ManagedSchemaState Digest) (assertions : List (MigrationAssertionPlan Body))
    (expected : List (RequiredSafetyCondition Condition)) :
    Except Diagnostic (List (MigrationAssertionPlan Body)) :=
  (assertions.zip expected).mapM fun pair => do
    let validated ← rules.lower pair.2 source state
    if pair.1 ≠ validated then throw ⟨"migration_manifest_assertion_plan_mismatch"⟩
    return validated

def builtinSchemaCapabilities : CapabilitySet :=
  {⟨"schema.annotations"⟩, ⟨"schema.doc-meta"⟩, ⟨"schema.roles"⟩}

/-- Verify that assertions cover exactly what a delta requires. -/
def verifyAssertionCoverage (rules : SafetyRules codec Condition Body)
    (assertions : List (MigrationAssertionPlan Body)) (delta : SchemaDelta Digest)
    (source target : DeclaredSchema codec) (profile : SemanticProfileId) :
    Except Diagnostic (VerifiedAssertionCoverage Body) := do
  let scan ←
    delta.operations.zipIdx.foldlM (scanOperation rules source target profile)
      ⟨[], [], [], .formalOnly⟩
  let expected ←
    if assertions = [] then
      if scan.required.isEmpty then pure []
      else throw ⟨"migration_manifest_missing_assertion"⟩
    else if assertions.length = scan.required.length then pure scan.required
    else if assertions.length = scan.withDestructiveGuards.length then
      pure scan.withDestructiveGuards
    else if assertions.length < scan.required.length then
      throw ⟨"migration_manifest_missing_assertion"⟩
    else throw ⟨"migration_manifest_extra_assertion"⟩
  let _ ← resolveSchemaWithCapabilities source profile builtinSchemaCapabilities
  let validated ← validateAssertions rules source delta.source assertions expected
  return ⟨scan.dischargedOperationIndices, scan.effectiveSafety, validated⟩

/-- A claimed reverse must need no assertion and leave no work unresolved. -/
def rejectReverseAssertionRequirement (rules : SafetyRules codec Condition Body)
    (reverse : SchemaDelta Digest) (source target : DeclaredSchema codec)
    (profile : SemanticProfileId) : Except Diagnostic Unit :=
  match verifyAssertionCoverage rules [] reverse source target profile with
  | .ok _ => .ok ()
  | .error failure =>
      if failure.code = "migration_manifest_missing_assertion" ∨ failure.code =
            "migration_manifest_unresolvable_conditional_assertion" then
        .error ⟨"migration_manifest_reverse_requires_assertions"⟩
      else if failure.code = "migration_manifest_unresolved_safety" then
        .error ⟨"migration_manifest_reverse_unresolved_safety"⟩
      else .error failure

end Coverage

/-! ## Drafts -/

structure LegacyMigrationReference where
  appLabel : String
  name : String
  checksum : String
  deriving DecidableEq

structure LegacyAppliedSetDigest where
  digest : String
  deriving DecidableEq

/-- Trusted authoring input of one migration. -/
structure SchemaMigrationDraft (Digest Body : Type) [DecidableEq Digest] where
  id : MigrationId
  parents : List MigrationId
  steps : List (MigrationStep Digest Body)
  legacyParents : List LegacyMigrationReference
  legacyAppliedSet : Option LegacyAppliedSetDigest
  profileBridge : Option MigrationProfile

section Draft

variable {Digest Body : Type} [DecidableEq Digest]

/-- Sort the parents and check the identities of a draft. -/
def SchemaMigrationDraft.new (id : MigrationId) (parents : List MigrationId)
    (steps : List (MigrationStep Digest Body)) :
    Except Diagnostic (SchemaMigrationDraft Digest Body) := do
  if steps.length > maxCanonicalCollectionLen then throw ⟨"migration_manifest_step_limit"⟩
  let sorted := parents.insertionSort (· ≤ ·)
  if ¬ sorted.Nodup then throw ⟨"migration_manifest_duplicate_parent"⟩
  if id ∈ sorted then throw ⟨"migration_manifest_self_parent"⟩
  if ¬ (steps.map MigrationStep.id).Nodup then throw ⟨"migration_manifest_duplicate_step_id"⟩
  return {
    id := id
    parents := sorted
    steps := steps
    legacyParents := []
    legacyAppliedSet := none
    profileBridge := none
  }

end Draft

/-! ## Verification -/

/-- A manifest whose whole program has been replayed. -/
structure VerifiedSchemaMigrationManifest {Bytes Digest : Type} (codec : Codec Bytes Digest)
    (Body : Type) [DecidableEq Digest] where
  id : MigrationId
  parents : List MigrationId
  legacyParents : List LegacyMigrationReference
  legacyAppliedSet : Option LegacyAppliedSetDigest
  loweringProfile : MigrationProfile
  managedScope : ManagedScopeId
  profileBridge : Option MigrationProfile
  requiredCapabilities : CapabilitySet
  reversible : Bool
  safety : SafetyClass
  semanticProfile : SemanticProfileId
  sourceSchema : DeclaredSchema codec
  sourceState : ManagedSchemaState Digest
  steps : List (MigrationStep Digest Body)
  targetSchema : DeclaredSchema codec
  targetState : ManagedSchemaState Digest

section Verify

variable {Bytes Digest Condition Body : Type} {codec : Codec Bytes Digest} [DecidableEq Digest]

def VerifiedSchemaMigrationManifest.isLegacyBridge
    (manifest : VerifiedSchemaMigrationManifest codec Body) : Bool :=
  !manifest.legacyParents.isEmpty

def VerifiedSchemaMigrationManifest.isProfileBridge
    (manifest : VerifiedSchemaMigrationManifest codec Body) : Bool :=
  manifest.profileBridge.isSome

/-- A profile bridge has no steps, one parent, and moves to a newer line. -/
def validateProfileBridgeDraft (source : MigrationProfile)
    (draft : SchemaMigrationDraft Digest Body) (context : ManagedDeltaContext) :
    Except Diagnostic MigrationProfile := do
  if ¬ draft.steps.isEmpty ∨ draft.parents.length ≠ 1 ∨ ¬ draft.legacyParents.isEmpty then
    throw ⟨"migration_manifest_profile_bridge_shape"⟩
  match MigrationProfile.forSemanticProfile context.semanticProfile with
  | none => .error ⟨"schema_lowering_semantic_profile_unsupported"⟩
  | some target =>
      if target.release ≤ source.release then
        .error ⟨"migration_manifest_profile_bridge_not_upgrade"⟩
      else .ok source

def validateDraftShape (draft : SchemaMigrationDraft Digest Body)
    (profileBridge : Option MigrationProfile) : Except Diagnostic Unit :=
  if draft.legacyParents = [] then
    if draft.legacyAppliedSet.isSome then
      .error ⟨"migration_manifest_legacy_applied_set_without_bridge"⟩
    else if draft.steps.isEmpty ∧ profileBridge.isNone then
      .error ⟨"migration_manifest_empty_program"⟩
    else .ok ()
  else if draft.legacyAppliedSet.isNone then
    .error ⟨"migration_manifest_legacy_applied_set_missing"⟩
  else if ¬ draft.steps.isEmpty ∨ draft.parents ≠ [] then
    .error ⟨"migration_manifest_bridge_not_zero_operation"⟩
  else .ok ()

/-- A backfill's owner effectively owns its attributes, the partition as key. -/
def validateBackfillHistoricalSchema (plan : AttributeBackfillPlan Digest)
    (schema : DeclaredSchema codec) (context : ManagedDeltaContext) :
    Except Diagnostic Unit := do
  let resolved ←
    resolveSchemaWithCapabilities schema context.semanticProfile
      builtinSchemaCapabilities
  match resolved.types[plan.owner]? with
  | none => .error ⟨"migration_manifest_backfill_owner_missing"⟩
  | some owner =>
      if plan.source ∉ owner.owns ∨ plan.destination ∉ owner.owns ∨
          plan.stableAttribute ∉ owner.owns then
        .error ⟨"migration_manifest_backfill_attribute_not_owned"⟩
      else if plan.stableAttribute ∉ owner.keyAttributes then
        .error ⟨"migration_manifest_backfill_partition_not_key"⟩
      else .ok ()

/-- What is known of a program while its steps are replayed. -/
structure ManifestReplay {Bytes Digest : Type} (codec : Codec Bytes Digest) (Body : Type) where
  currentSchema : DeclaredSchema codec
  requiredCapabilities : CapabilitySet
  safety : SafetyClass
  reversible : Bool
  pendingAssertions : List (MigrationAssertionPlan Body)

/-- Replay a backfill step: it keeps the schema it is bound to. -/
def replayBackfill (context : ManagedDeltaContext) (state : ManifestReplay codec Body)
    (plan : AttributeBackfillPlan Digest) :
    Except Diagnostic (ManifestReplay codec Body) := do
  if state.pendingAssertions.length ≠ 0 then throw ⟨"migration_manifest_assertion_before_backfill"⟩
  ensureSupportedBy {copyAttributeBackfillCapability}
    context.availableCapabilities
  let intermediate ← (managedSchemaState state.currentSchema context).mapError deltaDiagnostic
  if plan.managedSemantics ≠ intermediate.managedSemanticSchema then
    throw ⟨"migration_manifest_backfill_schema_mismatch"⟩
  validateBackfillHistoricalSchema plan state.currentSchema context
  return { state with
    requiredCapabilities := insert copyAttributeBackfillCapability state.requiredCapabilities
    safety := state.safety.max .backfillRequired
    reversible := state.reversible && plan.reverse.isSome }

variable [DecidableEq Bytes] [DecidableEq Body]

def canonicalIdentityBytes (declared : DeclaredSchema codec) : Except Diagnostic Bytes :=
  codec.identityBytes declared.format declared.requiredCapabilities
    declared.facts

/--
A claimed reverse replays from the step's target to its exact source, in the
order the planner gives.
-/
def verifyReverse (context : ManagedDeltaContext) (source target : DeclaredSchema codec)
    (reverse : SchemaDelta Digest) : Except Diagnostic (DeclaredSchema codec) :=
  match applyDelta target reverse context with
  | .error _ => .error ⟨"migration_manifest_inverse_replay_mismatch"⟩
  | .ok restored =>
      match planSchemaOperations target.facts restored.facts with
      | .error _ => .error ⟨"migration_manifest_inverse_plan_invalid"⟩
      | .ok planned => do
          if planned ≠ reverse.operations then throw ⟨"migration_manifest_inverse_replay_mismatch"⟩
          let restoredBytes ← canonicalIdentityBytes restored
          let sourceBytes ← canonicalIdentityBytes source
          if restoredBytes ≠ sourceBytes then throw ⟨"migration_manifest_inverse_replay_mismatch"⟩
          return restored

/-- Replay a schema delta step and verify its reverse. -/
def replayDelta (rules : SafetyRules codec Condition Body) (context : ManagedDeltaContext)
    (state : ManifestReplay codec Body) (step : SchemaDeltaStep Digest) :
    Except Diagnostic (ManifestReplay codec Body) := do
  if step.delta.source.scope ≠ context.scopeId ∨ step.delta.target.scope ≠ context.scopeId then
    throw ⟨"migration_manifest_scope_mismatch"⟩
  ensureSupportedBy step.delta.requiredCapabilities
    context.availableCapabilities
  let target ← (applyDelta state.currentSchema step.delta context).mapError
      fun _ => ⟨"migration_manifest_step_chain_mismatch"⟩
  let planned ← (planSchemaOperations state.currentSchema.facts target.facts).mapError
      fun _ => ⟨"migration_manifest_dependency_plan_invalid"⟩
  if planned ≠ step.delta.operations then throw ⟨"migration_manifest_dependency_plan_mismatch"⟩
  let coverage ←
    verifyAssertionCoverage rules state.pendingAssertions step.delta
      state.currentSchema target context.semanticProfile
  match step.reverse with
  | none => pure ()
  | some reverse =>
      let restored ← verifyReverse context state.currentSchema target reverse
      rejectReverseAssertionRequirement rules reverse target restored
        context.semanticProfile
  return {
    currentSchema := target
    requiredCapabilities :=
      state.requiredCapabilities ∪ state.pendingAssertions.foldr (fun plan capabilities =>
            insert conditionalResolutionCapability
              plan.requiredCapabilities ∪ capabilities)
          ∅ ∪
        step.delta.requiredCapabilities
    safety := state.safety.max coverage.effectiveSafety
    reversible := state.reversible && step.reverse.isSome
    pendingAssertions := []
  }

def replayStep (rules : SafetyRules codec Condition Body) (context : ManagedDeltaContext)
    (state : ManifestReplay codec Body) :
    MigrationStep Digest Body → Except Diagnostic (ManifestReplay codec Body)
  | .backfill _ plan => replayBackfill context state plan
  | .assertion _ plan => do
      ensureSupportedBy (insert conditionalResolutionCapability plan.requiredCapabilities)
        context.availableCapabilities
      return { state with
        pendingAssertions := state.pendingAssertions ++ [plan] }
  | .schemaDelta step => replayDelta rules context state step

/-- What is known of a draft before its steps are replayed. -/
structure ManifestHeader (Digest : Type) where
  sourceState : ManagedSchemaState Digest
  loweringProfile : MigrationProfile
  profileBridge : Option MigrationProfile

/-- Check the source, the profiles and the shape of a draft. -/
def verifyHeader (draft : SchemaMigrationDraft Digest Body) (source : DeclaredSchema codec)
    (context : ManagedDeltaContext) :
    Except Diagnostic (ManifestHeader Digest) := do
  let sourceState ← (managedSchemaState source context).mapError deltaDiagnostic
  if sourceState.scope ≠ context.scopeId then throw ⟨"migration_manifest_scope_mismatch"⟩
  let _ ← SemanticProfile.resolve context.semanticProfile
  let loweringProfile ← loweringProfileBinding context.semanticProfile
  let profileBridge ←
    match draft.profileBridge with
    | none => pure none
    | some profile => some <$> validateProfileBridgeDraft profile draft context
  validateDraftShape draft profileBridge
  return ⟨sourceState, loweringProfile, profileBridge⟩

/-- A profile bridge starts in the state of its source under the old profile. -/
def bridgedState (source : DeclaredSchema codec) (context : ManagedDeltaContext)
    (header : ManifestHeader Digest) : Except Diagnostic (ManagedSchemaState Digest) :=
  match header.profileBridge with
  | none => .ok header.sourceState
  | some profile =>
      (managedSchemaState source
        { context with
          semanticProfile := profile.semanticProfileId }).mapError
            deltaDiagnostic

/-- Bind the replayed steps of a draft to the states they connect. -/
def sealManifest (draft : SchemaMigrationDraft Digest Body) (source : DeclaredSchema codec)
    (context : ManagedDeltaContext) (header : ManifestHeader Digest)
    (replayed : ManifestReplay codec Body) :
    Except Diagnostic (VerifiedSchemaMigrationManifest codec Body) := do
  if replayed.pendingAssertions.length ≠ 0 then throw ⟨"migration_manifest_orphan_assertion"⟩
  let targetState ← (managedSchemaState replayed.currentSchema context).mapError
      deltaDiagnostic
  let sourceState ← bridgedState source context header
  return {
    id := draft.id
    parents := draft.parents
    legacyParents := draft.legacyParents
    legacyAppliedSet := draft.legacyAppliedSet
    loweringProfile := header.loweringProfile
    managedScope := context.scopeId
    profileBridge := header.profileBridge
    requiredCapabilities := replayed.requiredCapabilities
    reversible := replayed.reversible && header.profileBridge.isNone
    safety := replayed.safety
    semanticProfile := context.semanticProfile
    sourceSchema := source
    sourceState := sourceState
    steps := draft.steps
    targetSchema := replayed.currentSchema
    targetState := targetState
  }

/-- The state before the first step. -/
def ManifestReplay.start (source : DeclaredSchema codec) : ManifestReplay codec Body where
  currentSchema := source
  requiredCapabilities := source.requiredCapabilities
  safety := .formalOnly
  reversible := true
  pendingAssertions := []

/-- Replay a draft against its declared source and managed context. -/
def buildVerifiedManifest (rules : SafetyRules codec Condition Body)
    (draft : SchemaMigrationDraft Digest Body) (source : DeclaredSchema codec)
    (context : ManagedDeltaContext) :
    Except Diagnostic (VerifiedSchemaMigrationManifest codec Body) := do
  let header ← verifyHeader draft source context
  let replayed ← draft.steps.foldlM (replayStep rules context) (.start source)
  sealManifest draft source context header replayed

end Verify

end TypeBridge.Migration
