import TypeBridge.Migration.ApplyPlan

namespace TypeBridge.Migration

open Library Schema

/-!
# Rollback plans

A rollback plan runs the reverse programs of verified manifests, children
first. Each manifest must end in the state the walk has reached, and its
recorded reverse deltas are replayed, classified, gated by the policy and
lowered again, last step first.
-/

inductive VerifiedMigrationRollbackOperation where
  | schemaDelta (index : Nat)
  | backfill (index : Nat)
  deriving DecidableEq, Repr

structure VerifiedMigrationRollbackStep (Lowered : Type) where
  forwardStepId : MigrationStepId
  lowering : Lowered

structure VerifiedMigrationRollbackBackfillStep (Digest : Type) where
  forwardStepId : MigrationStepId
  plan : AttributeBackfillPlan Digest

/-- A manifest with its complete reverse program. -/
structure VerifiedMigrationRollbackManifest {Bytes Digest : Type} (codec : Codec Bytes Digest)
    (Body Lowered PlanDigest : Type) [DecidableEq Digest] where
  digest : PlanDigest
  manifest : VerifiedSchemaMigrationManifest codec Body
  rollbackSafety : SafetyClass
  steps : List (VerifiedMigrationRollbackStep Lowered)
  backfills : List (VerifiedMigrationRollbackBackfillStep Digest)
  operations : List VerifiedMigrationRollbackOperation

structure VerifiedMigrationRollbackPlan {Bytes Digest : Type} (codec : Codec Bytes Digest)
    (Body Lowered PlanDigest : Type) [DecidableEq Digest] where
  rollbacks : List (VerifiedMigrationRollbackManifest codec Body Lowered PlanDigest)
  remainingApplied : List MigrationId
  sourceState : ManagedSchemaState Digest
  targetSchema : DeclaredSchema codec
  targetState : ManagedSchemaState Digest
  executionAuthorized : Bool

variable {Bytes Digest Condition Body Lowered PlanDigest : Type} {codec : Codec Bytes Digest}
  [DecidableEq Digest]

/-- A replayed reverse delta that is not lowered yet. -/
structure ReverseDelta (Digest : Type) [DecidableEq Digest] where
  forwardStepId : MigrationStepId
  reverse : SchemaDelta Digest
  sourceFacts : Inventory
  targetFacts : Inventory
  dischargedOperationIndices : List Nat

/-- The reverse walk over one manifest; the current boundary comes first. -/
structure ReverseReplay {Bytes Digest : Type} (codec : Codec Bytes Digest)
    [DecidableEq Digest] where
  boundaries : List (DeclaredSchema codec)
  rollbackSafety : SafetyClass
  steps : List (ReverseDelta Digest)
  backfills : List (VerifiedMigrationRollbackBackfillStep Digest)
  operations : List VerifiedMigrationRollbackOperation

def replayBoundaries (context : ManagedDeltaContext)
    (manifest : VerifiedSchemaMigrationManifest codec Body) :
    Except MigrationApplyPlanError (List (DeclaredSchema codec)) :=
  manifest.steps.foldlM (fun boundaries step =>
      match step, boundaries with
      | .schemaDelta step, source :: _ => do
          let target ← (applyDelta source step.delta context).mapError .schema
          return target :: boundaries
      | _, _ => .ok boundaries)
    [manifest.sourceSchema]

section Walk

variable [DecidableEq Body] [DecidableEq PlanDigest]

def reverseBackfill (context : ManagedDeltaContext) (walk : ReverseReplay codec)
    (boundary : DeclaredSchema codec) (id : MigrationStepId) (plan : AttributeBackfillPlan Digest) :
    Except MigrationApplyPlanError (ReverseReplay codec) := do
  contractRequire plan.reverse.isSome
    "migration_rollback_irreversible_backfill"
  let state ← (managedSchemaState boundary context).mapError .schema
  contractRequire (plan.managedSemantics = state.managedSemanticSchema)
    "migration_rollback_backfill_schema_mismatch"
  return { walk with
    operations := walk.operations ++ [.backfill walk.backfills.length]
    backfills := walk.backfills ++ [⟨id, plan⟩]
    rollbackSafety := walk.rollbackSafety.max .destructive }

def reverseDelta (services : PlanServices codec Condition Body Lowered PlanDigest)
    (inputs : PlanInputs Digest PlanDigest) (walk : ReverseReplay codec)
    (stepTarget stepSource : DeclaredSchema codec) (earlier : List (DeclaredSchema codec))
    (step : SchemaDeltaStep Digest) (profile : SemanticProfileId) :
    Except MigrationApplyPlanError (ReverseReplay codec) :=
  match step.reverse with
  | none => contractFailure "migration_rollback_irreversible"
  | some reverse => do
      contractCheck
        (ensureSupportedBy reverse.requiredCapabilities inputs.binding.availableCapabilities)
      let restored ← (applyDelta stepTarget reverse inputs.context).mapError .schema
      contractRequire (restored.fingerprint = stepSource.fingerprint)
        "migration_rollback_reverse_replay_mismatch"
      let coverage ←
        contractCheck
          (verifyAssertionCoverage services.rules [] reverse stepTarget restored profile)
      return {
        boundaries := stepSource :: earlier
        rollbackSafety := walk.rollbackSafety.max coverage.effectiveSafety
        steps :=
          walk.steps ++ [⟨step.id, reverse, stepTarget.facts, restored.facts,
              coverage.dischargedOperationIndices⟩]
        backfills := walk.backfills
        operations := walk.operations ++ [.schemaDelta walk.steps.length]
      }

def reverseStep (services : PlanServices codec Condition Body Lowered PlanDigest)
    (inputs : PlanInputs Digest PlanDigest) (profile : SemanticProfileId)
    (walk : ReverseReplay codec) (step : MigrationStep Digest Body) :
    Except MigrationApplyPlanError (ReverseReplay codec) :=
  match step, walk.boundaries with
  | .backfill id plan, boundary :: _ => reverseBackfill inputs.context walk boundary id plan
  | .schemaDelta step, stepTarget :: stepSource :: earlier =>
      reverseDelta services inputs walk stepTarget stepSource earlier step
        profile
  -- Assertions guard forward execution only; there is a boundary for each
  -- delta.
  | _, _ => .ok walk

/-- A manifest may be rolled back under this binding. -/
def rollbackAllowed (inputs : PlanInputs Digest PlanDigest)
    (manifest : VerifiedSchemaMigrationManifest codec Body) : Except MigrationApplyPlanError Unit :=
  if manifest.isLegacyBridge then contractFailure "migration_rollback_legacy_bridge_permanent"
  else if manifest.isProfileBridge ∨ manifest.semanticProfile ≠ inputs.context.semanticProfile then
    contractFailure "migration_rollback_profile_bridge"
  else if manifest.loweringProfile ≠ inputs.binding.profile then
    contractFailure "migration_rollback_lowering_profile_mismatch"
  else if manifest.reversible = false then contractFailure "migration_rollback_irreversible"
  else .ok ()

/-- Whether the policy or an approval admits a rollback. -/
def rollbackApproval (services : PlanServices codec Condition Body Lowered PlanDigest)
    (inputs : PlanInputs Digest PlanDigest) (manifest : VerifiedSchemaMigrationManifest codec Body)
    (rollbackSafety : SafetyClass) : Except MigrationApplyPlanError Bool :=
  if inputs.executionAuthorized then
    policyGate inputs.policy rollbackSafety
      "migration_rollback_safety_policy_rejected"
      "migration_rollback_approval_required"
      (anyBinds (MigrationApplyApproval.bindsTransition services manifest
          rollbackSafety manifest.targetState manifest.sourceState)
        inputs.approvals)
  else .ok true

def reverseManifest (services : PlanServices codec Condition Body Lowered PlanDigest)
    (inputs : PlanInputs Digest PlanDigest)
    (manifest : VerifiedSchemaMigrationManifest codec Body) : Except MigrationApplyPlanError
      (VerifiedMigrationRollbackManifest codec Body Lowered PlanDigest) := do
  let _ ← contractCheck (SemanticProfile.resolve manifest.semanticProfile)
  let boundaries ← replayBoundaries inputs.context manifest
  let walk ←
    manifest.steps.reverse.foldlM (reverseStep services inputs manifest.semanticProfile)
      ⟨boundaries, .formalOnly, [], [], []⟩
  let approved ← rollbackApproval services inputs manifest walk.rollbackSafety
  let steps ←
    walk.steps.mapM fun step => do
      let lowering ← (services.lower step.reverse step.sourceFacts step.targetFacts
          inputs.binding step.dischargedOperationIndices approved).mapError
            .lowering
      return (⟨step.forwardStepId, lowering⟩ : VerifiedMigrationRollbackStep Lowered)
  let digest ← contractCheck (services.manifestDigest manifest)
  return {
    digest := digest
    manifest := manifest
    rollbackSafety := walk.rollbackSafety
    steps := steps
    backfills := walk.backfills
    operations := walk.operations
  }

structure RollbackWalk {Bytes Digest : Type} (codec : Codec Bytes Digest)
    (Body Lowered PlanDigest : Type) [DecidableEq Digest] where
  currentSchema : DeclaredSchema codec
  currentState : ManagedSchemaState Digest
  rollbacks : List (VerifiedMigrationRollbackManifest codec Body Lowered PlanDigest)

def rollbackManifest (services : PlanServices codec Condition Body Lowered PlanDigest)
    (graph : MigrationHistoryGraph codec Body) (inputs : PlanInputs Digest PlanDigest)
    (walk : RollbackWalk codec Body Lowered PlanDigest) (id : MigrationId) :
    Except MigrationApplyPlanError (RollbackWalk codec Body Lowered PlanDigest) :=
  match graph.manifests[id]? with
  | none => contractFailure "migration_rollback_missing_verified_manifest"
  | some manifest => do
      rollbackAllowed inputs manifest
      contractRequire (walk.currentState = manifest.targetState ∧
          walk.currentSchema.fingerprint = manifest.targetSchema.fingerprint)
        "migration_rollback_state_chain_mismatch"
      let rolledBack ← reverseManifest services inputs manifest
      return {
        currentSchema := manifest.sourceSchema
        currentState := manifest.sourceState
        rollbacks := walk.rollbacks ++ [rolledBack]
      }

/-- Build a rollback plan from a verified history. -/
def buildVerifiedMigrationRollbackPlan
    (services : PlanServices codec Condition Body Lowered PlanDigest)
    (graph : MigrationHistoryGraph codec Body) (applied removals : IdSet)
    (inputs : PlanInputs Digest PlanDigest) : Except MigrationApplyPlanError
      (VerifiedMigrationRollbackPlan codec Body Lowered PlanDigest) := do
  contractRequire (inputs.binding.availableCapabilities = inputs.context.availableCapabilities)
    "migration_rollback_capability_context_mismatch"
  let ids ← contractCheck (graph.planRollback applied removals)
  let frontier ← contractCheck (graph.appliedFrontier applied)
  let current ← coherentFrontierState graph frontier
  match current with
  | none => contractFailure "migration_rollback_empty_applied"
  | some (schema, state) => do
      let walk ←
        ids.foldlM (rollbackManifest services graph inputs) ⟨schema, state, []⟩
      return {
        rollbacks := walk.rollbacks
        remainingApplied := applied.toList.filter (· ∉ removals)
        sourceState := state
        targetSchema := walk.currentSchema
        targetState := walk.currentState
        executionAuthorized := inputs.executionAuthorized
      }

end Walk

end TypeBridge.Migration
