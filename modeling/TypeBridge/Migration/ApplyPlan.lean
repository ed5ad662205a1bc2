import TypeBridge.Migration.History

namespace TypeBridge.Migration

open Library Schema

/-!
# Apply plans

An apply plan is verified before any provider is reached. It walks the
planned manifests from the state of the applied frontier, checks the policy,
the capabilities and the chain of states, and replays and lowers every step
again. Lowering a delta to provider statements and digesting a manifest are
parameters, collected in `PlanServices`.
-/

/-! ## Policy -/

/-- How the gate treats one safety class. -/
inductive SafetyPolicyDecision where
  | allow | requireApproval | reject
  deriving DecidableEq, Repr

def withinFloor : SafetyClass → SafetyPolicyDecision → Bool
  | .destructive, decision => decision ≠ .allow
  | .unclassified, decision => decision ≠ .allow
  | .backfillRequired, decision => decision ≠ .allow
  | .unsupported, decision => decision = .reject
  | _, _ => true

/-- A policy that never loosens the verifier's floor. -/
structure MigrationSafetyPolicy where
  decision : SafetyClass → SafetyPolicyDecision
  floor : ∀ safety, withinFloor safety (decision safety) = true

namespace MigrationSafetyPolicy

/-- Verified-safe classes execute, unresolved work stays rejected. -/
def defaultPolicy : MigrationSafetyPolicy where
  decision
    | .formalOnly | .schemaMetadata | .additive | .conditional => .allow
    | .destructive | .unclassified | .backfillRequired => .requireApproval
    | .unsupported => .reject
  floor safety := by cases safety <;> rfl

end MigrationSafetyPolicy

/-! ## Evidence -/

/-- A lowering registry and the capabilities it may use. -/
structure SchemaLoweringBinding where
  profile : MigrationProfile
  availableCapabilities : CapabilitySet
  deriving DecidableEq

/-- What planning computes outside the model: lowered statements and digests. -/
structure PlanServices {Bytes Digest : Type} (codec : Codec Bytes Digest)
    (Condition Body Lowered PlanDigest : Type) [DecidableEq Digest] where
  rules : SafetyRules codec Condition Body
  lower : SchemaDelta Digest → Inventory → Inventory → SchemaLoweringBinding →
      List Nat → Bool → Except Diagnostic Lowered
  manifestDigest : VerifiedSchemaMigrationManifest codec Body → Except Diagnostic PlanDigest
  planFingerprint : VerifiedSchemaMigrationManifest codec Body → PlanDigest

/-- A one-time approval of one exact transition. -/
structure MigrationApplyApproval (Digest PlanDigest : Type) where
  id : MigrationId
  loweringProfile : MigrationProfile
  manifestDigest : PlanDigest
  planFingerprint : PlanDigest
  safety : SafetyClass
  semanticProfile : SemanticProfileId
  sourceState : ManagedSchemaState Digest
  targetState : ManagedSchemaState Digest

/-- A failed check of a plan. -/
inductive MigrationApplyPlanError where
  | contract (diagnostic : Diagnostic)
  | schema (error : DeltaError)
  | lowering (diagnostic : Diagnostic)
  deriving DecidableEq

structure ValidatedMigrationAssertion (Digest Body : Type) where
  plan : MigrationAssertionPlan Body
  sourceState : ManagedSchemaState Digest
  deriving DecidableEq

/-- A manifest step with its execution evidence. -/
inductive VerifiedMigrationApplyStep (Digest Body Lowered : Type) [DecidableEq Digest] where
  | assertion (id : MigrationStepId) (plan : MigrationAssertionPlan Body)
      (validated : ValidatedMigrationAssertion Digest Body)
  | schemaDelta (step : SchemaDeltaStep Digest) (lowering : Lowered)
  | backfill (id : MigrationStepId) (plan : AttributeBackfillPlan Digest)

/-- Consecutive assertions and the one delta they guard. -/
structure VerifiedMigrationTransactionGroup where
  ordinal : Nat
  firstStepIndex : Nat
  schemaDeltaStepIndex : Nat
  deriving DecidableEq, Repr

structure VerifiedMigrationApplyManifest {Bytes Digest : Type} (codec : Codec Bytes Digest)
    (Body Lowered PlanDigest : Type) [DecidableEq Digest] where
  digest : PlanDigest
  manifest : VerifiedSchemaMigrationManifest codec Body
  steps : List (VerifiedMigrationApplyStep Digest Body Lowered)
  transactionGroups : List VerifiedMigrationTransactionGroup
  backfillStepIndices : List Nat

structure VerifiedMigrationApplyPlan {Bytes Digest : Type} (codec : Codec Bytes Digest)
    (Body Lowered PlanDigest : Type) [DecidableEq Digest] where
  appliedMigrations : List MigrationId
  appliedFrontier : List MigrationId
  migrations : List (VerifiedMigrationApplyManifest codec Body Lowered PlanDigest)
  requiredCapabilities : CapabilitySet
  sourceSchema : Option (DeclaredSchema codec)
  sourceState : Option (ManagedSchemaState Digest)
  targetFrontier : List MigrationId
  targetSchema : Option (DeclaredSchema codec)
  targetState : Option (ManagedSchemaState Digest)
  executionAuthorized : Bool

/-- What an apply plan leads to. -/
inductive MigrationApplyTarget where
  | defaultHead
  | explicit (targets : IdSet)

variable {Bytes Digest Condition Body Lowered PlanDigest : Type} {codec : Codec Bytes Digest}
  [DecidableEq Digest]

def contractCheck {α : Type} (check : Except Diagnostic α) : Except MigrationApplyPlanError α :=
  check.mapError .contract

def contractFailure {α : Type} (code : String) : Except MigrationApplyPlanError α :=
  .error (.contract ⟨code⟩)

def contractRequire (condition : Prop) [Decidable condition] (code : String) :
    Except MigrationApplyPlanError Unit :=
  if condition then .ok ()
  else contractFailure code

theorem contractRequire_eq_ok {condition : Prop} [Decidable condition] {code : String}
    {result : Unit} : contractRequire condition code = .ok result ↔ condition := by
  unfold contractRequire
  by_cases holds : condition <;> simp [holds, contractFailure]

/-! ## Transaction groups -/

section Groups

variable [DecidableEq Body]

def assertionEvidence (state : ManagedSchemaState Digest) :
    VerifiedMigrationApplyStep Digest Body Lowered → Except Diagnostic Unit
  | .assertion _ plan validated =>
      if validated.plan ≠ plan then .error ⟨"migration_apply_group_assertion_mismatch"⟩
      else if validated.sourceState ≠ state then
        .error ⟨"migration_apply_group_source_state_mismatch"⟩
      else .ok ()
  | _ => .error ⟨"migration_apply_group_step_kind_mismatch"⟩

def partitionStep (steps : List (VerifiedMigrationApplyStep Digest Body Lowered))
    (grouped : List VerifiedMigrationTransactionGroup × Nat)
    (entry : VerifiedMigrationApplyStep Digest Body Lowered × Nat) :
    Except Diagnostic (List VerifiedMigrationTransactionGroup × Nat) :=
  match entry.1 with
  | .assertion _ _ _ => .ok grouped
  | .backfill _ _ =>
      if grouped.2 ≠ entry.2 then .error ⟨"migration_apply_assertion_before_backfill"⟩
      else .ok (grouped.1, entry.2 + 1)
  | .schemaDelta step _ => do
      let _ ← ((steps.drop grouped.2).take (entry.2 - grouped.2)).mapM
          (assertionEvidence step.delta.source)
      return (grouped.1 ++ [⟨grouped.1.length, grouped.2, entry.2⟩], entry.2 + 1)

/-- Partition steps into assertions followed by their delta. -/
def partitionTransactionGroups (steps : List (VerifiedMigrationApplyStep Digest Body Lowered)) :
    Except Diagnostic (List VerifiedMigrationTransactionGroup) := do
  let grouped ← steps.zipIdx.foldlM (partitionStep steps) ([], 0)
  if grouped.2 ≠ steps.length then throw ⟨"migration_apply_group_orphan_assertion"⟩
  return grouped.1

end Groups

/-! ## The walk over planned manifests -/

/-- Compare one frontier member with those before it. -/
def coherentStep (graph : MigrationHistoryGraph codec Body)
    (current : Option (DeclaredSchema codec × ManagedSchemaState Digest)) (id : MigrationId) :
    Except MigrationApplyPlanError (Option (DeclaredSchema codec × ManagedSchemaState Digest)) :=
  match graph.manifests[id]? with
  | none => contractFailure "migration_apply_missing_frontier_manifest"
  | some manifest =>
      if ∃ reached ∈ current, reached.1.fingerprint ≠ manifest.targetSchema.fingerprint ∨
            reached.2 ≠ manifest.targetState then
        contractFailure "migration_apply_divergent_frontier"
      else .ok (some (manifest.targetSchema, manifest.targetState))

def coherentFrontierState (graph : MigrationHistoryGraph codec Body) (frontier : List MigrationId) :
    Except MigrationApplyPlanError (Option (DeclaredSchema codec × ManagedSchemaState Digest)) :=
  frontier.foldlM (coherentStep graph) none

def profileBridgeWithAncestors (graph : MigrationHistoryGraph codec Body) :
    Option (VerifiedSchemaMigrationManifest codec Body × Finset MigrationId) :=
  (graph.manifests.toList.find? fun entry => entry.2.isProfileBridge).map
    fun entry => (entry.2, reachable graph.manifests.keys graph.manifests.parents entry.1)

def bridgeAncestorExecution (graph : MigrationHistoryGraph codec Body)
    (manifest : VerifiedSchemaMigrationManifest codec Body) (context : ManagedDeltaContext)
    (binding : SchemaLoweringBinding) : Except MigrationApplyPlanError
      (ManagedDeltaContext × SchemaLoweringBinding) := do
  if manifest.loweringProfile = binding.profile then return (context, binding)
  match profileBridgeWithAncestors graph with
  | none => contractFailure "migration_apply_lowering_profile_mismatch"
  | some (bridge, ancestors) =>
      if bridge.semanticProfile ≠ context.semanticProfile ∨
          bridge.loweringProfile ≠ binding.profile ∨
          manifest.id ∉ ancestors ∨
          some manifest.semanticProfile ≠
            bridge.profileBridge.map MigrationProfile.semanticProfileId ∨
          some manifest.loweringProfile ≠ bridge.profileBridge then
        contractFailure "migration_apply_lowering_profile_mismatch"
      else
        match MigrationProfile.forSemanticProfile manifest.semanticProfile with
        | none => .error (.lowering ⟨"schema_lowering_semantic_profile_unsupported"⟩)
        | some profile =>
            if manifest.loweringProfile ≠ profile then
              contractFailure "migration_apply_lowering_profile_mismatch"
            else
              .ok ({ context with
                  semanticProfile := manifest.semanticProfile },
                ⟨profile, context.availableCapabilities⟩)

section Approval

variable [DecidableEq PlanDigest]

def MigrationApplyApproval.bindsIdentity
    (services : PlanServices codec Condition Body Lowered PlanDigest)
    (approval : MigrationApplyApproval Digest PlanDigest)
    (manifest : VerifiedSchemaMigrationManifest codec Body) : Except Diagnostic Bool :=
  if approval.id = manifest.id ∧ approval.planFingerprint = services.planFingerprint manifest ∧
      approval.semanticProfile = manifest.semanticProfile ∧
      approval.loweringProfile = manifest.loweringProfile then do
    let digest ← services.manifestDigest manifest
    return approval.manifestDigest = digest
  else .ok false

def MigrationApplyApproval.bindsTransition
    (services : PlanServices codec Condition Body Lowered PlanDigest)
    (manifest : VerifiedSchemaMigrationManifest codec Body) (safety : SafetyClass)
    (source target : ManagedSchemaState Digest)
    (approval : MigrationApplyApproval Digest PlanDigest) : Except Diagnostic Bool :=
  if approval.safety = safety ∧ approval.sourceState = source ∧ approval.targetState = target then
    approval.bindsIdentity services manifest
  else .ok false

def MigrationApplyApproval.forTransition
    (services : PlanServices codec Condition Body Lowered PlanDigest)
    (manifest : VerifiedSchemaMigrationManifest codec Body) (safety : SafetyClass)
    (rollback : Bool) :
    Except Diagnostic (MigrationApplyApproval Digest PlanDigest) := do
  let digest ← services.manifestDigest manifest
  return {
    id := manifest.id
    loweringProfile := manifest.loweringProfile
    manifestDigest := digest
    planFingerprint := services.planFingerprint manifest
    safety := safety
    semanticProfile := manifest.semanticProfile
    sourceState := if rollback then manifest.targetState else manifest.sourceState
    targetState := if rollback then manifest.sourceState else manifest.targetState
  }

def MigrationApplyApproval.forManifest
    (services : PlanServices codec Condition Body Lowered PlanDigest)
    (manifest : VerifiedSchemaMigrationManifest codec Body) :
    Except Diagnostic (MigrationApplyApproval Digest PlanDigest) :=
  forTransition services manifest manifest.safety false

def MigrationApplyApproval.forRollback
    (services : PlanServices codec Condition Body Lowered PlanDigest)
    (manifest : VerifiedSchemaMigrationManifest codec Body) (rollbackSafety : SafetyClass) :
    Except Diagnostic (MigrationApplyApproval Digest PlanDigest) :=
  forTransition services manifest rollbackSafety true

def anyBinds (binds : MigrationApplyApproval Digest PlanDigest → Except Diagnostic Bool) :
    List (MigrationApplyApproval Digest PlanDigest) → Except Diagnostic Bool
  | [] => .ok false
  | approval :: rest => do
      if ← binds approval then return true
      anyBinds binds rest

/-- Whether a transition is approved, or allowed without approval. -/
def policyGate (policy : MigrationSafetyPolicy) (safety : SafetyClass) (rejected required : String)
    (approved : Except Diagnostic Bool) : Except MigrationApplyPlanError Bool :=
  match policy.decision safety with
  | .allow => .ok false
  | .reject => contractFailure rejected
  | .requireApproval => do
      if ← contractCheck approved then return true
      contractFailure required

end Approval

structure ApplyReplay {Bytes Digest : Type} (codec : Codec Bytes Digest) (Body Lowered : Type)
    [DecidableEq Digest] where
  replayed : DeclaredSchema codec
  verifiedSteps : List (VerifiedMigrationApplyStep Digest Body Lowered)
  pendingAssertions : List (MigrationStepId × MigrationAssertionPlan Body)

section Walk

variable [DecidableEq Body] [DecidableEq PlanDigest]

/-- Replay a delta, compare its assertions and lower it. -/
def planDelta (services : PlanServices codec Condition Body Lowered PlanDigest)
    (context : ManagedDeltaContext) (binding : SchemaLoweringBinding) (approved : Bool)
    (replay : ApplyReplay codec Body Lowered) (step : SchemaDeltaStep Digest) :
    Except MigrationApplyPlanError (ApplyReplay codec Body Lowered) := do
  let target ← (applyDelta replay.replayed step.delta context).mapError .schema
  let coverage ←
    contractCheck (verifyAssertionCoverage services.rules
        (replay.pendingAssertions.map Prod.snd) step.delta replay.replayed
        target context.semanticProfile)
  let lowering ← (services.lower step.delta replay.replayed.facts target.facts binding
      coverage.dischargedOperationIndices approved).mapError .lowering
  let assertions :=
    (replay.pendingAssertions.zip coverage.validated).map fun pair =>
      .assertion pair.1.1 pair.1.2 ⟨pair.2, step.delta.source⟩
  return {
    replayed := target
    verifiedSteps := replay.verifiedSteps ++ assertions ++ [.schemaDelta step lowering]
    pendingAssertions := []
  }

def planStep (services : PlanServices codec Condition Body Lowered PlanDigest)
    (context : ManagedDeltaContext) (binding : SchemaLoweringBinding) (approved : Bool)
    (replay : ApplyReplay codec Body Lowered) (step : MigrationStep Digest Body) :
    Except MigrationApplyPlanError (ApplyReplay codec Body Lowered) := do
  contractCheck (ensureSupportedBy step.requiredCapabilities binding.availableCapabilities)
  match step with
  | .backfill id plan =>
      if replay.pendingAssertions.length ≠ 0 then
        contractFailure "migration_apply_assertion_before_backfill"
      else
        .ok { replay with
          verifiedSteps := replay.verifiedSteps ++ [.backfill id plan] }
  | .assertion id plan =>
      .ok { replay with
        pendingAssertions := replay.pendingAssertions ++ [(id, plan)] }
  | .schemaDelta step => planDelta services context binding approved replay step

def backfillStepIndices (steps : List (VerifiedMigrationApplyStep Digest Body Lowered)) :
    List Nat :=
  steps.zipIdx.filterMap fun entry =>
    match entry.1 with
    | .backfill _ _ => some entry.2
    | _ => none

/-- Replay the steps of a manifest and compare with its target. -/
def planSteps (services : PlanServices codec Condition Body Lowered PlanDigest)
    (context : ManagedDeltaContext) (binding : SchemaLoweringBinding) (approved : Bool)
    (current : DeclaredSchema codec) (manifest : VerifiedSchemaMigrationManifest codec Body) :
    Except MigrationApplyPlanError
      (VerifiedMigrationApplyManifest codec Body Lowered PlanDigest) := do
  let replay ←
    manifest.steps.foldlM (planStep services context binding approved) ⟨current, [], []⟩
  contractRequire (replay.pendingAssertions.length = 0)
    "migration_apply_orphan_assertion"
  contractRequire (replay.replayed.fingerprint = manifest.targetSchema.fingerprint)
    "migration_apply_manifest_replay_mismatch"
  let groups ← contractCheck (partitionTransactionGroups replay.verifiedSteps)
  let digest ← contractCheck (services.manifestDigest manifest)
  return {
    digest := digest
    manifest := manifest
    steps := replay.verifiedSteps
    transactionGroups := groups
    backfillStepIndices := backfillStepIndices replay.verifiedSteps
  }

structure ApplyWalk {Bytes Digest : Type} (codec : Codec Bytes Digest)
    (Body Lowered PlanDigest : Type) [DecidableEq Digest] where
  current : Option (DeclaredSchema codec × ManagedSchemaState Digest)
  migrations : List (VerifiedMigrationApplyManifest codec Body Lowered PlanDigest)
  requiredCapabilities : CapabilitySet

def continueChain (manifest : VerifiedSchemaMigrationManifest codec Body) :
    Option (DeclaredSchema codec × ManagedSchemaState Digest) →
      Except MigrationApplyPlanError (DeclaredSchema codec)
  -- An empty frontier starts wherever the first manifest does.
  | none => .ok manifest.sourceSchema
  | some (schema, state) =>
      if schema.fingerprint ≠ manifest.sourceSchema.fingerprint then
        contractFailure "migration_apply_schema_chain_mismatch"
      else if state ≠ manifest.sourceState then
        contractFailure "migration_apply_state_chain_mismatch"
      else .ok schema

structure PlanInputs (Digest PlanDigest : Type) where
  context : ManagedDeltaContext
  binding : SchemaLoweringBinding
  policy : MigrationSafetyPolicy
  approvals : List (MigrationApplyApproval Digest PlanDigest)
  executionAuthorized : Bool

def applyApproval (services : PlanServices codec Condition Body Lowered PlanDigest)
    (inputs : PlanInputs Digest PlanDigest)
    (manifest : VerifiedSchemaMigrationManifest codec Body) : Except MigrationApplyPlanError Bool :=
  if inputs.executionAuthorized then
    policyGate inputs.policy manifest.safety
      "migration_apply_safety_policy_rejected"
      "migration_apply_approval_required"
      (anyBinds (MigrationApplyApproval.bindsTransition services manifest
          manifest.safety manifest.sourceState manifest.targetState)
        inputs.approvals)
  else .ok true

def planManifest (services : PlanServices codec Condition Body Lowered PlanDigest)
    (graph : MigrationHistoryGraph codec Body) (inputs : PlanInputs Digest PlanDigest)
    (walk : ApplyWalk codec Body Lowered PlanDigest) (id : MigrationId) :
    Except MigrationApplyPlanError (ApplyWalk codec Body Lowered PlanDigest) :=
  match graph.manifests[id]? with
  | none => contractFailure "migration_apply_missing_verified_manifest"
  | some manifest => do
      let execution ← bridgeAncestorExecution graph manifest inputs.context inputs.binding
      let approved ← applyApproval services inputs manifest
      contractCheck
        (ensureSupportedBy manifest.requiredCapabilities execution.2.availableCapabilities)
      let _ ← contractCheck (SemanticProfile.resolve execution.1.semanticProfile)
      let current ← continueChain manifest walk.current
      let planned ← planSteps services execution.1 execution.2 approved current manifest
      return {
        current := some (manifest.targetSchema, manifest.targetState)
        migrations := walk.migrations ++ [planned]
        requiredCapabilities := walk.requiredCapabilities ∪ manifest.requiredCapabilities
      }

/-- The planned identities, parents first. -/
def plannedIds (graph : MigrationHistoryGraph codec Body) (applied : IdSet) :
    MigrationApplyTarget → Except Diagnostic (List MigrationId)
  | .defaultHead => graph.planApplyToDefaultHead applied
  | .explicit targets => graph.planApply applied targets

def plannedSourceState (state : Option (ManagedSchemaState Digest))
    (migrations : List (VerifiedMigrationApplyManifest codec Body Lowered PlanDigest)) :
    Option (ManagedSchemaState Digest) :=
  match migrations with
  | [] => state
  | first :: _ =>
      -- The live state before a profile bridge is read under its profile.
      if first.manifest.isProfileBridge then some first.manifest.targetState
      else state.or (some first.manifest.sourceState)

/-- Build an apply plan from a verified history. -/
def buildVerifiedMigrationApplyPlan
    (services : PlanServices codec Condition Body Lowered PlanDigest)
    (graph : MigrationHistoryGraph codec Body) (applied : IdSet) (target : MigrationApplyTarget)
    (inputs : PlanInputs Digest PlanDigest) : Except MigrationApplyPlanError
      (VerifiedMigrationApplyPlan codec Body Lowered PlanDigest) := do
  contractRequire (inputs.binding.availableCapabilities = inputs.context.availableCapabilities)
    "migration_apply_capability_context_mismatch"
  let ids ← contractCheck (plannedIds graph applied target)
  let frontier ← contractCheck (graph.appliedFrontier applied)
  let current ← coherentFrontierState graph frontier
  let walk ← ids.foldlM (planManifest services graph inputs) ⟨current, [], ∅⟩
  let reached :=
    walk.migrations.foldl (fun ids entry => ids.insert entry.manifest.id)
      applied
  let targetFrontier ← contractCheck (graph.appliedFrontier reached)
  return {
    appliedMigrations := applied.toList
    appliedFrontier := frontier
    migrations := walk.migrations
    requiredCapabilities := walk.requiredCapabilities
    sourceSchema :=
      (current.map Prod.fst).or (walk.migrations.head?.map (·.manifest.sourceSchema))
    sourceState := plannedSourceState (current.map Prod.snd) walk.migrations
    targetFrontier := targetFrontier
    targetSchema := walk.current.map Prod.fst
    targetState := walk.current.map Prod.snd
    executionAuthorized := inputs.executionAuthorized
  }

end Walk

end TypeBridge.Migration
