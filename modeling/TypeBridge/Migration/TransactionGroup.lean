import TypeBridge.Migration.Coverage
import TypeBridge.Migration.RollbackPlan

namespace TypeBridge.Migration

open Library Schema
open Library.Checked hiding get

/-!
# The steps of planned manifests

A plan walks its manifests one by one and the steps of each manifest in order.
The verified steps of a manifest fall into blocks: a backfill, or assertions
followed by the delta they guard. The transaction groups are exactly the
blocks that end in a delta.

Each entry of a plan is the result of planning its manifest on its own, so
whatever holds of one planned manifest holds of every entry.
-/

variable {Bytes Digest Condition Body Lowered PlanDigest : Type} {codec : Codec Bytes Digest}
  [DecidableEq Digest]

/-! ## Blocks of verified steps -/

inductive StepBlock (Digest Body Lowered : Type) [DecidableEq Digest] where
  | backfill (id : MigrationStepId) (plan : AttributeBackfillPlan Digest)
  | guarded (assertions : List ((MigrationStepId × MigrationAssertionPlan Body) ×
          ValidatedMigrationAssertion Digest Body))
      (step : SchemaDeltaStep Digest)
      (lowering : Lowered)

def StepBlock.steps :
    StepBlock Digest Body Lowered → List (VerifiedMigrationApplyStep Digest Body Lowered)
  | .backfill id plan => [.backfill id plan]
  | .guarded assertions step lowering =>
      assertions.map (fun pair => .assertion pair.1.1 pair.1.2 pair.2) ++
        [.schemaDelta step lowering]

def groupsOf :
    List (StepBlock Digest Body Lowered) → Nat → Nat → List VerifiedMigrationTransactionGroup
  | [], _, _ => []
  | .backfill _ _ :: rest, ordinal, first => groupsOf rest ordinal (first + 1)
  | .guarded assertions _ _ :: rest, ordinal, first =>
      ⟨ordinal, first, first + assertions.length⟩ ::
        groupsOf rest (ordinal + 1) (first + assertions.length + 1)

section Partition

variable {steps : List (VerifiedMigrationApplyStep Digest Body Lowered)}

theorem foldlM_partitionStep_assertions
    (assertions : List ((MigrationStepId × MigrationAssertionPlan Body) ×
        ValidatedMigrationAssertion Digest Body)) (position : Nat)
    (grouped : List VerifiedMigrationTransactionGroup × Nat) [DecidableEq Body] :
    ((assertions.map fun pair => (.assertion pair.1.1 pair.1.2 pair.2 :
          VerifiedMigrationApplyStep Digest Body Lowered)).zipIdx
            position).foldlM (partitionStep steps) grouped = .ok grouped := by
  induction assertions generalizing position with
  | nil => rfl
  | cons first rest ih => exact ih (position + 1)

variable [DecidableEq Body] {blocks : List (StepBlock Digest Body Lowered)} {first : Nat}

theorem foldlM_partitionStep_blocks {groups : List VerifiedMigrationTransactionGroup}
    {result : List VerifiedMigrationTransactionGroup × Nat}
    (run : ((blocks.flatMap StepBlock.steps).zipIdx first).foldlM
          (partitionStep steps) (groups, first) = .ok result) :
    result.1 = groups ++ groupsOf blocks groups.length first := by
  induction blocks generalizing groups first with
  | nil =>
    cases run
    simp [groupsOf]
  | cons block rest ih =>
    rw [List.flatMap_cons, List.zipIdx_append] at run
    obtain ⟨middle, stepped, run⟩ := foldlM_append_eq_ok.mp run
    cases block with
    | backfill id plan =>
      obtain ⟨_, same, ended⟩ := foldlM_cons_eq_ok.mp stepped
      cases ended
      have kept : middle = (groups, first + 1) := by simpa [partitionStep] using same.symm
      subst kept
      exact ih run
    | guarded assertions step lowering =>
      unfold StepBlock.steps at stepped run
      rw [List.zipIdx_append] at stepped
      obtain ⟨before, asserted, ended⟩ := foldlM_append_eq_ok.mp stepped
      rw [foldlM_partitionStep_assertions] at asserted
      cases asserted
      obtain ⟨_, grouped, ended⟩ := foldlM_cons_eq_ok.mp ended
      cases ended
      obtain ⟨_, -, grouped⟩ := bind_eq_ok.mp grouped
      rw [pure_eq_ok] at grouped
      simp only [List.length_map, List.length_append,
        List.length_singleton, Nat.add_assoc] at grouped run
      subst grouped
      rw [ih run]
      simp only [groupsOf, List.length_append, List.length_singleton,
        List.append_assoc, List.singleton_append, Nat.add_assoc]

omit [DecidableEq Body] in
theorem mem_groupsOf {ordinal : Nat} {group : VerifiedMigrationTransactionGroup}
    (member : group ∈ groupsOf blocks ordinal first) : ∃ earlier assertions step lowering later,
      blocks = earlier ++ .guarded assertions step lowering :: later ∧ group.firstStepIndex =
          first + (earlier.flatMap StepBlock.steps).length ∧ group.schemaDeltaStepIndex =
          group.firstStepIndex + assertions.length := by
  induction blocks generalizing ordinal first with
  | nil => cases member
  | cons block rest ih =>
    cases block with
    | backfill id plan =>
      obtain ⟨earlier, assertions, step, lowering, later, shape, starts, ends⟩ := ih member
      refine ⟨.backfill id plan :: earlier, assertions, step, lowering,
        later, by rw [shape]; rfl, ?_, ends⟩
      rw [starts, List.flatMap_cons]
      simp [StepBlock.steps, Nat.add_assoc, Nat.add_comm]
    | guarded assertions step lowering =>
      rcases List.mem_cons.mp member with isFirst | isLater
      · subst isFirst
        exact ⟨[], assertions, step, lowering, rest, rfl, by simp, rfl⟩
      · obtain ⟨earlier, others, otherStep, otherLowering, later, shape, starts, ends⟩ := ih isLater
        refine ⟨.guarded assertions step lowering :: earlier, others,
          otherStep, otherLowering, later, by rw [shape]; rfl, ?_, ends⟩
        rw [starts, List.flatMap_cons]
        simp [StepBlock.steps]
        omega

end Partition

/-! ## Planned deltas -/

section Walk

variable [DecidableEq Body] {services : PlanServices codec Condition Body Lowered PlanDigest}
  {context : ManagedDeltaContext} {binding : SchemaLoweringBinding} {approved : Bool}

/-- The checks behind a delta and the assertions that guard it. -/
structure PlannedDelta (services : PlanServices codec Condition Body Lowered PlanDigest)
    (context : ManagedDeltaContext) (profile : SemanticProfileId) (binding : SchemaLoweringBinding)
    (approved : Bool) (assertions : List (MigrationAssertionPlan Body)) (delta : SchemaDelta Digest)
    (lowering : Lowered) (source target : DeclaredSchema codec)
    (coverage : VerifiedAssertionCoverage Body) : Prop where
  applied : applyDelta source delta context = .ok target
  covered : verifyAssertionCoverage services.rules assertions delta source target
      profile = .ok coverage
  lowered : services.lower delta source.facts target.facts binding
      coverage.dischargedOperationIndices approved = .ok lowering

def StepBlock.Planned (services : PlanServices codec Condition Body Lowered PlanDigest)
    (context : ManagedDeltaContext) (binding : SchemaLoweringBinding) (approved : Bool) :
    StepBlock Digest Body Lowered → Prop
  | .backfill _ _ => True
  | .guarded assertions step lowering =>
      ∃ source target coverage, PlannedDelta services context context.semanticProfile binding
          approved (assertions.map (·.1.2)) step.delta lowering source target
          coverage

variable {replay reached : ApplyReplay codec Body Lowered}

theorem planStep_blocks {step : MigrationStep Digest Body}
    (planned : planStep services context binding approved replay step = .ok reached) :
    ∃ blocks : List (StepBlock Digest Body Lowered), reached.verifiedSteps =
          replay.verifiedSteps ++ blocks.flatMap StepBlock.steps ∧ ∀ block ∈ blocks,
          block.Planned services context binding approved := by
  obtain ⟨_, -, planned⟩ := bind_eq_ok.mp planned
  cases step with
  | backfill id plan =>
    obtain ⟨-, planned⟩ := guard_eq_ok.mp planned
    cases planned
    refine ⟨[.backfill id plan], rfl, ?_⟩
    intro block member
    rw [List.mem_singleton] at member
    subst member
    trivial
  | assertion id plan =>
    cases planned
    exact ⟨[], by simp, by simp⟩
  | schemaDelta step =>
    obtain ⟨target, applied, planned⟩ := bind_eq_ok.mp planned
    obtain ⟨coverage, covered, planned⟩ := bind_eq_ok.mp planned
    obtain ⟨lowering, lowered, planned⟩ := bind_eq_ok.mp planned
    rw [pure_eq_ok] at planned
    subst planned
    have isCovered := mapError_eq_ok.mp covered
    have sameLength := length_validated isCovered
    rw [List.length_map] at sameLength
    refine ⟨[.guarded ((replay.pendingAssertions.zip coverage.validated).map fun pair =>
        (pair.1, ⟨pair.2, step.delta.source⟩)) step lowering], ?_, ?_⟩
    · simp [StepBlock.steps, List.map_map, Function.comp_def]
    · intro block member
      rw [List.mem_singleton] at member
      subst member
      refine ⟨replay.replayed, target, coverage, mapError_eq_ok.mp applied, ?_,
        mapError_eq_ok.mp lowered⟩
      have unzipped : ((replay.pendingAssertions.zip coverage.validated).map
            fun pair => pair.1.2) = replay.pendingAssertions.map Prod.snd := by
        have composed : ((replay.pendingAssertions.zip coverage.validated).map
              fun pair => pair.1.2) = ((replay.pendingAssertions.zip coverage.validated).map
                Prod.fst).map Prod.snd := by
          rw [List.map_map]
          rfl
        rw [composed, List.map_fst_zip (le_of_eq sameLength.symm)]
      rw [List.map_map]
      simp only [Function.comp_def]
      rw [unzipped]
      exact isCovered

theorem foldlM_planStep_blocks {steps : List (MigrationStep Digest Body)}
    (run : steps.foldlM (planStep services context binding approved) replay = .ok reached) :
    ∃ blocks : List (StepBlock Digest Body Lowered), reached.verifiedSteps =
          replay.verifiedSteps ++ blocks.flatMap StepBlock.steps ∧ ∀ block ∈ blocks,
          block.Planned services context binding approved := by
  induction steps generalizing replay with
  | nil =>
    cases run
    exact ⟨[], by simp, by simp⟩
  | cons first rest ih =>
    obtain ⟨middle, stepped, run⟩ := foldlM_cons_eq_ok.mp run
    obtain ⟨firstBlocks, extended, firstPlanned⟩ := planStep_blocks stepped
    obtain ⟨restBlocks, finished, restPlanned⟩ := ih run
    refine ⟨firstBlocks ++ restBlocks, ?_, ?_⟩
    · rw [finished, extended, List.flatMap_append, List.append_assoc]
    · intro block member
      rcases List.mem_append.mp member with isFirst | isRest
      · exact firstPlanned block isFirst
      · exact restPlanned block isRest

variable {current : DeclaredSchema codec} {manifest : VerifiedSchemaMigrationManifest codec Body}
  {entry : VerifiedMigrationApplyManifest codec Body Lowered PlanDigest}

variable (planned : planSteps services context binding approved current manifest = .ok entry)
include planned

/-- A planned manifest replays all its steps, and its groups are those of its apply steps. -/
theorem planSteps_eq_ok :
    ∃ replay, manifest.steps.foldlM (planStep services context binding approved)
        ⟨current, [], []⟩ = .ok replay ∧ replay.pendingAssertions = [] ∧
      entry.manifest = manifest ∧ entry.steps = replay.verifiedSteps ∧
      partitionTransactionGroups entry.steps = .ok entry.transactionGroups := by
  obtain ⟨replay, run, planned⟩ := bind_eq_ok.mp planned
  obtain ⟨_, noneLeft, planned⟩ := bind_eq_ok.mp planned
  obtain ⟨_, -, planned⟩ := bind_eq_ok.mp planned
  obtain ⟨groups, partitioned, planned⟩ := bind_eq_ok.mp planned
  obtain ⟨_, -, planned⟩ := bind_eq_ok.mp planned
  rw [pure_eq_ok] at planned
  subst planned
  exact ⟨replay, run, List.length_eq_zero_iff.mp (contractRequire_eq_ok.mp noneLeft), rfl, rfl,
    mapError_eq_ok.mp partitioned⟩

theorem manifest_of_planSteps : entry.manifest = manifest := by
  obtain ⟨_, -, -, same, -⟩ := planSteps_eq_ok planned
  exact same

theorem exists_blocks_of_planSteps :
    ∃ blocks : List (StepBlock Digest Body Lowered), entry.steps = blocks.flatMap StepBlock.steps ∧
        entry.transactionGroups = groupsOf blocks 0 0 ∧ ∀ block ∈ blocks,
          block.Planned services context binding approved := by
  obtain ⟨replay, run, -, -, steps, partitioned⟩ := planSteps_eq_ok planned
  obtain ⟨blocks, listed, allPlanned⟩ := foldlM_planStep_blocks run
  obtain ⟨grouped, folded, ended⟩ := bind_eq_ok.mp partitioned
  have blocksListed := steps.trans listed
  refine ⟨blocks, blocksListed, ?_, allPlanned⟩
  rw [blocksListed] at folded
  have listedGroups := foldlM_partitionStep_blocks folded
  split at ended
  · cases ended
  · rw [← pure_eq_ok.mp ended]
    exact listedGroups

theorem exists_plannedGroup {group : VerifiedMigrationTransactionGroup}
    (member : group ∈ entry.transactionGroups) :
    ∃ earlier assertions step lowering later, entry.steps =
          earlier ++ (StepBlock.guarded assertions step lowering).steps ++ later ∧
        group.firstStepIndex = earlier.length ∧
        group.schemaDeltaStepIndex = earlier.length + assertions.length ∧
        (StepBlock.guarded assertions step lowering).Planned services context binding approved := by
  obtain ⟨blocks, listed, grouped, allPlanned⟩ := exists_blocks_of_planSteps planned
  rw [grouped] at member
  obtain ⟨earlier, assertions, step, lowering, later, shape, starts, ends⟩ := mem_groupsOf member
  refine ⟨earlier.flatMap StepBlock.steps, assertions, step, lowering,
    later.flatMap StepBlock.steps, ?_, ?_, ?_, ?_⟩
  · rw [listed, shape]
    simp
  · rw [starts, Nat.zero_add]
  · rw [ends, starts, Nat.zero_add]
  · exact allPlanned _ (by rw [shape]; simp)

end Walk

/-! ## Entries of plans -/

section Entries

variable [DecidableEq Body] [DecidableEq PlanDigest]
  {services : PlanServices codec Condition Body Lowered PlanDigest}
  {graph : MigrationHistoryGraph codec Body} {inputs : PlanInputs Digest PlanDigest}

structure PlannedEntry (services : PlanServices codec Condition Body Lowered PlanDigest)
    (graph : MigrationHistoryGraph codec Body) (inputs : PlanInputs Digest PlanDigest)
    (entry : VerifiedMigrationApplyManifest codec Body Lowered PlanDigest)
    (context : ManagedDeltaContext) (binding : SchemaLoweringBinding) (approved : Bool)
    (current : DeclaredSchema codec) : Prop where
  found : graph.manifests[entry.manifest.id]? = some entry.manifest
  execution : bridgeAncestorExecution graph entry.manifest inputs.context
      inputs.binding = .ok (context, binding)
  gate : applyApproval services inputs entry.manifest = .ok approved
  steps : planSteps services context binding approved current entry.manifest = .ok entry

variable {walk reached : ApplyWalk codec Body Lowered PlanDigest}

theorem planManifest_entry {id : MigrationId}
    (planned : planManifest services graph inputs walk id = .ok reached) :
    ∃ entry context binding approved current, reached.migrations = walk.migrations ++ [entry] ∧
        entry.manifest.id = id ∧ PlannedEntry services graph inputs entry context binding approved
          current ∧ continueChain entry.manifest walk.current = .ok current := by
  unfold planManifest at planned
  cases found : graph.manifests[id]? with
  | none =>
    rw [found] at planned
    cases planned
  | some manifest =>
    rw [found] at planned
    obtain ⟨execution, executes, planned⟩ := bind_eq_ok.mp planned
    obtain ⟨approved, gate, planned⟩ := bind_eq_ok.mp planned
    obtain ⟨_, -, planned⟩ := bind_eq_ok.mp planned
    obtain ⟨_, -, planned⟩ := bind_eq_ok.mp planned
    obtain ⟨schema, continued, planned⟩ := bind_eq_ok.mp planned
    obtain ⟨entry, verified, planned⟩ := bind_eq_ok.mp planned
    rw [pure_eq_ok] at planned
    subst planned
    have same := manifest_of_planSteps verified
    have keyed := graph.keyed id manifest found
    rw [← same] at found executes gate verified keyed continued
    exact ⟨entry, execution.1, execution.2, approved, schema, rfl, keyed,
      ⟨by rw [keyed]; exact found, executes, gate, verified⟩, continued⟩

variable {ids : List MigrationId}

theorem foldlM_planManifest_entries
    (run : ids.foldlM (planManifest services graph inputs) walk = .ok reached)
    (planned : ∀ entry ∈ walk.migrations, ∃ context binding approved current,
        PlannedEntry services graph inputs entry context binding approved current ∧
          ∃ before, continueChain entry.manifest before = .ok current) :
    ∀ entry ∈ reached.migrations, ∃ context binding approved current,
      PlannedEntry services graph inputs entry context binding approved current ∧
        ∃ before, continueChain entry.manifest before = .ok current := by
  induction ids generalizing walk with
  | nil =>
    cases run
    exact planned
  | cons first rest ih =>
    obtain ⟨middle, stepped, run⟩ := foldlM_cons_eq_ok.mp run
    obtain ⟨added, context, binding, approved, current, extended, -,
      isPlanned, continued⟩ := planManifest_entry stepped
    refine ih run ?_
    intro entry member
    rw [extended] at member
    rcases List.mem_append.mp member with older | isAdded
    · exact planned entry older
    · rw [List.mem_singleton] at isAdded
      subst isAdded
      exact ⟨context, binding, approved, current, isPlanned, _, continued⟩

variable {applied : IdSet}

theorem exists_plannedEntry {target : MigrationApplyTarget}
    {plan : VerifiedMigrationApplyPlan codec Body Lowered PlanDigest}
    (built : buildVerifiedMigrationApplyPlan services graph applied target inputs = .ok plan)
    {entry : VerifiedMigrationApplyManifest codec Body Lowered PlanDigest}
    (member : entry ∈ plan.migrations) : ∃ context binding approved current,
      PlannedEntry services graph inputs entry context binding approved current ∧
        ∃ before, continueChain entry.manifest before = .ok current := by
  obtain ⟨_, -, built⟩ := bind_eq_ok.mp built
  obtain ⟨ids, -, built⟩ := bind_eq_ok.mp built
  obtain ⟨frontier, -, built⟩ := bind_eq_ok.mp built
  obtain ⟨current, -, built⟩ := bind_eq_ok.mp built
  obtain ⟨walk, run, built⟩ := bind_eq_ok.mp built
  obtain ⟨_, -, built⟩ := bind_eq_ok.mp built
  rw [pure_eq_ok] at built
  subst built
  exact foldlM_planManifest_entries run (by simp) entry member

structure ReversedEntry (services : PlanServices codec Condition Body Lowered PlanDigest)
    (graph : MigrationHistoryGraph codec Body) (inputs : PlanInputs Digest PlanDigest)
    (entry : VerifiedMigrationRollbackManifest codec Body Lowered PlanDigest) : Prop where
  found : graph.manifests[entry.manifest.id]? = some entry.manifest
  steps : reverseManifest services inputs entry.manifest = .ok entry

/-- A reverse delta between two schemas whose assertion coverage was verified. -/
def CoveredReverse (services : PlanServices codec Condition Body Lowered PlanDigest)
    (inputs : PlanInputs Digest PlanDigest) (profile : SemanticProfileId)
    (delta : ReverseDelta Digest) : Prop :=
  ∃ (source target : DeclaredSchema codec) (coverage : VerifiedAssertionCoverage Body),
    applyDelta source delta.reverse inputs.context = .ok target ∧
      verifyAssertionCoverage services.rules [] delta.reverse source target profile = .ok coverage ∧
      delta.sourceFacts = source.facts ∧ delta.targetFacts = target.facts ∧
      delta.dischargedOperationIndices = coverage.dischargedOperationIndices

variable {profile : SemanticProfileId} {delta : ReverseDelta Digest}

omit [DecidableEq PlanDigest] in
theorem reverseStep_covered {walk reached : ReverseReplay codec} {step : MigrationStep Digest Body}
    (reversed : reverseStep services inputs profile walk step = .ok reached)
    (member : delta ∈ reached.steps) :
    delta ∈ walk.steps ∨ CoveredReverse services inputs profile delta := by
  unfold reverseStep at reversed
  split at reversed
  · obtain ⟨_, -, reversed⟩ := bind_eq_ok.mp reversed
    obtain ⟨_, -, reversed⟩ := bind_eq_ok.mp reversed
    obtain ⟨_, -, reversed⟩ := bind_eq_ok.mp reversed
    cases reversed
    exact Or.inl member
  · rename_i stepTarget stepSource earlier _
    unfold reverseDelta at reversed
    split at reversed
    · cases reversed
    · obtain ⟨_, -, reversed⟩ := bind_eq_ok.mp reversed
      obtain ⟨restored, applied, reversed⟩ := bind_eq_ok.mp reversed
      obtain ⟨_, -, reversed⟩ := bind_eq_ok.mp reversed
      obtain ⟨coverage, covered, reversed⟩ := bind_eq_ok.mp reversed
      cases reversed
      rcases List.mem_append.mp member with older | isNew
      · exact Or.inl older
      · rw [List.mem_singleton] at isNew
        subst isNew
        exact Or.inr ⟨stepTarget, restored, coverage, mapError_eq_ok.mp applied,
          mapError_eq_ok.mp covered, rfl, rfl, rfl⟩
  · cases reversed
    exact Or.inl member

omit [DecidableEq PlanDigest] in
theorem foldlM_reverseStep_covered {steps : List (MigrationStep Digest Body)}
    {walk reached : ReverseReplay codec}
    (run : steps.foldlM (reverseStep services inputs profile) walk = .ok reached)
    (member : delta ∈ reached.steps) :
    delta ∈ walk.steps ∨ CoveredReverse services inputs profile delta := by
  induction steps generalizing walk with
  | nil =>
    cases run
    exact Or.inl member
  | cons first rest ih =>
    obtain ⟨middle, stepped, run⟩ := foldlM_cons_eq_ok.mp run
    rcases ih run with inMiddle | isCovered
    · exact reverseStep_covered stepped inMiddle
    · exact Or.inr isCovered

variable {entry : VerifiedMigrationRollbackManifest codec Body Lowered PlanDigest}

theorem exists_plannedReverse {manifest : VerifiedSchemaMigrationManifest codec Body}
    (reversed : reverseManifest services inputs manifest = .ok entry) :
    entry.manifest = manifest ∧ ∃ approved,
        rollbackApproval services inputs manifest entry.rollbackSafety = .ok approved ∧
          ∀ step ∈ entry.steps, ∃ delta source target coverage,
            PlannedDelta services inputs.context manifest.semanticProfile
              inputs.binding approved [] delta step.lowering source target coverage := by
  obtain ⟨_, -, reversed⟩ := bind_eq_ok.mp reversed
  obtain ⟨boundaries, -, reversed⟩ := bind_eq_ok.mp reversed
  obtain ⟨walk, run, reversed⟩ := bind_eq_ok.mp reversed
  obtain ⟨approved, gate, reversed⟩ := bind_eq_ok.mp reversed
  obtain ⟨steps, lowered, reversed⟩ := bind_eq_ok.mp reversed
  obtain ⟨_, -, reversed⟩ := bind_eq_ok.mp reversed
  rw [pure_eq_ok] at reversed
  subst reversed
  refine ⟨rfl, approved, gate, ?_⟩
  intro step member
  obtain ⟨delta, isDelta, stepLowered⟩ := (mem_of_mapM_eq_ok lowered).mp member
  obtain ⟨lowering, isLowered, ended⟩ := bind_eq_ok.mp stepLowered
  cases ended
  rcases foldlM_reverseStep_covered run isDelta with older | isCovered
  · cases older
  · obtain ⟨source, target, coverage, applied, covered, sourceFacts,
      targetFacts, discharged⟩ := isCovered
    refine ⟨delta.reverse, source, target, coverage, applied, covered, ?_⟩
    rw [← sourceFacts, ← targetFacts, ← discharged]
    exact mapError_eq_ok.mp isLowered

theorem foldlM_rollbackManifest_entries {walk reached : RollbackWalk codec Body Lowered PlanDigest}
    (run : ids.foldlM (rollbackManifest services graph inputs) walk = .ok reached)
    (reversed : ∀ entry ∈ walk.rollbacks, ReversedEntry services graph inputs entry) :
    ∀ entry ∈ reached.rollbacks, ReversedEntry services graph inputs entry := by
  induction ids generalizing walk with
  | nil =>
    cases run
    exact reversed
  | cons first rest ih =>
    obtain ⟨middle, stepped, run⟩ := foldlM_cons_eq_ok.mp run
    refine ih run ?_
    unfold rollbackManifest at stepped
    cases found : graph.manifests[first]? with
    | none =>
      rw [found] at stepped
      cases stepped
    | some manifest =>
      rw [found] at stepped
      obtain ⟨_, -, stepped⟩ := bind_eq_ok.mp stepped
      obtain ⟨_, -, stepped⟩ := bind_eq_ok.mp stepped
      obtain ⟨added, isReversed, stepped⟩ := bind_eq_ok.mp stepped
      rw [pure_eq_ok] at stepped
      subst stepped
      intro entry member
      rcases List.mem_append.mp member with older | isAdded
      · exact reversed entry older
      · rw [List.mem_singleton] at isAdded
        subst isAdded
        have same := (exists_plannedReverse isReversed).1
        have keyed := graph.keyed first manifest found
        refine ⟨?_, ?_⟩
        · rw [same, keyed]
          exact found
        · rw [same]
          exact isReversed

theorem exists_reversedEntry {removals : IdSet}
    {plan : VerifiedMigrationRollbackPlan codec Body Lowered PlanDigest}
    (built : buildVerifiedMigrationRollbackPlan services graph applied removals inputs = .ok plan)
    (member : entry ∈ plan.rollbacks) : ReversedEntry services graph inputs entry := by
  obtain ⟨_, -, built⟩ := bind_eq_ok.mp built
  obtain ⟨ids, -, built⟩ := bind_eq_ok.mp built
  obtain ⟨frontier, -, built⟩ := bind_eq_ok.mp built
  obtain ⟨current, -, built⟩ := bind_eq_ok.mp built
  cases current with
  | none => cases built
  | some current =>
    obtain ⟨walk, run, built⟩ := bind_eq_ok.mp built
    rw [pure_eq_ok] at built
    subst built
    exact foldlM_rollbackManifest_entries run (by simp) entry member

end Entries

end TypeBridge.Migration
