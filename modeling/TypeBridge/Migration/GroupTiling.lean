import TypeBridge.Migration.Lineage
import TypeBridge.Migration.Preview

namespace TypeBridge.Migration

open Library Schema
open Library.Checked hiding get

/-!
# Transaction groups tile a manifest

The apply steps of a planned manifest are its steps with evidence. The transaction groups and the
backfills cover each position once and in order, and the deltas of the groups lead from the state
the manifest starts in to the state it ends in, unless the manifest is a profile bridge.
-/

variable {Bytes Digest Condition Body Lowered PlanDigest : Type} {codec : Codec Bytes Digest}
  [DecidableEq Digest]

def VerifiedMigrationApplyStep.step :
    VerifiedMigrationApplyStep Digest Body Lowered → MigrationStep Digest Body
  | .assertion id plan _ => .assertion id plan
  | .schemaDelta step _ => .schemaDelta step
  | .backfill id plan => .backfill id plan

def VerifiedMigrationApplyStep.delta? :
    VerifiedMigrationApplyStep Digest Body Lowered → Option (SchemaDelta Digest)
  | .schemaDelta step _ => some step.delta
  | _ => none

def VerifiedMigrationTransactionGroup.positions (group : VerifiedMigrationTransactionGroup) :
    List Nat :=
  List.range' group.firstStepIndex (group.schemaDeltaStepIndex + 1 - group.firstStepIndex)

/--
From a position and an ordinal on, the steps are backfills and groups one after the other: a group
is any number of assertions and one delta.
-/
inductive TilesFrom : Nat → Nat → List (VerifiedMigrationApplyStep Digest Body Lowered) →
    List VerifiedMigrationTransactionGroup → List Nat → Prop where
  | done {position ordinal : Nat} : TilesFrom position ordinal [] [] []
  | backfill {position ordinal : Nat} {rest : List (VerifiedMigrationApplyStep Digest Body Lowered)}
      {groups : List VerifiedMigrationTransactionGroup} {backfills : List Nat}
      (id : MigrationStepId) (plan : AttributeBackfillPlan Digest)
      (tiled : TilesFrom (position + 1) ordinal rest groups backfills) :
      TilesFrom position ordinal (.backfill id plan :: rest) groups (position :: backfills)
  | group {position ordinal : Nat} {rest : List (VerifiedMigrationApplyStep Digest Body Lowered)}
      {groups : List VerifiedMigrationTransactionGroup} {backfills : List Nat}
      (assertions : List ((MigrationStepId × MigrationAssertionPlan Body) ×
        ValidatedMigrationAssertion Digest Body))
      (step : SchemaDeltaStep Digest) (lowering : Lowered)
      (tiled : TilesFrom (position + assertions.length + 1) (ordinal + 1) rest groups backfills) :
      TilesFrom position ordinal
        (assertions.map (fun pair => .assertion pair.1.1 pair.1.2 pair.2) ++
          .schemaDelta step lowering :: rest)
        (⟨ordinal, position, position + assertions.length⟩ :: groups) backfills

def groupDeltas (steps : List (VerifiedMigrationApplyStep Digest Body Lowered))
    (groups : List VerifiedMigrationTransactionGroup) : List (SchemaDelta Digest) :=
  groups.filterMap fun group => steps[group.schemaDeltaStepIndex]?.bind (·.delta?)

def ChainsTo (state : ManagedSchemaState Digest) :
    List (SchemaDelta Digest) → ManagedSchemaState Digest → Prop
  | [], last => state = last
  | delta :: rest, last => delta.source = state ∧ ChainsTo delta.target rest last

section Tiles

variable {steps : List (VerifiedMigrationApplyStep Digest Body Lowered)}
  {groups : List VerifiedMigrationTransactionGroup} {backfills : List Nat} {position ordinal : Nat}

theorem TilesFrom.covered (tiled : TilesFrom position ordinal steps groups backfills) :
    (groups.flatMap (·.positions) ++ backfills).Perm (List.range' position steps.length) := by
  induction tiled with
  | done => exact .refl _
  | backfill id plan _ ih =>
    rw [List.length_cons, List.range'_succ]
    exact List.perm_middle.trans (ih.cons _)
  | @group position ordinal rest groups backfills assertions step lowering _ ih =>
    rw [List.length_append, List.length_map, List.length_cons, Nat.add_comm rest.length,
      ← Nat.add_assoc, ← List.range'_append_1, List.flatMap_cons, List.append_assoc]
    simp only [VerifiedMigrationTransactionGroup.positions]
    rw [show position + assertions.length + 1 - position = assertions.length + 1 by omega,
      ← Nat.add_assoc]
    exact ih.append_left _

theorem TilesFrom.groupDeltas (tiled : TilesFrom position ordinal steps groups backfills)
    {before : List (VerifiedMigrationApplyStep Digest Body Lowered)}
    (starts : before.length = position) :
    groupDeltas (before ++ steps) groups = steps.filterMap (·.delta?) := by
  induction tiled generalizing before with
  | done => rfl
  | @backfill _ _ rest _ _ id plan _ ih =>
    have others := @ih (before ++ [.backfill id plan]) (by simp [starts])
    rwa [List.append_assoc] at others
  | @group _ _ rest _ _ assertions step lowering _ ih =>
    subst starts
    have others := @ih (before ++ (assertions.map (fun pair => .assertion pair.1.1 pair.1.2 pair.2) ++
      [.schemaDelta step lowering])) (by simp [Nat.add_assoc])
    have none : (assertions.map fun pair => (.assertion pair.1.1 pair.1.2 pair.2 :
        VerifiedMigrationApplyStep Digest Body Lowered)).filterMap (·.delta?) = [] := by
      rw [List.filterMap_map, List.filterMap_eq_nil_iff]
      exact fun _ _ => rfl
    rw [List.filterMap_append, none, Migration.groupDeltas, List.filterMap_cons]
    have delta : (before ++ (assertions.map (fun pair => .assertion pair.1.1 pair.1.2 pair.2) ++
        .schemaDelta step lowering :: rest))[before.length + assertions.length]? =
          some (.schemaDelta step lowering) := by
      simp
    rw [delta]
    refine congrArg (step.delta :: ·) (Eq.trans ?_ others)
    simp [Migration.groupDeltas]

end Tiles

def backfillPosition : VerifiedMigrationApplyStep Digest Body Lowered × Nat → Option Nat
  | (.backfill _ _, position) => some position
  | _ => none

theorem tilesFrom_blocks {blocks : List (StepBlock Digest Body Lowered)} {ordinal first : Nat} :
    TilesFrom first ordinal (blocks.flatMap StepBlock.steps) (groupsOf blocks ordinal first)
      (((blocks.flatMap StepBlock.steps).zipIdx first).filterMap backfillPosition) := by
  induction blocks generalizing ordinal first with
  | nil => exact .done
  | cons block rest ih =>
    rw [List.flatMap_cons, List.zipIdx_append, List.filterMap_append]
    cases block with
    | backfill id plan => exact .backfill id plan ih
    | guarded assertions step lowering =>
      have none : (((StepBlock.guarded assertions step lowering).steps.zipIdx first).filterMap
          backfillPosition) = [] := by
        refine List.filterMap_eq_nil_iff.mpr fun entry isIn => ?_
        have isStep := List.fst_mem_of_mem_zipIdx isIn
        obtain ⟨kind, position⟩ := entry
        simp only [StepBlock.steps, List.mem_append, List.mem_map, List.mem_singleton] at isStep
        rcases isStep with ⟨pair, -, rfl⟩ | rfl
        · rfl
        · rfl
      rw [none, List.nil_append, StepBlock.steps, List.append_assoc, List.length_append,
        List.length_map, List.length_singleton, ← Nat.add_assoc]
      exact .group assertions step lowering ih

/-! ## Planned manifests -/

section Planned

variable [DecidableEq Body] {services : PlanServices codec Condition Body Lowered PlanDigest}
  {context : ManagedDeltaContext} {binding : SchemaLoweringBinding} {approved : Bool}

/-- The steps planned so far, with those that wait for a delta. -/
def ApplyReplay.planned (replay : ApplyReplay codec Body Lowered) :
    List (MigrationStep Digest Body) :=
  replay.verifiedSteps.map (·.step) ++
    replay.pendingAssertions.map fun pending => .assertion pending.1 pending.2

variable {replay reached : ApplyReplay codec Body Lowered}

theorem planned_of_planStep {step : MigrationStep Digest Body}
    (planned : planStep services context binding approved replay step = .ok reached) :
    reached.planned = replay.planned ++ [step] := by
  obtain ⟨_, -, planned⟩ := bind_eq_ok.mp planned
  unfold ApplyReplay.planned
  cases step with
  | backfill id plan =>
    obtain ⟨none, planned⟩ := guard_eq_ok.mp planned
    cases planned
    have empty : replay.pendingAssertions = [] := List.length_eq_zero_iff.mp (not_ne_iff.mp none)
    simp [empty, VerifiedMigrationApplyStep.step]
  | assertion id plan =>
    cases planned
    simp
  | schemaDelta step =>
    obtain ⟨target, -, planned⟩ := bind_eq_ok.mp planned
    obtain ⟨coverage, covered, planned⟩ := bind_eq_ok.mp planned
    obtain ⟨lowering, -, planned⟩ := bind_eq_ok.mp planned
    rw [pure_eq_ok] at planned
    subst planned
    have sameLength := length_validated (mapError_eq_ok.mp covered)
    rw [List.length_map] at sameLength
    have evidence : ((replay.pendingAssertions.zip coverage.validated).map fun pair =>
        (.assertion pair.1.1 pair.1.2 : MigrationStep Digest Body)) =
          ((replay.pendingAssertions.zip coverage.validated).map Prod.fst).map
            fun pending => .assertion pending.1 pending.2 := by
      rw [List.map_map]
      rfl
    rw [List.map_fst_zip (le_of_eq sameLength.symm)] at evidence
    simp [VerifiedMigrationApplyStep.step, Function.comp_def, evidence]

theorem planned_of_foldlM {steps : List (MigrationStep Digest Body)}
    (run : steps.foldlM (planStep services context binding approved) replay = .ok reached) :
    reached.planned = replay.planned ++ steps := by
  induction steps generalizing replay with
  | nil =>
    cases run
    simp
  | cons first rest ih =>
    obtain ⟨middle, stepped, run⟩ := foldlM_cons_eq_ok.mp run
    rw [ih run, planned_of_planStep stepped, List.append_assoc]
    rfl

variable {current : DeclaredSchema codec} {manifest : VerifiedSchemaMigrationManifest codec Body}
  {entry : VerifiedMigrationApplyManifest codec Body Lowered PlanDigest}

variable (planned : planSteps services context binding approved current manifest = .ok entry)
include planned

theorem steps_of_planSteps : entry.steps.map (·.step) = manifest.steps := by
  obtain ⟨replay, run, empty, -, same, -⟩ := planSteps_eq_ok planned
  have all := planned_of_foldlM run
  simp only [ApplyReplay.planned, empty, List.map_nil, List.append_nil, List.nil_append] at all
  rw [same, all]

theorem tilesFrom_of_planSteps :
    TilesFrom 0 0 entry.steps entry.transactionGroups (backfillStepIndices entry.steps) := by
  obtain ⟨blocks, listed, grouped, -⟩ := exists_blocks_of_planSteps planned
  have positions : backfillStepIndices entry.steps =
      (entry.steps.zipIdx 0).filterMap backfillPosition := by
    refine List.filterMap_congr fun entry _ => ?_
    obtain ⟨kind, position⟩ := entry
    cases kind <;> rfl
  rw [positions, listed, grouped]
  exact tilesFrom_blocks

omit planned

def stepDeltas (steps : List (MigrationStep Digest Body)) : List (SchemaDelta Digest) :=
  steps.filterMap fun step =>
    match step with
    | .schemaDelta step => some step.delta
    | _ => none

theorem groupDeltas_of_planSteps
    (planned : planSteps services context binding approved current manifest = .ok entry) :
    groupDeltas entry.steps entry.transactionGroups = stepDeltas manifest.steps := by
  have deltas := (tilesFrom_of_planSteps planned).groupDeltas (show [].length = 0 from rfl)
  rw [← steps_of_planSteps planned, stepDeltas, List.filterMap_map]
  refine deltas.trans (List.filterMap_congr fun step _ => ?_)
  cases step <;> rfl

end Planned

/-! ## Verified manifests -/

section Verified

variable [DecidableEq Bytes] [DecidableEq Body] {rules : SafetyRules codec Condition Body}
  {context : ManagedDeltaContext}

variable {draft : SchemaMigrationDraft Digest Body} {source : DeclaredSchema codec}

omit [DecidableEq Bytes] [DecidableEq Body] in
theorem currentSchema_of_replayBackfill {reached : ManifestReplay codec Body}
    {plan : AttributeBackfillPlan Digest}
    (replayed : replayBackfill context state plan = .ok reached) :
    reached.currentSchema = state.currentSchema := by
  obtain ⟨-, replayed⟩ := unless_eq_ok.mp replayed
  obtain ⟨_, -, replayed⟩ := bind_eq_ok.mp replayed
  obtain ⟨_, -, replayed⟩ := bind_eq_ok.mp replayed
  obtain ⟨-, replayed⟩ := unless_eq_ok.mp replayed
  obtain ⟨_, -, replayed⟩ := bind_eq_ok.mp replayed
  rw [pure_eq_ok] at replayed
  rw [← replayed]

theorem chainsTo_of_replay {steps : List (MigrationStep Digest Body)}
    {last : ManifestReplay codec Body} {start reached : ManagedSchemaState Digest}
    (managed : managedSchemaState state.currentSchema context = .ok start)
    (run : steps.foldlM (replayStep rules context) state = .ok last)
    (ended : managedSchemaState last.currentSchema context = .ok reached) :
    ChainsTo start (stepDeltas steps) reached := by
  induction steps generalizing state start with
  | nil =>
    cases run
    exact Except.ok.inj (managed.symm.trans ended)
  | cons first rest ih =>
    obtain ⟨middle, stepped, restRun⟩ := foldlM_cons_eq_ok.mp run
    cases first with
    | backfill id plan =>
      rw [← currentSchema_of_replayBackfill stepped] at managed
      exact ih managed restRun
    | assertion id plan =>
      obtain ⟨_, -, stepped⟩ := bind_eq_ok.mp stepped
      rw [pure_eq_ok] at stepped
      subst stepped
      exact @ih { state with pendingAssertions := state.pendingAssertions ++ [plan] } start managed
        restRun
    | schemaDelta step =>
      obtain ⟨-, source, -, target⟩ := applyDelta_eq_ok_iff.mp (of_replayDelta stepped).1
      exact ⟨Except.ok.inj (source.symm.trans managed), ih target restRun⟩

theorem chainsTo_of_buildVerifiedManifest {manifest : VerifiedSchemaMigrationManifest codec Body}
    (built : buildVerifiedManifest rules draft source context = .ok manifest)
    (noBridge : manifest.profileBridge = none) :
    ChainsTo manifest.sourceState (stepDeltas manifest.steps) manifest.targetState := by
  obtain ⟨header, verified, built⟩ := bind_eq_ok.mp built
  obtain ⟨replayed, run, built⟩ := bind_eq_ok.mp built
  obtain ⟨-, built⟩ := unless_eq_ok.mp built
  obtain ⟨targetState, ended, built⟩ := bind_eq_ok.mp built
  obtain ⟨sourceState, bridged, built⟩ := bind_eq_ok.mp built
  rw [pure_eq_ok] at built
  subst built
  have unbridged : header.profileBridge = none := noBridge
  simp only [bridgedState, unbridged, Except.ok.injEq] at bridged
  subst bridged
  exact chainsTo_of_replay (of_verifyHeader verified).1 run (mapError_eq_ok.mp ended)

/--
The groups of a planned manifest and its backfills cover its steps once and in order, and the
deltas of the groups lead from its source state to its target state, if it is not a profile bridge.
-/
theorem transactionGroups_tile_manifest {draft : SchemaMigrationDraft Digest Body}
    {source current : DeclaredSchema codec} {manifest : VerifiedSchemaMigrationManifest codec Body}
    (built : buildVerifiedManifest rules draft source context = .ok manifest)
    {services : PlanServices codec Condition Body Lowered PlanDigest}
    {planContext : ManagedDeltaContext} {binding : SchemaLoweringBinding} {approved : Bool}
    {entry : VerifiedMigrationApplyManifest codec Body Lowered PlanDigest}
    (planned : planSteps services planContext binding approved current manifest = .ok entry) :
    entry.steps.map (·.step) = manifest.steps ∧
      partitionTransactionGroups entry.steps = .ok entry.transactionGroups ∧
      TilesFrom 0 0 entry.steps entry.transactionGroups (backfillStepIndices entry.steps) ∧
      (entry.transactionGroups.flatMap (·.positions) ++ backfillStepIndices entry.steps).Perm
        (List.range entry.steps.length) ∧
      (manifest.profileBridge = none →
        ChainsTo manifest.sourceState (groupDeltas entry.steps entry.transactionGroups)
          manifest.targetState) := by
  obtain ⟨_, -, -, -, -, partitioned⟩ := planSteps_eq_ok planned
  have tiles := tilesFrom_of_planSteps planned
  refine ⟨steps_of_planSteps planned, partitioned, tiles, ?_, fun noBridge => ?_⟩
  · rw [List.range_eq_range']
    exact tiles.covered
  rw [groupDeltas_of_planSteps planned]
  exact chainsTo_of_buildVerifiedManifest built noBridge

end Verified

/-! ## A copy and an asserted addition -/

/-- Rules that ask for one assertion before each definition. -/
def assertingRules : SafetyRules plainCodec Unit Unit where
  classify
    | .define _ => .conditional
    | _ => .destructive
  derive
    | _, .define _, _, _, _ => .ok ⟨.conditional, [⟨(), true, .conditional⟩], false⟩
    | _, _, _, _, _ => .ok ⟨.destructive, [], false⟩
  lower _ _ _ := .ok ⟨(), ∅⟩

def assertingServices : PlanServices plainCodec Unit Unit Unit Unit :=
  { plainServices with rules := assertingRules }

def assertingContext : ManagedDeltaContext :=
  plainContext (insert conditionalResolutionCapability copyingContext.availableCapabilities)

/-- The draft that copies, asserts twice and adds the attribute `c`. -/
def assertedDraft : SchemaMigrationDraft PlainBytes Unit :=
  Checked.get (do
      let copy ← copyStep copying
      let first ← MigrationStepId.new "first"
      let second ← MigrationStepId.new "second"
      let add ← droppingStep "add" copying copyingBefore
      let id ← MigrationId.new "app" "copy"
      SchemaMigrationDraft.new id []
        [copy, .assertion first ⟨(), ∅⟩, .assertion second ⟨(), ∅⟩, add])
    (by decide +kernel)

def assertedManifest : VerifiedSchemaMigrationManifest plainCodec Unit :=
  Checked.get (buildVerifiedManifest assertingRules assertedDraft copying assertingContext)
    (by decide +kernel)

/-- The plan of its steps. -/
def assertedEntry : VerifiedMigrationApplyManifest plainCodec Unit Unit Unit :=
  Checked.get (planSteps assertingServices assertingContext
      ⟨.typedb3121, assertingContext.availableCapabilities⟩ false copying assertedManifest)
    (by decide +kernel)

/-- The copy stands alone, and the assertions are in one group with the addition. -/
theorem assertedEntry_tiled :
    backfillStepIndices assertedEntry.steps = [0] ∧
      assertedEntry.transactionGroups.flatMap (·.positions) = [1, 2, 3] ∧
      assertedEntry.steps.map (·.step) = assertedManifest.steps ∧
      TilesFrom 0 0 assertedEntry.steps assertedEntry.transactionGroups
        (backfillStepIndices assertedEntry.steps) ∧
      ChainsTo assertedManifest.sourceState
        (groupDeltas assertedEntry.steps assertedEntry.transactionGroups)
        assertedManifest.targetState := by
  have built : _ = Except.ok assertedManifest := eq_ok_get _ _
  have planned : _ = Except.ok assertedEntry := eq_ok_get _ _
  have noBridge : assertedManifest.profileBridge = none := by decide +kernel
  obtain ⟨steps, -, tiles, -, chained⟩ := transactionGroups_tile_manifest built planned
  refine ⟨?_, ?_, steps, tiles, ?_⟩
  · decide +kernel
  · decide +kernel
  -- otherwise the plan is evaluated to see whether the chain is a function
  · with_reducible exact chained noBridge

/-- A profile bridge has no groups, but does not end in the state it starts in. -/
theorem profileBridge_not_chained :
    ∃ draft entry, buildVerifiedManifest documentationRules draft firstManifest.targetSchema
        upgradingRequest.context = .ok bridgeManifest ∧
      planSteps plainServices upgradingRequest.context plainInputs.binding false
        firstManifest.targetSchema bridgeManifest = .ok entry ∧
      ¬ ChainsTo bridgeManifest.sourceState (groupDeltas entry.steps entry.transactionGroups)
        bridgeManifest.targetState := by
  have bridged : _ = Except.ok bridgeManifest := eq_ok_get _ _
  obtain ⟨_, -, built⟩ := bind_eq_ok.mp bridged
  have planned := eq_ok_get (planSteps plainServices upgradingRequest.context plainInputs.binding
    false firstManifest.targetSchema bridgeManifest) (by decide +kernel)
  have empty : bridgeManifest.steps = [] := List.isEmpty_iff.mp (by decide +kernel)
  refine ⟨_, _, built, planned, ?_⟩
  rw [groupDeltas_of_planSteps planned, empty]
  change ¬ bridgeManifest.sourceState = bridgeManifest.targetState
  decide +kernel

end TypeBridge.Migration
