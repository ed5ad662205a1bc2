import TypeBridge.Library.Program
import TypeBridge.Migration.RollbackPlan
import TypeBridge.Execution.Journal

namespace TypeBridge.Execution

open Library Schema Migration

/-!
# Executing one backfill step

The coordinator executes a backfill step forward while it applies a manifest
and in reverse while it rolls one back. Both walks are the same: a recorded
completion is returned, otherwise the provider is asked whether the data are
complete, and the last event decides whether the checkpoint is repaired or the
program is executed. They differ in the events they read and construct and
in the positions they report.
-/

variable {Bytes Digest Body Lowered PlanDigest Fingerprint : Type} {codec : Codec Bytes Digest}
  [DecidableEq Digest]

/-! ## Calls -/

/-- What the coordinator asks of its journal and its provider. -/
inductive BackfillCall (Digest PlanDigest Fingerprint : Type) where
  | recordBackfillEvent (lease : MigrationLease)
      (event : BackfillEventRecord PlanDigest Fingerprint)
  | observeBackfill (lease : MigrationLease) (plan : AttributeBackfillPlan Digest)
      (direction : BackfillExecutionDirection)
  | executeBackfill (lease : MigrationLease) (plan : AttributeBackfillPlan Digest)
      (direction : BackfillExecutionDirection)

/-- What the journal and the provider may answer. -/
def BackfillCall.Answer : BackfillCall Digest PlanDigest Fingerprint → Type
  | .recordBackfillEvent _ _ => Except Diagnostic Unit
  -- An interrupted observation fails like any other.
  | .observeBackfill _ _ _ => Except Diagnostic (BackfillRecoveryObservation Fingerprint)
  | .executeBackfill _ _ _ =>
      Except (GroupCommitCertainty × Diagnostic) (BackfillCompletionEvidence Fingerprint)

/-- A coordinator program that may fail with a diagnostic. -/
abbrev BackfillProgram (Digest PlanDigest Fingerprint : Type) :=
  ExceptT Diagnostic (Program (@BackfillCall.Answer Digest PlanDigest Fingerprint))

/-- Append an event to the journal; the caller handles a failure. -/
def recordBackfillEvent (lease : MigrationLease)
    (event : BackfillEventRecord PlanDigest Fingerprint) :
    BackfillProgram Digest PlanDigest Fingerprint (Except Diagnostic Unit) :=
  ExceptT.lift (Program.perform (BackfillCall.recordBackfillEvent lease event))

/-- Ask the provider for the state of the data. -/
def observeBackfill (lease : MigrationLease) (plan : AttributeBackfillPlan Digest)
    (direction : BackfillExecutionDirection) :
    BackfillProgram Digest PlanDigest Fingerprint (BackfillRecoveryObservation Fingerprint) :=
  ExceptT.mk (Program.perform (BackfillCall.observeBackfill lease plan direction))

/-- Ask the provider to run the program; the caller handles a failure. -/
def executeBackfill (lease : MigrationLease) (plan : AttributeBackfillPlan Digest)
    (direction : BackfillExecutionDirection) :
    BackfillProgram Digest PlanDigest Fingerprint (Except (GroupCommitCertainty × Diagnostic)
        (BackfillCompletionEvidence Fingerprint)) :=
  ExceptT.lift (Program.perform (BackfillCall.executeBackfill lease plan direction))

structure MigrationBackfillObservation (Fingerprint : Type) where
  migrationId : MigrationId
  operationOrdinal : Nat
  manifestStepIndex : Nat
  evidence : BackfillCompletionEvidence Fingerprint
  deriving DecidableEq

inductive BackfillResult (Fingerprint Outcome : Type) where
  | completed (observation : MigrationBackfillObservation Fingerprint)
  | terminal (outcome : Outcome)

/-! ## One step -/

/-- What differs between the forward and the reverse walk. -/
structure BackfillStep (Digest PlanDigest Fingerprint Outcome : Type) where
  plan : AttributeBackfillPlan Digest
  planFingerprint : Fingerprint
  direction : BackfillExecutionDirection
  -- The recorded events of this step, oldest first.
  events : List (BackfillEventRecord PlanDigest Fingerprint)
  newEvent : GroupJournalEventKind → Option (BackfillCompletionEvidence Fingerprint) →
      Except Diagnostic (BackfillEventRecord PlanDigest Fingerprint)
  newObservation : BackfillCompletionEvidence Fingerprint → MigrationBackfillObservation Fingerprint
  retrySafe : Diagnostic → Outcome
  explicitRecovery : Diagnostic → Outcome

namespace BackfillStep

variable {Outcome : Type} [DecidableEq Fingerprint]

def recordCompletion (step : BackfillStep Digest PlanDigest Fingerprint Outcome)
    (lease : MigrationLease) (completion : BackfillCompletionEvidence Fingerprint) :
    BackfillProgram Digest PlanDigest Fingerprint (BackfillResult Fingerprint Outcome) := do
  let committed ← Program.attempt (step.newEvent .committed (some completion))
  match ← recordBackfillEvent lease committed with
  | .error failure => return .terminal (step.retrySafe failure)
  | .ok () => return .completed (step.newObservation completion)

def recoverCommit (step : BackfillStep Digest PlanDigest Fingerprint Outcome)
    (lease : MigrationLease) (certainty : GroupCommitCertainty) (diagnostic : Diagnostic) :
    BackfillProgram Digest PlanDigest Fingerprint (BackfillResult Fingerprint Outcome) := do
  let event ← Program.attempt (step.newEvent certainty.journalEvent none)
  match ← recordBackfillEvent lease event, certainty with
  | .error failure, .definitelyAborted => return .terminal (step.retrySafe failure)
  | .error failure, .unknown => return .terminal (step.explicitRecovery failure)
  | .ok (), .definitelyAborted => return .terminal (step.retrySafe diagnostic)
  | .ok (), .unknown =>
      let after ← observeBackfill lease step.plan step.direction
      match
        decideBackfillRecovery (some .commitOutcomeUnknown) after
          step.planFingerprint step.direction, after with
      | .repairCheckpoint, .complete completion => step.recordCompletion lease completion
      | _, _ => return .terminal (step.explicitRecovery diagnostic)

def executeNormally (step : BackfillStep Digest PlanDigest Fingerprint Outcome)
    (lease : MigrationLease) : BackfillProgram Digest PlanDigest Fingerprint
      (BackfillResult Fingerprint Outcome) := do
  let before ← Program.attempt (step.newEvent .beforeCommit none)
  Program.attempt (← recordBackfillEvent lease before)
  match ← executeBackfill lease step.plan step.direction with
  | .ok completion => step.recordCompletion lease completion
  | .error (certainty, diagnostic) => step.recoverCommit lease certainty diagnostic

def execute (step : BackfillStep Digest PlanDigest Fingerprint Outcome) (lease : MigrationLease) :
    BackfillProgram Digest PlanDigest Fingerprint (BackfillResult Fingerprint Outcome) := do
  let lastEvent := step.events.getLast?
  if lastEvent.any fun event => isCompletionEvent event.kind then
    match lastEvent.bind BackfillEventRecord.completion with
    | none => throw ⟨"migration_execution_backfill_completion_missing"⟩
    | some completion => return .completed (step.newObservation completion)
  let observation ← observeBackfill lease step.plan step.direction
  match
    decideBackfillRecovery (lastEvent.map BackfillEventRecord.kind)
      observation step.planFingerprint step.direction with
  | .requiresExplicitRecovery =>
      return .terminal (step.explicitRecovery ⟨"migration_execution_ambiguous_backfill_state"⟩)
  | .repairCheckpoint =>
      match observation with
      | .complete completion => step.recordCompletion lease completion
      | _ => throw ⟨"migration_execution_backfill_observation_mismatch"⟩
  | .executeNormally => step.executeNormally lease

/-! ### What a step records and reports -/

def Reports (onEvent : BackfillEventRecord PlanDigest Fingerprint → Prop)
    (onObservation : MigrationBackfillObservation Fingerprint → Prop)
    (program : BackfillProgram Digest PlanDigest Fingerprint (BackfillResult Fingerprint Outcome)) :
    Prop :=
  program.run.Every
    (fun call => ∀ lease event, call = .recordBackfillEvent lease event → onEvent event)
    fun result => ∀ observation, result = .ok (.completed observation) → onObservation observation

section Reports

variable {onEvent : BackfillEventRecord PlanDigest Fingerprint → Prop}
  {onObservation : MigrationBackfillObservation Fingerprint → Prop}
  {step : BackfillStep Digest PlanDigest Fingerprint Outcome}

section

omit [DecidableEq Digest] [DecidableEq Fingerprint]

theorem reports_terminal (outcome : Outcome) :
    Reports onEvent onObservation (pure (.terminal outcome) :
        BackfillProgram Digest PlanDigest Fingerprint (BackfillResult Fingerprint Outcome)) := by
  intro observation same
  cases same

theorem reports_throw (diagnostic : Diagnostic) :
    Reports onEvent onObservation (throw diagnostic : BackfillProgram Digest PlanDigest Fingerprint
          (BackfillResult Fingerprint Outcome)) := by
  intro observation same
  cases same

theorem reports_completed {observation : MigrationBackfillObservation Fingerprint} :
    Reports onEvent onObservation (pure (.completed observation) :
        BackfillProgram Digest PlanDigest Fingerprint (BackfillResult Fingerprint Outcome)) ↔
      onObservation observation := by
  constructor
  · intro reports
    exact reports observation rfl
  · intro holds other same
    cases same
    exact holds

theorem reports_attempt {α : Type} {outcome : Except Diagnostic α}
    {next : α → BackfillProgram Digest PlanDigest Fingerprint
        (BackfillResult Fingerprint Outcome)} :
    Reports onEvent onObservation (Program.attempt outcome >>= next) ↔
      ∀ value, outcome = .ok value → Reports onEvent onObservation (next value) := by
  cases outcome with
  | error failure =>
    constructor
    · intro _ value impossible
      cases impossible
    · intro _ observation impossible
      cases impossible
  | ok value =>
    constructor
    · intro reports other same
      cases same
      exact reports
    · intro reports
      exact reports value rfl

variable {lease : MigrationLease}

theorem reports_record {event : BackfillEventRecord PlanDigest Fingerprint}
    {next : Except Diagnostic Unit →
      BackfillProgram Digest PlanDigest Fingerprint (BackfillResult Fingerprint Outcome)} :
    Reports onEvent onObservation (recordBackfillEvent lease event >>= next) ↔ onEvent event ∧
        ∀ answer, Reports onEvent onObservation (next answer) := by
  constructor
  · intro reports
    exact ⟨reports.1 lease event rfl, reports.2⟩
  · intro reports
    refine ⟨?_, reports.2⟩
    intro other recorded same
    cases same
    exact reports.1

variable {plan : AttributeBackfillPlan Digest} {direction : BackfillExecutionDirection}

theorem reports_observe
    {next : BackfillRecoveryObservation Fingerprint →
      BackfillProgram Digest PlanDigest Fingerprint (BackfillResult Fingerprint Outcome)} :
    Reports onEvent onObservation (observeBackfill lease plan direction >>= next) ↔
      ∀ observation, Reports onEvent onObservation (next observation) := by
  constructor
  · intro reports observation
    exact reports.2 (.ok observation)
  · intro reports
    refine ⟨?_, ?_⟩
    · intro other recorded same
      cases same
    · intro answer
      cases answer with
      | error failure =>
        intro observation same
        cases same
      | ok observation => exact reports observation

theorem reports_execute
    {next : Except (GroupCommitCertainty × Diagnostic) (BackfillCompletionEvidence Fingerprint) →
      BackfillProgram Digest PlanDigest Fingerprint (BackfillResult Fingerprint Outcome)} :
    Reports onEvent onObservation (executeBackfill lease plan direction >>= next) ↔
      ∀ answer, Reports onEvent onObservation (next answer) := by
  constructor
  · intro reports
    exact reports.2
  · intro reports
    refine ⟨?_, reports⟩
    intro other recorded same
    cases same

end

variable
  (events : ∀ kind completion event, step.newEvent kind completion = .ok event → onEvent event)
  (observations : ∀ completion, onObservation (step.newObservation completion))
  (lease : MigrationLease)

include events observations

omit [DecidableEq Digest] [DecidableEq Fingerprint] in
theorem reports_recordCompletion (completion : BackfillCompletionEvidence Fingerprint) :
    Reports onEvent onObservation (step.recordCompletion lease completion) := by
  refine reports_attempt.mpr ?_
  intro committed isCommitted
  refine reports_record.mpr ⟨events _ _ _ isCommitted, ?_⟩
  intro answer
  cases answer with
  | error failure => exact reports_terminal _
  | ok recorded => exact reports_completed.mpr (observations completion)

omit [DecidableEq Digest] in
theorem reports_recoverCommit (certainty : GroupCommitCertainty) (diagnostic : Diagnostic) :
    Reports onEvent onObservation (step.recoverCommit lease certainty diagnostic) := by
  refine reports_attempt.mpr ?_
  intro event isEvent
  refine reports_record.mpr ⟨events _ _ _ isEvent, ?_⟩
  intro answer
  cases answer with
  | error failure => cases certainty <;> exact reports_terminal _
  | ok recorded =>
    cases certainty with
    | definitelyAborted => exact reports_terminal _
    | unknown =>
      refine reports_observe.mpr ?_
      intro after
      split
      · exact reports_recordCompletion events observations lease _
      · exact reports_terminal _

omit [DecidableEq Digest] in
theorem reports_executeNormally : Reports onEvent onObservation (step.executeNormally lease) := by
  refine reports_attempt.mpr ?_
  intro before isBefore
  refine reports_record.mpr ⟨events _ _ _ isBefore, ?_⟩
  intro answer
  refine reports_attempt.mpr ?_
  intro _ _
  refine reports_execute.mpr ?_
  intro outcome
  cases outcome with
  | ok completion => exact reports_recordCompletion events observations lease completion
  | error failure => exact reports_recoverCommit events observations lease _ _

omit [DecidableEq Digest] in
theorem reports_of_constructors : Reports onEvent onObservation (step.execute lease) := by
  rw [BackfillStep.execute]
  split
  · cases found : step.events.getLast?.bind BackfillEventRecord.completion with
    | none => exact reports_throw _
    | some completion => exact reports_completed.mpr (observations completion)
  · refine reports_observe.mpr ?_
    intro observation
    split
    · exact reports_terminal _
    · cases observation with
      | complete completion => exact reports_recordCompletion events observations lease completion
      | unavailable | incomplete => exact reports_throw _
    · exact reports_executeNormally events observations lease

end Reports

end BackfillStep

/-! ## Outcomes -/

/-- Where an apply execution stopped. -/
inductive MigrationExecutionPosition where
  | transactionGroup (ordinal : Nat)
  | backfillStep (index : Nat)
  | manifestCheckpoint
  deriving DecidableEq, Repr

inductive MigrationExecutionOutcome (Fingerprint : Type) where
  | applied (backfills : List (MigrationBackfillObservation Fingerprint))
  | retrySafe (migrationId : MigrationId) (position : MigrationExecutionPosition)
      (diagnostic : Diagnostic)
  | requiresExplicitRecovery (migrationId : MigrationId) (position : MigrationExecutionPosition)
      (diagnostic : Diagnostic)

/-- The result of one rollback execution. -/
inductive MigrationRollbackOutcome (Fingerprint : Type) where
  | rolledBack (backfills : List (MigrationBackfillObservation Fingerprint))
  | retrySafe (migrationId : MigrationId) (stepOrdinal : Nat) (diagnostic : Diagnostic)
  | requiresExplicitRecovery (migrationId : MigrationId) (stepOrdinal : Nat)
      (diagnostic : Diagnostic)

/-! ## Forward -/

section Apply

variable [DecidableEq PlanDigest] [DecidableEq Fingerprint]
  (backfillFingerprint : AttributeBackfillPlan Digest → Fingerprint)

def BackfillEventRecord.newApply (lease : MigrationLease)
    (migration : VerifiedMigrationApplyManifest codec Body Lowered PlanDigest) (stepIndex : Nat)
    (kind : GroupJournalEventKind) (completion : Option (BackfillCompletionEvidence Fingerprint)) :
    Except Diagnostic (BackfillEventRecord PlanDigest Fingerprint) := do
  if lease.scope ≠ migration.manifest.managedScope then throw ⟨"migration_execution_scope_mismatch"⟩
  if stepIndex ∉ migration.backfillStepIndices then
    throw ⟨"migration_execution_backfill_step_position"⟩
  match migration.steps[stepIndex]? with
  | some (.backfill _ plan) =>
      newChecked lease migration.digest migration.manifest.id stepIndex
        stepIndex (backfillFingerprint plan) .forward kind completion
  | _ => throw ⟨"migration_execution_backfill_step_position"⟩

/-- A position as the events store it, saturated at the 32-bit range. -/
def storedPosition (value : Nat) : Nat := if value < 2 ^ 32 then value else 2 ^ 32 - 1

def applyBackfillEvents (migration : VerifiedMigrationApplyManifest codec Body Lowered PlanDigest)
    (stepIndex : Nat)
    (recorded : List (JournalEntry (BackfillEventRecord PlanDigest Fingerprint))) :
    List (BackfillEventRecord PlanDigest Fingerprint) :=
  (recorded.map JournalEntry.record).filter fun event =>
    event.migrationId = migration.manifest.id && event.manifestDigest = migration.digest &&
      event.operationOrdinal = storedPosition stepIndex &&
      event.manifestStepIndex = storedPosition stepIndex &&
      event.direction = .forward

/--
Execute one backfill of an apply plan. `recorded` are the backfill events of
the open plan; without an open plan there are none.
-/
def executeApplyBackfill (lease : MigrationLease)
    (migration : VerifiedMigrationApplyManifest codec Body Lowered PlanDigest) (stepIndex : Nat)
    (recorded : List (JournalEntry (BackfillEventRecord PlanDigest Fingerprint))) :
    BackfillProgram Digest PlanDigest Fingerprint
      (BackfillResult Fingerprint (MigrationExecutionOutcome Fingerprint)) :=
  match migration.steps[stepIndex]? with
  | some (.backfill _ plan) =>
      BackfillStep.execute {
        plan := plan
        planFingerprint := backfillFingerprint plan
        direction := .forward
        events := applyBackfillEvents migration stepIndex recorded
        newEvent :=
          BackfillEventRecord.newApply backfillFingerprint lease migration
            stepIndex
        newObservation := fun completion =>
          ⟨migration.manifest.id, stepIndex, stepIndex, completion⟩
        retrySafe := .retrySafe migration.manifest.id (.backfillStep stepIndex)
        explicitRecovery :=
          .requiresExplicitRecovery migration.manifest.id (.backfillStep stepIndex)
      } lease
  | _ => throw ⟨"migration_execution_backfill_step_position"⟩

end Apply

/-! ## Reverse -/

section Rollback

variable [DecidableEq PlanDigest] [DecidableEq Fingerprint]
  (backfillFingerprint : AttributeBackfillPlan Digest → Fingerprint)

def rollbackBackfill? (rollback : VerifiedMigrationRollbackManifest codec Body Lowered PlanDigest)
    (operationIndex : Nat) : Option (Nat × VerifiedMigrationRollbackBackfillStep Digest) :=
  match rollback.operations[operationIndex]? with
  | some (.backfill index) => rollback.backfills[index]?.map fun backfill => (index, backfill)
  | _ => none

def isForwardStep (backfill : VerifiedMigrationRollbackBackfillStep Digest) :
    MigrationStep Digest Body → Bool
  | .backfill id plan => id = backfill.forwardStepId && plan = backfill.plan
  | _ => false

def BackfillEventRecord.newRollback (lease : MigrationLease) (rollback :
      VerifiedMigrationRollbackManifest codec Body Lowered PlanDigest)
    (operationIndex : Nat) (kind : GroupJournalEventKind)
    (completion : Option (BackfillCompletionEvidence Fingerprint)) :
    Except Diagnostic (BackfillEventRecord PlanDigest Fingerprint) := do
  if lease.scope ≠ rollback.manifest.managedScope then throw ⟨"migration_execution_scope_mismatch"⟩
  match rollbackBackfill? rollback operationIndex with
  | none => throw ⟨"migration_execution_backfill_step_position"⟩
  | some (_, backfill) =>
      match rollback.manifest.steps.findIdx? (isForwardStep backfill) with
      | none => throw ⟨"migration_execution_backfill_step_position"⟩
      | some manifestStepIndex =>
          newChecked lease rollback.digest rollback.manifest.id operationIndex
            manifestStepIndex (backfillFingerprint backfill.plan) .reverse
            kind completion

def rollbackBackfillEvents
    (rollback : VerifiedMigrationRollbackManifest codec Body Lowered PlanDigest)
    (operationIndex : Nat)
    (recorded : List (JournalEntry (BackfillEventRecord PlanDigest Fingerprint))) :
    List (BackfillEventRecord PlanDigest Fingerprint) :=
  (recorded.map JournalEntry.record).filter fun event =>
    event.migrationId = rollback.manifest.id && event.manifestDigest = rollback.digest &&
      event.operationOrdinal = storedPosition operationIndex &&
      event.direction = .reverse

def executeRollbackBackfill (lease : MigrationLease)
    (rollback : VerifiedMigrationRollbackManifest codec Body Lowered PlanDigest)
    (operationIndex : Nat)
    (recorded : List (JournalEntry (BackfillEventRecord PlanDigest Fingerprint))) :
    BackfillProgram Digest PlanDigest Fingerprint
      (BackfillResult Fingerprint (MigrationRollbackOutcome Fingerprint)) :=
  match rollbackBackfill? rollback operationIndex with
  | none => throw ⟨"migration_execution_backfill_step_position"⟩
  | some (backfillIndex, backfill) =>
      BackfillStep.execute {
        plan := backfill.plan
        planFingerprint := backfillFingerprint backfill.plan
        direction := .reverse
        events := rollbackBackfillEvents rollback operationIndex recorded
        newEvent :=
          BackfillEventRecord.newRollback backfillFingerprint lease rollback
            operationIndex
        -- The position among the reversed backfills, not among the steps.
        newObservation := fun completion =>
          ⟨rollback.manifest.id, operationIndex, backfillIndex, completion⟩
        retrySafe := .retrySafe rollback.manifest.id operationIndex
        explicitRecovery := .requiresExplicitRecovery rollback.manifest.id operationIndex
      } lease

end Rollback

end TypeBridge.Execution
