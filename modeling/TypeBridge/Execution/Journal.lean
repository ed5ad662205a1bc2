import TypeBridge.Migration.Manifest

namespace TypeBridge.Execution

open Schema Migration

/-!
# Journal records

The durable vocabulary of migration execution. A store assigns every record
a sequence number; leases carry a fence that only grows. Records name their
migration by identity and manifest digest, and the managed states they connect
by fingerprints.
-/

/-! ## Ordering identities -/

/-- A store-issued fencing token: a non-zero 64-bit number. -/
structure ExecutionFence where
  value : Nat
  nonzero : value ≠ 0
  bounded : value < 2 ^ 64
  deriving DecidableEq

/-- A store-assigned position in the journal: a non-zero 64-bit number. -/
structure JournalSequence where
  value : Nat
  nonzero : value ≠ 0
  bounded : value < 2 ^ 64
  deriving DecidableEq

structure JournalEntry (α : Type) where
  sequence : JournalSequence
  record : α
  deriving DecidableEq

/-- Store-issued authority to change one scope. -/
structure MigrationLease where
  scope : ManagedScopeId
  holder : String
  fence : ExecutionFence
  deriving DecidableEq

/-- A position that fits the canonical 32-bit range. -/
def position (value : Nat) : Except Diagnostic Nat :=
  if value < 2 ^ 32 then .ok value
  else .error ⟨"migration_execution_position_limit"⟩

/-! ## Commit boundaries -/

/-- What a provider knows of a commit that failed. -/
inductive GroupCommitCertainty where
  | definitelyAborted | unknown
  deriving DecidableEq, Repr

inductive GroupJournalEventKind where
  | beforeCommit | committed | commitOutcomeUnknown | definitelyAborted | formalOnlyAdvanced
  deriving DecidableEq, Repr

def GroupCommitCertainty.journalEvent : GroupCommitCertainty → GroupJournalEventKind
  | .definitelyAborted => .definitelyAborted
  | .unknown => .commitOutcomeUnknown

/-- The events after which nothing is left to do. -/
def isCompletionEvent : GroupJournalEventKind → Bool
  | .committed | .formalOnlyAdvanced => true
  | _ => false

/-- What recovery may do next. -/
inductive GroupRecoveryDecision where
  | executeNormally | repairCheckpoint | requiresExplicitRecovery
  deriving DecidableEq, Repr

/-! ## Backfill evidence -/

inductive BackfillExecutionDirection where
  | forward | reverse
  deriving DecidableEq, Repr

/-- Terminal counts of a backfill: 64-bit rows in 32-bit many groups. -/
structure BackfillExecutionCounts where
  matched : Nat
  changed : Nat
  skipped : Nat
  transactionGroups : Nat
  someGroup : transactionGroups ≠ 0
  balanced : changed + skipped = matched
  matchedBounded : matched < 2 ^ 64
  groupsBounded : transactionGroups < 2 ^ 32
  deriving DecidableEq

/-- Terminal proof that one backfill program has been completed. -/
structure BackfillCompletionEvidence (Fingerprint : Type) where
  planFingerprint : Fingerprint
  direction : BackfillExecutionDirection
  counts : BackfillExecutionCounts
  deriving DecidableEq

/-- A provider's fresh observation of a backfill's postcondition. -/
inductive BackfillRecoveryObservation (Fingerprint : Type) where
  | unavailable | incomplete
  | complete (evidence : BackfillCompletionEvidence Fingerprint)
  deriving DecidableEq

/--
Decide whether a backfill may execute or only repair its checkpoint. After a
commit was begun, incomplete data does not prove that nothing was committed.
-/
def decideBackfillRecovery {Fingerprint : Type} [DecidableEq Fingerprint]
    (lastEvent : Option GroupJournalEventKind)
    (observation : BackfillRecoveryObservation Fingerprint) (expectedPlan : Fingerprint)
    (expectedDirection : BackfillExecutionDirection) : GroupRecoveryDecision :=
  match lastEvent, observation with
  | none, .incomplete => .executeNormally
  | none, .complete _ => .executeNormally
  | some .definitelyAborted, .incomplete => .executeNormally
  | some .beforeCommit, .complete evidence
  | some .commitOutcomeUnknown, .complete evidence
  | some .committed, .complete evidence =>
      if evidence.planFingerprint = expectedPlan ∧ evidence.direction = expectedDirection then
        .repairCheckpoint
      else .requiresExplicitRecovery
  | _, _ => .requiresExplicitRecovery

structure BackfillEventRecord (PlanDigest Fingerprint : Type) where
  scope : ManagedScopeId
  fence : ExecutionFence
  manifestDigest : PlanDigest
  migrationId : MigrationId
  operationOrdinal : Nat
  manifestStepIndex : Nat
  planFingerprint : Fingerprint
  direction : BackfillExecutionDirection
  kind : GroupJournalEventKind
  completion : Option (BackfillCompletionEvidence Fingerprint)
  deriving DecidableEq

/-- Terminal evidence belongs to exactly the committed events. -/
def validateBackfillCompletion {Fingerprint : Type} [DecidableEq Fingerprint]
    (planFingerprint : Fingerprint) (direction : BackfillExecutionDirection)
    (kind : GroupJournalEventKind) (completion : Option (BackfillCompletionEvidence Fingerprint)) :
    Except Diagnostic Unit :=
  match kind, completion with
  | .committed, some evidence =>
      if evidence.planFingerprint = planFingerprint ∧ evidence.direction = direction then .ok ()
      else .error ⟨"migration_execution_backfill_completion_mismatch"⟩
  | .committed, none => .error ⟨"migration_execution_backfill_completion_mismatch"⟩
  | .formalOnlyAdvanced, _ => .error ⟨"migration_execution_backfill_formal_advance"⟩
  | _, none => .ok ()
  | _, some _ => .error ⟨"migration_execution_unexpected_backfill_completion"⟩

def BackfillEventRecord.newChecked {PlanDigest Fingerprint : Type} [DecidableEq Fingerprint]
    (lease : MigrationLease) (manifestDigest : PlanDigest) (migrationId : MigrationId)
    (operationOrdinal manifestStepIndex : Nat) (planFingerprint : Fingerprint)
    (direction : BackfillExecutionDirection) (kind : GroupJournalEventKind)
    (completion : Option (BackfillCompletionEvidence Fingerprint)) :
    Except Diagnostic (BackfillEventRecord PlanDigest Fingerprint) := do
  validateBackfillCompletion planFingerprint direction kind completion
  let ordinal ← position operationOrdinal
  let stepIndex ← position manifestStepIndex
  return {
    scope := lease.scope
    fence := lease.fence
    manifestDigest := manifestDigest
    migrationId := migrationId
    operationOrdinal := ordinal
    manifestStepIndex := stepIndex
    planFingerprint := planFingerprint
    direction := direction
    kind := kind
    completion := completion
  }

/-! ## Ledger records -/

structure AppliedRecord (Digest PlanDigest : Type) where
  scope : ManagedScopeId
  fence : ExecutionFence
  migrationId : MigrationId
  manifestDigest : PlanDigest
  sourceDeclared : Digest
  targetDeclared : Digest
  sourceSemantics : SemanticFingerprint Digest
  targetSemantics : SemanticFingerprint Digest

/-- The ledger record that retires one applied manifest. -/
structure RolledBackRecord (Digest PlanDigest : Type) where
  scope : ManagedScopeId
  fence : ExecutionFence
  migrationId : MigrationId
  manifestDigest : PlanDigest
  sourceDeclared : Digest
  targetDeclared : Digest
  sourceSemantics : SemanticFingerprint Digest
  targetSemantics : SemanticFingerprint Digest

end TypeBridge.Execution
