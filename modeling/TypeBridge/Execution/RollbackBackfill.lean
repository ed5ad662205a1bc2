import TypeBridge.Migration.Preview
import TypeBridge.Execution.Backfill

namespace TypeBridge.Execution

open Library Schema Migration
open Library.Checked hiding get

/-!
# Positions of reversed backfills

A rollback walks the steps of a manifest last first and numbers the backfills
it meets. The events of a reversed backfill carry the position of its forward
step in the manifest, its observation carries the number. Positions fall
while numbers rise, so the two agree only for a backfill that is the first
step.
-/

variable {Bytes Digest Condition Body Lowered PlanDigest Fingerprint : Type}
  {codec : Codec Bytes Digest} [DecidableEq Digest] [DecidableEq Body]

/-! ## The reversed backfills of a manifest -/

def reversedBackfill? :
    MigrationStep Digest Body → Option (VerifiedMigrationRollbackBackfillStep Digest)
  | .backfill id plan => some ⟨id, plan⟩
  | _ => none

structure Collected (done : List (MigrationStep Digest Body)) (walk : ReverseReplay codec) :
    Prop where
  bounded : walk.boundaries ≠ []
  backfills : walk.backfills = done.filterMap reversedBackfill?
  operations : ∀ index, index < walk.backfills.length ↔ .backfill index ∈ walk.operations

variable {services : PlanServices codec Condition Body Lowered PlanDigest}
  {inputs : PlanInputs Digest PlanDigest}

variable {done : List (MigrationStep Digest Body)} {walk reached : ReverseReplay codec}
variable {id : MigrationStepId} {plan : AttributeBackfillPlan Digest}

omit [DecidableEq Body] in
theorem Collected.reverseBackfill (collected : Collected done walk)
    {boundary : DeclaredSchema codec}
    (reversed : Migration.reverseBackfill inputs.context walk boundary id plan = .ok reached) :
    Collected (done ++ [.backfill id plan]) reached := by
  obtain ⟨_, -, reversed⟩ := bind_eq_ok.mp reversed
  obtain ⟨state, -, reversed⟩ := bind_eq_ok.mp reversed
  obtain ⟨_, -, reversed⟩ := bind_eq_ok.mp reversed
  rw [pure_eq_ok] at reversed
  subst reversed
  refine ⟨collected.bounded, ?_, ?_⟩
  · simp [collected.backfills, reversedBackfill?]
  · intro index
    have older := collected.operations index
    simp only [List.length_append, List.length_singleton, List.mem_append,
      List.mem_singleton, VerifiedMigrationRollbackOperation.backfill.injEq]
    rw [← older]
    omega

variable {profile : SemanticProfileId}

theorem Collected.reverseDelta (collected : Collected done walk)
    {stepTarget stepSource : DeclaredSchema codec} {earlier : List (DeclaredSchema codec)}
    {step : SchemaDeltaStep Digest}
    (reversed : Migration.reverseDelta services inputs walk stepTarget stepSource
        earlier step profile = .ok reached) :
    Collected (done ++ [.schemaDelta step]) reached := by
  unfold Migration.reverseDelta at reversed
  cases isReverse : step.reverse with
  | none =>
    rw [isReverse] at reversed
    cases reversed
  | some reverse =>
    rw [isReverse] at reversed
    obtain ⟨_, -, reversed⟩ := bind_eq_ok.mp reversed
    obtain ⟨restored, -, reversed⟩ := bind_eq_ok.mp reversed
    obtain ⟨_, -, reversed⟩ := bind_eq_ok.mp reversed
    obtain ⟨coverage, -, reversed⟩ := bind_eq_ok.mp reversed
    rw [pure_eq_ok] at reversed
    subst reversed
    refine ⟨List.cons_ne_nil _ _, ?_, ?_⟩
    · simp [collected.backfills, reversedBackfill?]
    · intro index
      simpa using collected.operations index

variable {step : MigrationStep Digest Body}

theorem Collected.reverseStep (collected : Collected done walk)
    (reversed : Migration.reverseStep services inputs profile walk step = .ok reached) :
    Collected (done ++ [step]) reached := by
  obtain ⟨boundary, earlier, isBoundaries⟩ := List.exists_cons_of_ne_nil collected.bounded
  cases step with
  | backfill id plan =>
    simp only [Migration.reverseStep, isBoundaries] at reversed
    exact collected.reverseBackfill reversed
  | assertion id plan =>
    simp only [Migration.reverseStep] at reversed
    cases reversed
    refine ⟨collected.bounded, ?_, collected.operations⟩
    simp [collected.backfills, reversedBackfill?]
  | schemaDelta step =>
    cases earlier with
    | nil =>
      simp only [Migration.reverseStep, isBoundaries] at reversed
      cases reversed
      refine ⟨collected.bounded, ?_, collected.operations⟩
      simp [collected.backfills, reversedBackfill?]
    | cons stepSource earlier =>
      simp only [Migration.reverseStep, isBoundaries] at reversed
      exact collected.reverseDelta reversed

variable {manifest : VerifiedSchemaMigrationManifest codec Body}

omit [DecidableEq Body] in
theorem replayBoundaries_ne_nil {context : ManagedDeltaContext}
    {boundaries : List (DeclaredSchema codec)}
    (replayed : replayBoundaries context manifest = .ok boundaries) : boundaries ≠ [] := by
  refine foldlM_invariant (fun _ boundaries => boundaries ≠ []) (List.cons_ne_nil _ _) ?_ replayed
  intro done step boundaries next bounded stepped
  cases step with
  | schemaDelta step =>
    cases boundaries with
    | nil => exact absurd rfl bounded
    | cons source earlier =>
      obtain ⟨target, -, stepped⟩ := bind_eq_ok.mp stepped
      cases stepped
      exact List.cons_ne_nil _ _
  | assertion id plan | backfill id plan =>
    cases stepped
    exact bounded

variable [DecidableEq PlanDigest]

theorem backfills_of_reverseManifest
    {rollback : VerifiedMigrationRollbackManifest codec Body Lowered PlanDigest}
    (reversed : reverseManifest services inputs manifest = .ok rollback) :
    rollback.backfills = manifest.steps.reverse.filterMap reversedBackfill? ∧
      ∀ index, index < rollback.backfills.length ↔ .backfill index ∈ rollback.operations := by
  obtain ⟨_, -, reversed⟩ := bind_eq_ok.mp reversed
  obtain ⟨boundaries, replayed, reversed⟩ := bind_eq_ok.mp reversed
  obtain ⟨walk, run, reversed⟩ := bind_eq_ok.mp reversed
  obtain ⟨approved, -, reversed⟩ := bind_eq_ok.mp reversed
  obtain ⟨steps, -, reversed⟩ := bind_eq_ok.mp reversed
  obtain ⟨digest, -, reversed⟩ := bind_eq_ok.mp reversed
  rw [pure_eq_ok] at reversed
  subst reversed
  have start : Collected ([] : List (MigrationStep Digest Body))
        (⟨boundaries, .formalOnly, [], [], []⟩ : ReverseReplay codec) :=
    ⟨replayBoundaries_ne_nil replayed, rfl, by simp⟩
  have collected :=
    foldlM_invariant Collected start (fun done step walk next collected stepped =>
        collected.reverseStep stepped) run
  exact ⟨collected.backfills, collected.operations⟩

/-! ## Reported positions -/

section Positions

omit [DecidableEq Body]

variable [DecidableEq Fingerprint]
  (backfillFingerprint : AttributeBackfillPlan Digest → Fingerprint)

/-- Every recorded event and every observation carries the step's position. -/
def ReportsStep {Outcome : Type} (position : Nat)
    (program : BackfillProgram Digest PlanDigest Fingerprint (BackfillResult Fingerprint Outcome)) :
    Prop :=
  BackfillStep.Reports (fun event => event.manifestStepIndex = position)
    (fun observation => observation.manifestStepIndex = position) program

variable {lease : MigrationLease}

omit [DecidableEq PlanDigest] [DecidableEq Digest] in
theorem manifestStepIndex_of_newChecked {digest : PlanDigest} {id : MigrationId}
    {ordinal stepIndex : Nat} {fingerprint : Fingerprint} {direction : BackfillExecutionDirection}
    {kind : GroupJournalEventKind} {completion : Option (BackfillCompletionEvidence Fingerprint)}
    {event : BackfillEventRecord PlanDigest Fingerprint}
    (checked : BackfillEventRecord.newChecked lease digest id ordinal stepIndex
        fingerprint direction kind completion = .ok event) :
    event.manifestStepIndex = stepIndex := by
  obtain ⟨_, -, checked⟩ := bind_eq_ok.mp checked
  obtain ⟨_, -, checked⟩ := bind_eq_ok.mp checked
  obtain ⟨stored, fits, checked⟩ := bind_eq_ok.mp checked
  rw [pure_eq_ok] at checked
  subst checked
  simp only [position] at fits
  split at fits
  · exact (Except.ok.inj fits).symm
  · cases fits

theorem reportsStep_executeApplyBackfill (lease : MigrationLease)
    (migration : VerifiedMigrationApplyManifest codec Body Lowered PlanDigest) (stepIndex : Nat)
    (recorded : List (JournalEntry (BackfillEventRecord PlanDigest Fingerprint))) :
    ReportsStep stepIndex (executeApplyBackfill backfillFingerprint lease migration stepIndex
        recorded) := by
  unfold executeApplyBackfill
  split
  · refine BackfillStep.reports_of_constructors ?_ (fun _ => rfl) lease
    intro kind completion event constructed
    obtain ⟨_, constructed⟩ := unless_eq_ok.mp constructed
    obtain ⟨_, constructed⟩ := unless_eq_ok.mp constructed
    split at constructed
    · exact manifestStepIndex_of_newChecked constructed
    · cases constructed
  · exact BackfillStep.reports_throw _

variable {rollback : VerifiedMigrationRollbackManifest codec Body Lowered PlanDigest}
variable {operationIndex index position : Nat}
variable {backfill : VerifiedMigrationRollbackBackfillStep Digest}

theorem reportsStep_executeRollbackBackfill
    (reverses : rollbackBackfill? rollback operationIndex = some (index, backfill))
    (found : rollback.manifest.steps.findIdx? (isForwardStep backfill) = some position)
    (agrees : index = position)
    (recorded : List (JournalEntry (BackfillEventRecord PlanDigest Fingerprint))) :
    ReportsStep position (executeRollbackBackfill backfillFingerprint lease rollback
        operationIndex recorded) := by
  simp only [executeRollbackBackfill, reverses]
  refine BackfillStep.reports_of_constructors ?_ (fun _ => agrees) lease
  intro kind completion event constructed
  obtain ⟨_, constructed⟩ := unless_eq_ok.mp constructed
  simp only [reverses, found] at constructed
  exact manifestStepIndex_of_newChecked constructed

theorem zero_lt_wordSize : 0 < 2 ^ 64 := by decide

/-- The counts of one transaction group without a matching row. -/
def emptyCounts : BackfillExecutionCounts :=
  ⟨0, 0, 0, 1, by decide, rfl, zero_lt_wordSize, by decide⟩

def completionRecord (lease : MigrationLease)
    (rollback : VerifiedMigrationRollbackManifest codec Body Lowered PlanDigest)
    (operationIndex manifestStepIndex : Nat) (fingerprint : Fingerprint) :
    BackfillEventRecord PlanDigest Fingerprint where
  scope := lease.scope
  fence := lease.fence
  manifestDigest := rollback.digest
  migrationId := rollback.manifest.id
  operationOrdinal := storedPosition operationIndex
  manifestStepIndex := manifestStepIndex
  planFingerprint := fingerprint
  direction := .reverse
  kind := .committed
  completion := some ⟨fingerprint, .reverse, emptyCounts⟩

theorem index_eq_of_reportsStep
    (reverses : rollbackBackfill? rollback operationIndex = some (index, backfill))
    (reports : ∀ recorded, ReportsStep position
          (executeRollbackBackfill backfillFingerprint lease rollback operationIndex recorded)) :
    index = position := by
  -- A completed operation returns its observation without another event.
  have completed :=
    reports [⟨⟨1, by decide, by decide⟩, completionRecord lease rollback operationIndex position
          (backfillFingerprint backfill.plan)⟩]
  simp only [executeRollbackBackfill, reverses, BackfillStep.execute,
    rollbackBackfillEvents, completionRecord, List.map_cons, List.map_nil,
    List.filter_cons, decide_true, Bool.and_self, if_true, List.filter_nil,
    List.getLast?_singleton, Option.any_some, isCompletionEvent, Option.bind_some] at completed
  exact BackfillStep.reports_completed.mp completed

end Positions

/-! ## Layouts -/

variable {backfill : VerifiedMigrationRollbackBackfillStep Digest}

omit [DecidableEq Body] in
theorem reversedBackfill?_eq_some : reversedBackfill? step = some backfill ↔
      step = .backfill backfill.forwardStepId backfill.plan := by
  obtain ⟨forwardStepId, plan⟩ := backfill
  cases step <;> simp [reversedBackfill?]

def BackfillsFirst (plan : VerifiedMigrationRollbackPlan codec Body Lowered PlanDigest) : Prop :=
  ∀ rollback ∈ plan.rollbacks, ∀ position id backfill,
    rollback.manifest.steps[position]? = some (.backfill id backfill) → position = 0

variable {steps : List (MigrationStep Digest Body)}

omit [DecidableEq Body] in
theorem length_reversed_le_one
    (first : ∀ position id backfill, steps[position]? = some (.backfill id backfill) → position = 0) :
    (steps.reverse.filterMap reversedBackfill?).length ≤ 1 := by
  cases steps with
  | nil => simp
  | cons step rest =>
    have noneLater : rest.reverse.filterMap reversedBackfill? = [] := by
      rw [List.filterMap_eq_nil_iff]
      intro later member
      cases isBackfill : reversedBackfill? later with
      | none => rfl
      | some backfill =>
        rw [List.mem_reverse] at member
        obtain ⟨position, found⟩ := List.mem_iff_getElem?.mp member
        rw [reversedBackfill?_eq_some.mp isBackfill] at found
        have impossible := first (position + 1) _ _ (List.getElem?_cons_succ.trans found)
        cases impossible
    rw [List.reverse_cons, List.filterMap_append, noneLater, List.nil_append]
    exact List.length_filterMap_le _ _

omit [DecidableEq Body] in
theorem exists_last_backfill {position : Nat} (found : steps[position]? = some (.backfill id plan)) :
    ∃ last backfill, steps[last]? = some (.backfill backfill.forwardStepId backfill.plan) ∧
        position ≤ last ∧ (steps.reverse.filterMap reversedBackfill?)[0]? = some backfill := by
  induction steps using List.reverseRecOn generalizing position with
  | nil => simp at found
  | append_singleton steps step ih =>
    rw [List.reverse_append, List.reverse_singleton, List.singleton_append, List.filterMap_cons]
    cases isBackfill : reversedBackfill? step with
    | some backfill =>
      refine ⟨steps.length, backfill, ?_, ?_, rfl⟩
      · rw [List.getElem?_concat_length, reversedBackfill?_eq_some.mp isBackfill]
      · have inRange := (List.getElem?_eq_some_iff.mp found).1
        simp only [List.length_append, List.length_singleton] at inRange
        omega
    | none =>
      have earlier : steps[position]? = some (.backfill id plan) := by
        by_cases isLast : position < steps.length
        · rwa [List.getElem?_append_left isLast] at found
        · have inRange := (List.getElem?_eq_some_iff.mp found).1
          simp only [List.length_append, List.length_singleton] at inRange
          have same : position = steps.length := by omega
          rw [same, List.getElem?_concat_length] at found
          cases Option.some.inj found
          cases isBackfill
      obtain ⟨last, backfill, isLast, below, reversedFirst⟩ := ih earlier
      refine ⟨last, backfill, ?_, below, reversedFirst⟩
      have inRange := (List.getElem?_eq_some_iff.mp isLast).1
      rw [List.getElem?_append_left inRange]
      exact isLast

/--
Every event and every observation of a reversed backfill carries the position
of its step, as those of the apply path do, exactly if every backfill of the
manifests rolled back is the first step of its manifest.
-/
theorem rollback_backfills_at_step [DecidableEq Fingerprint]
    (backfillFingerprint : AttributeBackfillPlan Digest → Fingerprint)
    {graph : MigrationHistoryGraph codec Body} {applied removals : IdSet}
    {plan : VerifiedMigrationRollbackPlan codec Body Lowered PlanDigest}
    (planned : buildVerifiedMigrationRollbackPlan services graph applied removals
        inputs = .ok plan) :
    (∀ rollback ∈ plan.rollbacks, ∀ operationIndex index backfill position,
        rollbackBackfill? rollback operationIndex = some (index, backfill) →
        rollback.manifest.steps[position]? = some (.backfill backfill.forwardStepId backfill.plan) →
        ∀ lease recorded, ReportsStep position
            (executeRollbackBackfill backfillFingerprint lease rollback operationIndex recorded) ∧
          ∀ migration : VerifiedMigrationApplyManifest codec Body Lowered PlanDigest,
            migration.manifest = rollback.manifest → ReportsStep position
              (executeApplyBackfill backfillFingerprint lease migration position recorded)) ↔
      BackfillsFirst plan := by
  constructor
  · intro reports rollback member position id backfill found
    obtain ⟨sameBackfills, numbered⟩ :=
      backfills_of_reverseManifest (exists_reversedEntry planned member).steps
    obtain ⟨last, reversed, isLast, below, reversedFirst⟩ := exists_last_backfill found
    rw [← sameBackfills] at reversedFirst
    have inRange := (List.getElem?_eq_some_iff.mp reversedFirst).1
    obtain ⟨operationIndex, isOperation⟩ := List.mem_iff_getElem?.mp ((numbered 0).mp inRange)
    have reverses : rollbackBackfill? rollback operationIndex = some (0, reversed) := by
      simp [rollbackBackfill?, isOperation, reversedFirst]
    have lease : MigrationLease := ⟨⟨""⟩, "", ⟨1, by decide, by decide⟩⟩
    have sameIndex :=
      index_eq_of_reportsStep backfillFingerprint reverses fun recorded =>
        (reports rollback member operationIndex 0 reversed last reverses isLast lease recorded).1
    omega
  · intro first rollback member operationIndex index backfill position reverses found lease recorded
    refine ⟨?_, fun migration _ => reportsStep_executeApplyBackfill
      backfillFingerprint lease migration position recorded⟩
    have atFirst := first rollback member
    have isPosition := atFirst position _ _ found
    subst isPosition
    have oneBackfill : rollback.backfills.length ≤ 1 := by
      rw [(backfills_of_reverseManifest (exists_reversedEntry planned member).steps).1]
      exact length_reversed_le_one atFirst
    have isIndex : index = 0 := by
      have inRange : index < rollback.backfills.length := by
        unfold rollbackBackfill? at reverses
        split at reverses
        · obtain ⟨stored, isStored, same⟩ := Option.map_eq_some_iff.mp reverses
          cases same
          exact (List.getElem?_eq_some_iff.mp isStored).1
        · cases reverses
      omega
    refine reportsStep_executeRollbackBackfill backfillFingerprint reverses ?_ isIndex recorded
    cases isSteps : rollback.manifest.steps with
    | nil =>
      rw [isSteps] at found
      cases found
    | cons step rest =>
      rw [isSteps] at found
      cases found
      simp [List.findIdx?_cons, isForwardStep]

omit [DecidableEq Body] in
theorem eq_backfill_of_isForwardStep (forward : isForwardStep backfill step = true) :
    step = .backfill backfill.forwardStepId backfill.plan := by
  cases step with
  | backfill id plan =>
    obtain ⟨sameId, samePlan⟩ := Bool.and_eq_true_iff.mp forward
    rw [of_decide_eq_true sameId, of_decide_eq_true samePlan]
  | assertion id plan => cases forward
  | schemaDelta step => cases forward

/-! ## A backfill after a delta -/

def rollbackOf (built : Except Diagnostic (VerifiedSchemaMigrationManifest plainCodec Unit)) :
    Except MigrationApplyPlanError (VerifiedMigrationRollbackPlan plainCodec Unit
        (SchemaLoweringPlan PlainBytes Unit) PlainPlanDigest) := do
  let manifest ← contractCheck built
  let history ← contractCheck (MigrationHistoryGraph.fromVerified [manifest])
  let approval ←
    contractCheck (MigrationApplyApproval.forRollback droppingServices manifest .destructive)
  buildVerifiedMigrationRollbackPlan droppingServices history
    (namedIds ["copy"]) (namedIds ["copy"]) (copyingInputs [approval])

def copyingLease : MigrationLease := ⟨⟨"scope"⟩, "holder", ⟨1, by decide, by decide⟩⟩

def completing : (call : BackfillCall PlainBytes PlainPlanDigest Unit) → call.Answer
  | .recordBackfillEvent _ _ => .ok ()
  | .observeBackfill _ _ _ => .ok .incomplete
  | .executeBackfill _ _ direction => .ok ⟨(), direction, emptyCounts⟩

def recordedPositions (calls : List (BackfillCall PlainBytes PlainPlanDigest Unit)) : List Nat :=
  calls.filterMap fun
    | .recordBackfillEvent _ event => some event.manifestStepIndex
    | _ => none

def observedPosition {Outcome : Type} : Except Diagnostic (BackfillResult Unit Outcome) → Option Nat
  | .ok (.completed observation) => some observation.manifestStepIndex
  | _ => none

/--
The copy after the removal is the second step of its manifest, and a run that
rolls it back records its events there and observes it at the first step.
-/
theorem dropAndCopy_observed_elsewhere :
    ∃ plan, rollbackOf dropAndCopy = .ok plan ∧ ∃ rollback ∈ plan.rollbacks, ∃ backfill,
        rollbackBackfill? rollback 0 = some (0, backfill) ∧
          rollback.manifest.steps[1]?.map (isForwardStep backfill) = some true ∧ ∃ run,
            (executeRollbackBackfill (fun _ => ()) copyingLease rollback 0
              []).run.answeredBy completing = run ∧ recordedPositions run.1 = [1, 1] ∧
              observedPosition run.2 = some 0 := by
  have evaluated : Checked.succeedsWith (rollbackOf dropAndCopy) (fun plan =>
        plan.rollbacks.any fun rollback =>
          (rollbackBackfill? rollback 0).any fun numbered =>
            numbered.1 = 0 ∧ rollback.manifest.steps[1]?.map (isForwardStep numbered.2) =
                some true ∧ recordedPositions ((executeRollbackBackfill (fun _ => ()) copyingLease
                    rollback 0 []).run.answeredBy completing).1 = [1, 1] ∧ observedPosition
                  ((executeRollbackBackfill (fun _ => ()) copyingLease
                    rollback 0 []).run.answeredBy completing).2 = some 0) = true := by
    decide +kernel
  obtain ⟨plan, planned, tested⟩ := Checked.exists_of_succeedsWith evaluated
  obtain ⟨rollback, member, tested⟩ := List.any_eq_true.mp tested
  obtain ⟨⟨number, backfill⟩, reverses, tested⟩ := (Option.any_eq_true _ _).mp tested
  obtain ⟨numbered, second, recorded, observed⟩ := of_decide_eq_true tested
  change number = 0 at numbered
  subst numbered
  exact ⟨plan, planned, rollback, member, backfill, reverses, second, _, rfl, recorded, observed⟩

/-- The copy before the addition is the first step, and its reverse is observed there. -/
theorem copyAndAdd_observed_at_step :
    ∃ plan, rollbackOf copyAndAdd = .ok plan ∧
      ∃ rollback ∈ plan.rollbacks, ∃ index backfill,
        rollback.manifest.steps.length = 2 ∧
          rollbackBackfill? rollback 1 = some (index, backfill) ∧
          ReportsStep 0 (executeRollbackBackfill (fun _ => ()) copyingLease rollback 1 []) := by
  have evaluated : Checked.succeedsWith (rollbackOf copyAndAdd) (fun plan =>
        (plan.rollbacks.all fun rollback => rollback.manifest.steps.tail.all (·.isSchemaDelta)) &&
        plan.rollbacks.any fun rollback =>
          (rollbackBackfill? rollback 1).any fun numbered =>
            rollback.manifest.steps.length = 2 ∧
              rollback.manifest.steps[0]?.map (isForwardStep numbered.2) = some true) = true := by
    decide +kernel
  obtain ⟨plan, run, tested⟩ := Checked.exists_of_succeedsWith evaluated
  obtain ⟨later, tested⟩ := Bool.and_eq_true_iff.mp tested
  obtain ⟨rollback, member, tested⟩ := List.any_eq_true.mp tested
  obtain ⟨⟨index, backfill⟩, reverses, tested⟩ := (Option.any_eq_true _ _).mp tested
  obtain ⟨two, tested⟩ := of_decide_eq_true tested
  refine ⟨plan, run, rollback, member, index, backfill, two, reverses, ?_⟩
  have first : BackfillsFirst plan := by
    intro other isOther position id copy found
    cases position with
    | zero => rfl
    | succ position =>
      rw [← List.getElem?_tail] at found
      have isDelta := List.all_eq_true.mp (List.all_eq_true.mp later other isOther) _
        (List.mem_of_getElem? found)
      cases isDelta
  obtain ⟨step, found, forward⟩ := Option.map_eq_some_iff.mp tested
  rw [eq_backfill_of_isForwardStep forward] at found
  obtain ⟨manifest, -, planned⟩ := bind_eq_ok.mp run
  obtain ⟨history, -, planned⟩ := bind_eq_ok.mp planned
  obtain ⟨approval, -, planned⟩ := bind_eq_ok.mp planned
  exact ((rollback_backfills_at_step (fun _ => ()) planned).mpr first rollback
    member 1 index backfill 0 reverses found copyingLease []).1

end TypeBridge.Execution
