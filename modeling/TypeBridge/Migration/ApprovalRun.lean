import TypeBridge.Migration.Guarded

namespace TypeBridge.Migration

open Library Schema
open Library.Checked hiding get

/-!
# Approvals along a run

An approval binds one exact transition: a migration, its digests and profiles,
a safety class and the two managed states. Nothing records that an approval
was used. The policy relies on the frontier instead: once the transition is
taken, its source state is left behind.

This module says how far that reaches. A run is a sequence of built and
executed plans, and lists what it moved. An approval admits two moves of a run
exactly when a migration goes the same way twice, or goes back although its
source and target states coincide.
-/

/-! ## What an approval binds -/

section Binding

variable {Bytes Digest Condition Body Lowered PlanDigest : Type} {codec : Codec Bytes Digest}
  [DecidableEq Digest] [DecidableEq PlanDigest]
  {services : PlanServices codec Condition Body Lowered PlanDigest}
  {approval : MigrationApplyApproval Digest PlanDigest}
  {manifest : VerifiedSchemaMigrationManifest codec Body} {safety : SafetyClass}
  {source target : ManagedSchemaState Digest}

omit [DecidableEq PlanDigest] in
theorem BoundTransition.unique {other : MigrationApplyApproval Digest PlanDigest}
    (bound : BoundTransition services manifest safety source target approval)
    (otherBound : BoundTransition services manifest safety source target other) :
    approval = other := by
  have sameDigest : approval.manifestDigest = other.manifestDigest := by
    have computed := bound.digest
    rw [otherBound.digest] at computed
    exact (Except.ok.inj computed).symm
  cases approval with
  | mk =>
    cases other with
    | mk =>
      simp only [MigrationApplyApproval.mk.injEq]
      exact ⟨bound.id.trans otherBound.id.symm,
        bound.lowering.trans otherBound.lowering.symm, sameDigest,
        bound.fingerprint.trans otherBound.fingerprint.symm,
        bound.safety.trans otherBound.safety.symm, bound.semantic.trans otherBound.semantic.symm,
        bound.source.trans otherBound.source.symm, bound.target.trans otherBound.target.symm⟩

omit [DecidableEq PlanDigest] in
theorem boundTransition_of_forTransition {rollback : Bool} (made :
      MigrationApplyApproval.forTransition services manifest safety rollback = .ok approval) :
    BoundTransition services manifest safety
      (if rollback then manifest.targetState else manifest.sourceState)
      (if rollback then manifest.sourceState else manifest.targetState)
      approval := by
  obtain ⟨digest, computed, made⟩ := bind_eq_ok.mp made
  rw [pure_eq_ok] at made
  subst made
  exact ⟨rfl, rfl, rfl, rfl, rfl, rfl, rfl, computed⟩

end Binding

/-! ## Executed moves -/

/-- The way a migration is moved. -/
inductive MoveDirection where
  | forward | backward
  deriving DecidableEq, Repr

structure ExecutedMove {Bytes Digest : Type} (codec : Codec Bytes Digest) (Body PlanDigest : Type)
    [DecidableEq Digest] where
  manifest : VerifiedSchemaMigrationManifest codec Body
  direction : MoveDirection
  safety : SafetyClass
  decision : SafetyPolicyDecision
  approvals : List (MigrationApplyApproval Digest PlanDigest)

namespace ExecutedMove

variable {Bytes Digest Condition Body Lowered PlanDigest : Type} {codec : Codec Bytes Digest}
  [DecidableEq Digest]

def source (move : ExecutedMove codec Body PlanDigest) : ManagedSchemaState Digest :=
  match move.direction with
  | .forward => move.manifest.sourceState
  | .backward => move.manifest.targetState

def target (move : ExecutedMove codec Body PlanDigest) : ManagedSchemaState Digest :=
  match move.direction with
  | .forward => move.manifest.targetState
  | .backward => move.manifest.sourceState

/-- The policy asked for an approval. -/
def Gated (move : ExecutedMove codec Body PlanDigest) : Prop := move.decision = .requireApproval

def SatisfiedBy [DecidableEq PlanDigest]
    (services : PlanServices codec Condition Body Lowered PlanDigest)
    (approval : MigrationApplyApproval Digest PlanDigest)
    (move : ExecutedMove codec Body PlanDigest) : Prop :=
  move.Gated ∧ approval ∈ move.approvals ∧
    approval.bindsTransition services move.manifest move.safety move.source
      move.target = .ok true

/--
A later move takes an earlier one's transition again.

The same migration moves under the same safety class, either the same way or
back to a state that coincides with the one it came from.
-/
def Repeats (earlier later : ExecutedMove codec Body PlanDigest) : Prop :=
  earlier.manifest.id = later.manifest.id ∧ earlier.safety = later.safety ∧
    (earlier.direction = later.direction ∨ later.manifest.sourceState = later.manifest.targetState)

def ofApply (inputs : PlanInputs Digest PlanDigest)
    (plan : VerifiedMigrationApplyPlan codec Body Lowered PlanDigest) :
    List (ExecutedMove codec Body PlanDigest) :=
  plan.migrations.map fun entry =>
    ⟨entry.manifest, .forward, entry.manifest.safety,
      inputs.policy.decision entry.manifest.safety, inputs.approvals⟩

def ofRollback (inputs : PlanInputs Digest PlanDigest)
    (plan : VerifiedMigrationRollbackPlan codec Body Lowered PlanDigest) :
    List (ExecutedMove codec Body PlanDigest) :=
  plan.rollbacks.map fun entry =>
    ⟨entry.manifest, .backward, entry.rollbackSafety,
      inputs.policy.decision entry.rollbackSafety, inputs.approvals⟩

variable {earlier later : ExecutedMove codec Body PlanDigest}

theorem Repeats.states (repeats : earlier.Repeats later) (same : earlier.manifest = later.manifest) :
    earlier.source = later.source ∧ earlier.target = later.target := by
  obtain ⟨-, -, direction | coincide⟩ := repeats
  · simp only [source, target, direction, same, and_self]
  · cases first : earlier.direction <;> cases second : later.direction <;>
      simp [source, target, first, second, same, coincide]

theorem repeats_of_states (same : earlier.manifest = later.manifest)
    (safety : earlier.safety = later.safety) (states : earlier.source = later.source) :
    earlier.Repeats later := by
  refine ⟨by rw [same], safety, ?_⟩
  cases first : earlier.direction <;> cases second : later.direction
  · exact .inl rfl
  · right
    simpa [source, first, second, same] using states
  · right
    simpa [source, first, second, same] using states.symm
  · exact .inl rfl

end ExecutedMove

/-! ## Runs -/

section Run

variable {Bytes Digest Condition Body Lowered PlanDigest : Type} {codec : Codec Bytes Digest}
  [DecidableEq Digest] [DecidableEq Body] [DecidableEq PlanDigest]
  {services : PlanServices codec Condition Body Lowered PlanDigest}
  {graph : MigrationHistoryGraph codec Body}

inductive ExecutedRun (services : PlanServices codec Condition Body Lowered PlanDigest)
    (graph : MigrationHistoryGraph codec Body) :
    IdSet → List (ExecutedMove codec Body PlanDigest) → Prop where
  | start (applied : IdSet) : ExecutedRun services graph applied []
  | apply
      {applied : IdSet}
      {moves : List (ExecutedMove codec Body PlanDigest)}
      {target : MigrationApplyTarget}
      {inputs : PlanInputs Digest PlanDigest}
      {plan : VerifiedMigrationApplyPlan codec Body Lowered PlanDigest}
      (run : ExecutedRun services graph applied moves)
      (authorized : inputs.executionAuthorized = true)
      (built : buildVerifiedMigrationApplyPlan services graph applied target inputs = .ok plan) :
      ExecutedRun services graph (applied.insertMany (plan.migrations.map (·.manifest.id)))
        (moves ++ ExecutedMove.ofApply inputs plan)
  | rollback
      {applied removals : IdSet}
      {moves : List (ExecutedMove codec Body PlanDigest)}
      {inputs : PlanInputs Digest PlanDigest}
      {plan : VerifiedMigrationRollbackPlan codec Body Lowered PlanDigest}
      (run : ExecutedRun services graph applied moves)
      (authorized : inputs.executionAuthorized = true)
      (built : buildVerifiedMigrationRollbackPlan services graph applied removals
          inputs = .ok plan) :
      ExecutedRun services graph (applied \ removals) (moves ++ ExecutedMove.ofRollback inputs plan)

structure Admitted (services : PlanServices codec Condition Body Lowered PlanDigest)
    (graph : MigrationHistoryGraph codec Body) (move : ExecutedMove codec Body PlanDigest) :
    Prop where
  known : graph.manifests[move.manifest.id]? = some move.manifest
  approved : move.Gated → ∃ approval, move.SatisfiedBy services approval

omit [DecidableEq Digest] [DecidableEq Body] [DecidableEq PlanDigest] in
theorem approved_of_policyGate {policy : MigrationSafetyPolicy} {safety : SafetyClass}
    {rejected required : String}
    {binds : MigrationApplyApproval Digest PlanDigest → Except Diagnostic Bool}
    {approvals : List (MigrationApplyApproval Digest PlanDigest)} {approved : Bool}
    (gate : policyGate policy safety rejected required (anyBinds binds approvals) = .ok approved)
    (requires : policy.decision safety = .requireApproval) :
    ∃ approval ∈ approvals, binds approval = .ok true := by
  cases approved with
  | true => exact exists_of_anyBinds (policyGate_eq_ok_true gate).2
  | false =>
    unfold policyGate at gate
    rw [requires] at gate
    obtain ⟨bound, -, gate⟩ := bind_eq_ok.mp gate
    cases bound with
    | true => cases gate
    | false => cases gate

variable {applied : IdSet} {inputs : PlanInputs Digest PlanDigest}

theorem admitted_ofApply {goal : MigrationApplyTarget}
    {plan : VerifiedMigrationApplyPlan codec Body Lowered PlanDigest}
    (authorized : inputs.executionAuthorized = true)
    (built : buildVerifiedMigrationApplyPlan services graph applied goal inputs = .ok plan) :
    ∀ move ∈ ExecutedMove.ofApply inputs plan, Admitted services graph move := by
  intro move member
  obtain ⟨entry, isEntry, isMove⟩ := List.mem_map.mp member
  subst isMove
  obtain ⟨context, binding, approved, current, planned, -⟩ := exists_plannedEntry built isEntry
  refine ⟨planned.found, ?_⟩
  intro gated
  have gate := planned.gate
  unfold applyApproval at gate
  rw [if_pos authorized] at gate
  obtain ⟨approval, supplied, binds⟩ := approved_of_policyGate gate gated
  exact ⟨approval, gated, supplied, binds⟩

theorem admitted_ofRollback {removals : IdSet}
    {plan : VerifiedMigrationRollbackPlan codec Body Lowered PlanDigest}
    (authorized : inputs.executionAuthorized = true)
    (built : buildVerifiedMigrationRollbackPlan services graph applied removals inputs = .ok plan) :
    ∀ move ∈ ExecutedMove.ofRollback inputs plan, Admitted services graph move := by
  intro move member
  obtain ⟨entry, isEntry, isMove⟩ := List.mem_map.mp member
  subst isMove
  have reversed := exists_reversedEntry built isEntry
  refine ⟨reversed.found, ?_⟩
  intro gated
  obtain ⟨-, approved, gate, -⟩ := exists_plannedReverse reversed.steps
  unfold rollbackApproval at gate
  rw [if_pos authorized] at gate
  obtain ⟨approval, supplied, binds⟩ := approved_of_policyGate gate gated
  exact ⟨approval, gated, supplied, binds⟩

theorem ExecutedRun.admitted {moves : List (ExecutedMove codec Body PlanDigest)}
    (run : ExecutedRun services graph applied moves) :
    ∀ move ∈ moves, Admitted services graph move := by
  induction run with
  | start applied => simp
  | apply _ authorized built ih =>
    intro move member
    rcases List.mem_append.mp member with older | added
    · exact ih move older
    · exact admitted_ofApply authorized built move added
  | rollback _ authorized built ih =>
    intro move member
    rcases List.mem_append.mp member with older | added
    · exact ih move older
    · exact admitted_ofRollback authorized built move added

omit [DecidableEq Body] in
theorem Admitted.exists_satisfiedBy_both_iff {earlier later : ExecutedMove codec Body PlanDigest}
    (first : Admitted services graph earlier) (second : Admitted services graph later) :
    (∃ approval, earlier.SatisfiedBy services approval ∧ later.SatisfiedBy services approval) ↔
      earlier.Gated ∧ later.Gated ∧ earlier.Repeats later := by
  constructor
  · intro both
    obtain ⟨approval, ⟨gated, -, binds⟩, ⟨laterGated, -, laterBinds⟩⟩ := both
    have bound := bindsTransition_eq_ok_true.mp binds
    have laterBound := bindsTransition_eq_ok_true.mp laterBinds
    -- The approval names the migration, and the history has it once.
    have sameId : earlier.manifest.id = later.manifest.id := bound.id.symm.trans laterBound.id
    have sameManifest : earlier.manifest = later.manifest := by
      have found := first.known
      rw [sameId, second.known] at found
      exact (Option.some.inj found).symm
    exact ⟨gated, laterGated, ExecutedMove.repeats_of_states sameManifest
        (bound.safety.symm.trans laterBound.safety) (bound.source.symm.trans laterBound.source)⟩
  · intro repeated
    obtain ⟨gated, laterGated, repeats⟩ := repeated
    have sameManifest : earlier.manifest = later.manifest := by
      have found := first.known
      rw [repeats.1, second.known] at found
      exact (Option.some.inj found).symm
    obtain ⟨sameSource, sameTarget⟩ := repeats.states sameManifest
    obtain ⟨approval, satisfied⟩ := first.approved gated
    obtain ⟨other, laterSatisfied⟩ := second.approved laterGated
    have bound := bindsTransition_eq_ok_true.mp satisfied.2.2
    rw [sameManifest, repeats.2.1, sameSource, sameTarget] at bound
    have same := bound.unique (bindsTransition_eq_ok_true.mp laterSatisfied.2.2)
    subst same
    exact ⟨approval, satisfied, laterSatisfied⟩

end Run

/-! ## One-time and one-directional use -/

section SingleUse

variable {Bytes Digest Condition Body Lowered PlanDigest : Type} {codec : Codec Bytes Digest}
  [DecidableEq Digest] [DecidableEq Body] [DecidableEq PlanDigest]
  {services : PlanServices codec Condition Body Lowered PlanDigest}

/--
Digests do not collide.

The digest is taken over the encoded manifest, which holds its safety class and
the fingerprints of both states.
-/
def DigestsIdentify (services : PlanServices codec Condition Body Lowered PlanDigest) : Prop :=
  ∀ first second digest,
    services.manifestDigest first = .ok digest → services.manifestDigest second = .ok digest →
      first.safety = second.safety ∧ first.sourceState = second.sourceState ∧
        first.targetState = second.targetState

/-- No approval satisfies the gates of two moves. -/
def SingleUse (services : PlanServices codec Condition Body Lowered PlanDigest)
    (moves : List (ExecutedMove codec Body PlanDigest)) : Prop :=
  ∀ approval, moves.Pairwise fun earlier later =>
      ¬ (earlier.SatisfiedBy services approval ∧ later.SatisfiedBy services approval)

/-- No gated move repeats an earlier gated one. -/
def NeverRepeats (moves : List (ExecutedMove codec Body PlanDigest)) : Prop :=
  moves.Pairwise fun earlier later => earlier.Gated → later.Gated → ¬ earlier.Repeats later

instance (move : ExecutedMove codec Body PlanDigest) : Decidable move.Gated :=
  inferInstanceAs (Decidable (move.decision = .requireApproval))

instance (earlier later : ExecutedMove codec Body PlanDigest) : Decidable (earlier.Repeats later) :=
  inferInstanceAs (Decidable (_ ∧ _ ∧ (_ ∨ _)))

instance (moves : List (ExecutedMove codec Body PlanDigest)) : Decidable (NeverRepeats moves) :=
  inferInstanceAs (Decidable (List.Pairwise _ moves))

theorem ExecutedRun.singleUse_iff {graph : MigrationHistoryGraph codec Body} {applied : IdSet}
    {moves : List (ExecutedMove codec Body PlanDigest)}
    (run : ExecutedRun services graph applied moves) :
    SingleUse services moves ↔ NeverRepeats moves := by
  constructor
  · intro single
    refine List.pairwise_iff_forall_sublist.mpr ?_
    intro earlier later listed gated laterGated repeats
    have first := run.admitted earlier (listed.subset (by simp))
    have second := run.admitted later (listed.subset (by simp))
    obtain ⟨approval, both⟩ := (first.exists_satisfiedBy_both_iff second).mpr
        ⟨gated, laterGated, repeats⟩
    exact List.pairwise_iff_forall_sublist.mp (single approval) listed both
  · intro never approval
    refine List.pairwise_iff_forall_sublist.mpr ?_
    intro earlier later listed both
    have first := run.admitted earlier (listed.subset (by simp))
    have second := run.admitted later (listed.subset (by simp))
    obtain ⟨gated, laterGated, repeats⟩ :=
      (first.exists_satisfiedBy_both_iff second).mp ⟨approval, both⟩
    exact List.pairwise_iff_forall_sublist.mp never listed gated laterGated repeats

variable {manifest : VerifiedSchemaMigrationManifest codec Body}
  {approval : MigrationApplyApproval Digest PlanDigest}

omit [DecidableEq Body] [DecidableEq PlanDigest] in
theorem forManifest_oneDirectional_iff (identify : DigestsIdentify services)
    (made : MigrationApplyApproval.forManifest services manifest = .ok approval) :
    (∀ other rollbackSafety, ¬ BindsRollback services other rollbackSafety approval) ↔
      manifest.sourceState ≠ manifest.targetState := by
  have own := boundTransition_of_forTransition made
  constructor
  · intro never coincide
    refine never manifest manifest.safety
      ⟨own.safety, ?_, ?_, own.id, own.fingerprint, own.semantic, own.lowering, own.digest⟩
    · rw [own.source]
      simpa using coincide
    · rw [own.target]
      simpa using coincide.symm
  · intro differ other rollbackSafety bound
    obtain ⟨-, -, sameTarget⟩ := identify manifest other _ own.digest bound.digest
    apply differ
    calc
      manifest.sourceState = approval.sourceState := by simpa using own.source.symm
      _ = other.targetState := bound.source
      _ = manifest.targetState := sameTarget.symm

omit [DecidableEq Body] [DecidableEq PlanDigest] in
/--
A rollback approval never binds an application exactly if the states or the
safety classes differ.
-/
theorem forRollback_oneDirectional_iff {rollbackSafety : SafetyClass}
    (identify : DigestsIdentify services)
    (made : MigrationApplyApproval.forRollback services manifest rollbackSafety = .ok approval) :
    (∀ other, ¬ BindsApply services other approval) ↔ manifest.sourceState ≠ manifest.targetState ∨
        rollbackSafety ≠ manifest.safety := by
  have own := boundTransition_of_forTransition made
  constructor
  · intro never
    by_contra coincide
    obtain ⟨sameStates, sameSafety⟩ := not_or.mp coincide
    have states := not_not.mp sameStates
    refine never manifest
      ⟨?_, ?_, ?_, own.id, own.fingerprint, own.semantic, own.lowering, own.digest⟩
    · exact own.safety.trans (not_not.mp sameSafety)
    · rw [own.source]
      simpa using states.symm
    · rw [own.target]
      simpa using states
  · intro differ other bound
    obtain ⟨sameSafety, sameSource, -⟩ := identify manifest other _ own.digest bound.digest
    rcases differ with states | safety
    · apply states
      calc
        manifest.sourceState = other.sourceState := sameSource
        _ = approval.sourceState := bound.source.symm
        _ = manifest.targetState := by simpa using own.source
    · apply safety
      calc
        rollbackSafety = approval.safety := own.safety.symm
        _ = other.safety := bound.safety
        _ = manifest.safety := sameSafety.symm

/--
When approvals are one-time and one-directional.

In a run of executed plans an approval satisfies at most one gate exactly if
no gated move repeats an earlier one. An approval made for one direction
never binds the other exactly if the states of its manifest differ or, for a
rollback, its safety class does.
-/
theorem approvals_single_use_iff
    (identify : DigestsIdentify services) :
    (∀ graph applied moves,
      ExecutedRun services graph applied moves →
        (SingleUse services moves ↔ NeverRepeats moves)) ∧
    (∀ manifest approval,
      MigrationApplyApproval.forManifest services manifest = .ok approval →
        ((∀ other rollbackSafety, ¬ BindsRollback services other rollbackSafety approval) ↔
          manifest.sourceState ≠ manifest.targetState)) ∧
    ∀ manifest rollbackSafety approval,
      MigrationApplyApproval.forRollback services manifest rollbackSafety = .ok approval →
        ((∀ other, ¬ BindsApply services other approval) ↔
          manifest.sourceState ≠ manifest.targetState ∨
            rollbackSafety ≠ manifest.safety) := by
  refine ⟨?_, ?_, ?_⟩
  · intro graph applied moves run
    exact run.singleUse_iff
  · intro manifest approval made
    exact forManifest_oneDirectional_iff identify made
  · intro manifest rollbackSafety approval made
    exact forRollback_oneDirectional_iff identify made

end SingleUse

/-! ## Approvals used twice -/

theorem digestsIdentify_droppingServices : DigestsIdentify droppingServices := by
  intro first second digest isFirst isSecond
  have same : plainPlanDigest first = plainPlanDigest second :=
    (Except.ok.inj isFirst).trans (Except.ok.inj isSecond).symm
  simp only [plainPlanDigest, Prod.mk.injEq] at same
  obtain ⟨-, sameRank, sameSource, sameTarget⟩ := same
  refine ⟨?_, sameSource, sameTarget⟩
  cases isClass : first.safety <;> cases isOther : second.safety <;> first
      | rfl
      | (rw [isClass, isOther] at sameRank; cases sameRank)

/-- The migration that removes the attribute `b` and adds it again. -/
def bounceManifest : VerifiedSchemaMigrationManifest plainCodec Unit :=
  Checked.get (do
      let drop ← droppingStep "drop" twoAttributes stringAttribute
      let add ← droppingStep "add" stringAttribute twoAttributes
      droppingManifest "bounce" [] twoAttributes [drop, add])
    (by decide +kernel)

def bounceHistory : MigrationHistoryGraph plainCodec Unit :=
  Checked.get (MigrationHistoryGraph.fromVerified [bounceManifest]) (by decide +kernel)

def bounceApproval : MigrationApplyApproval PlainBytes PlainPlanDigest :=
  Checked.get
    (MigrationApplyApproval.forManifest droppingServices bounceManifest) (by decide +kernel)

/-- The applied set after the removals. -/
def droppedIds : IdSet := (∅ : IdSet).insertMany (dropPlan.migrations.map (·.manifest.id))

/-- The plan that takes the applied removals back. -/
def undropPlan : VerifiedMigrationRollbackPlan plainCodec Unit
      (SchemaLoweringPlan PlainBytes Unit) PlainPlanDigest :=
  Checked.get (buildVerifiedMigrationRollbackPlan droppingServices dropHistory
      droppedIds droppedIds (droppingInputs dropApprovals))
    (by decide +kernel)

/-- The plan that removes the attributes once more. -/
def redropPlan : VerifiedMigrationApplyPlan plainCodec Unit
      (SchemaLoweringPlan PlainBytes Unit) PlainPlanDigest :=
  Checked.get (buildVerifiedMigrationApplyPlan droppingServices dropHistory
      (droppedIds \ droppedIds) .defaultHead (droppingInputs dropApprovals))
    (by decide +kernel)

/-- The moves of the removals and their rollback. -/
def undropMoves : List (ExecutedMove plainCodec Unit PlainPlanDigest) :=
  ([] ++ ExecutedMove.ofApply (droppingInputs dropApprovals) dropPlan) ++
    ExecutedMove.ofRollback (droppingInputs dropApprovals) undropPlan

/-- The moves of the removals, their rollback and the second removals. -/
def redropMoves : List (ExecutedMove plainCodec Unit PlainPlanDigest) :=
  undropMoves ++ ExecutedMove.ofApply (droppingInputs dropApprovals) redropPlan

theorem undropMoves_run :
    ExecutedRun droppingServices dropHistory (droppedIds \ droppedIds) undropMoves := by
  have dropped : buildVerifiedMigrationApplyPlan droppingServices dropHistory ∅
        .defaultHead (droppingInputs dropApprovals) = .ok dropPlan := eq_ok_get _ _
  have undropped : buildVerifiedMigrationRollbackPlan droppingServices dropHistory
        droppedIds droppedIds (droppingInputs dropApprovals) = .ok undropPlan :=
    eq_ok_get _ _
  exact .rollback (.apply (.start ∅) rfl dropped) rfl undropped

theorem redropMoves_run :
    ∃ applied, ExecutedRun droppingServices dropHistory applied redropMoves := by
  have redropped : buildVerifiedMigrationApplyPlan droppingServices dropHistory
        (droppedIds \ droppedIds) .defaultHead (droppingInputs dropApprovals) = .ok redropPlan :=
    eq_ok_get _ _
  exact ⟨_, .apply undropMoves_run rfl redropped⟩

/--
Two ways to use an approval again, although digests do not collide.

Approved removals are rolled back and then applied again under the same
approvals. The approval of a migration that ends where it began also admits
its rollback, and the approval of that rollback its application.
-/
theorem approval_used_twice :
    DigestsIdentify droppingServices ∧
      (∃ applied,
        ExecutedRun droppingServices dropHistory applied redropMoves ∧
          (∀ move ∈ redropMoves, move.approvals = dropApprovals) ∧
          ¬ SingleUse droppingServices redropMoves) ∧
      (MigrationApplyApproval.forManifest droppingServices bounceManifest = .ok bounceApproval ∧
        ∃ plan,
          buildVerifiedMigrationRollbackPlan droppingServices bounceHistory
              (namedIds ["bounce"]) (namedIds ["bounce"])
              (droppingInputs [bounceApproval]) = .ok plan ∧
            ∃ entry ∈ plan.rollbacks,
              BindsRollback droppingServices entry.manifest entry.rollbackSafety bounceApproval) ∧
      ∃ approval,
        MigrationApplyApproval.forRollback droppingServices bounceManifest
            bounceManifest.safety = .ok approval ∧
          BindsApply droppingServices bounceManifest approval := by
  refine ⟨digestsIdentify_droppingServices, ?_, ⟨eq_ok_get _ _, ?_⟩, ?_⟩
  · obtain ⟨applied, run⟩ := redropMoves_run
    refine ⟨applied, run, ?_, ?_⟩
    · intro move member
      simp only [redropMoves, undropMoves, ExecutedMove.ofApply,
        ExecutedMove.ofRollback, List.nil_append, List.mem_append, List.mem_map] at member
      rcases member with (⟨_, -, rfl⟩ | ⟨_, -, rfl⟩) | ⟨_, -, rfl⟩ <;> rfl
    · intro single
      have never := run.singleUse_iff.mp single
      revert never
      decide +kernel
  · refine ⟨_, eq_ok_get _ (by decide +kernel), ?_⟩
    unfold BindsRollback
    decide +kernel
  · refine ⟨_, eq_ok_get _ (by decide +kernel), ?_⟩
    unfold BindsApply
    decide +kernel

/-- Applied and rolled back once, two gated removals use their approvals once. -/
theorem dropApproval_single_use :
    DigestsIdentify droppingServices ∧
      ExecutedRun droppingServices dropHistory (droppedIds \ droppedIds) undropMoves ∧
      (undropMoves.filter (·.decision = .requireApproval)).length = 2 ∧
      NeverRepeats undropMoves ∧
      SingleUse droppingServices undropMoves ∧
      (∀ other rollbackSafety,
        ¬ BindsRollback droppingServices other rollbackSafety dropApproval) := by
  have never : NeverRepeats undropMoves := by decide +kernel
  have differ : dropManifest.sourceState ≠ dropManifest.targetState := by decide +kernel
  obtain ⟨runs, forward, -⟩ := approvals_single_use_iff digestsIdentify_droppingServices
  exact ⟨digestsIdentify_droppingServices, undropMoves_run, by decide +kernel, never,
    (runs dropHistory _ _ undropMoves_run).mpr never,
    (forward dropManifest dropApproval (eq_ok_get _ _)).mpr differ⟩

end TypeBridge.Migration
