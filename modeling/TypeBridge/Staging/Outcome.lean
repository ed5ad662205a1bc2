import TypeBridge.Staging.Run

namespace TypeBridge.Staging

/-!
# The outcome a commit call reports

Once the provider's commit has started, or a proxy request has been handed to
its sender, the work may be durable whatever happens to the call. A handle
that then reads closed, rolled back or refused says that nothing was applied.
-/

open Library

variable {orm : Interface} {backend : Backend}

/-! ## How a commit call stops -/

/-- A call that had nothing to commit: it never waits and writes nothing. -/
def IsIdle (transaction : Transaction orm backend) (handles : Handles orm)
    (ending : Ending (@Call.Answer orm) (Handles orm) CommitResult) : Prop :=
  ending.answered = [] ∧ ending.shown = [] ∧ ending.state = handles ∧ ((∃ failure,
        ending.stop = .returned (.returned (.error failure)) ∧ failure.IsPlain) ∨
      ending.stop = .returned (.returned (.ok ())) ∧ transaction.stack = [])

theorem commitEnding_cases (session : Session orm backend) (transaction : Transaction orm backend)
    (surroundings : Surroundings orm) :
    IsIdle transaction session.handles (commitEnding session transaction surroundings) ∨
      transaction.stack ≠ [] ∧ commitEnding session transaction surroundings =
          (commitItems transaction.options surroundings.deadlineFits
            transaction.stack session.handles).run surroundings.environment [] := by
  unfold commitEnding Transaction.commit
  cases transaction.closed with
  | true => exact .inl ⟨rfl, rfl, rfl, .inl ⟨_, rfl, rfl, rfl⟩⟩
  | false =>
    cases empty : transaction.stack.isEmpty with
    | true => exact .inl ⟨rfl, rfl, rfl, .inr ⟨rfl, List.isEmpty_iff.mp empty⟩⟩
    | false => exact .inr ⟨List.isEmpty_eq_false_iff.mp empty, rfl⟩

theorem direct_stopped (handles : Handles orm) (options : TransactionOptions)
    (surroundings : Surroundings orm) (items : List (Item orm .direct)) :
    Waiting.Stopped (WaitsDirect handles) (fun answered state result => ∃ outcome,
          result = .returned outcome ∧ EndsDirect answered outcome ∧
          Concluded items answered handles state outcome)
      ((commitItems options surroundings.deadlineFits items handles).run
        surroundings.environment []) :=
  Waiting.Every.stopped (ensures_commitLocal handles _ _ surroundings.deadlineFits items) _

theorem proxy_stopped (handles : Handles orm) (options : TransactionOptions)
    (surroundings : Surroundings orm) (items : List (Item orm .proxy)) :
    Waiting.Stopped (WaitsProxy items handles) (fun answered state result =>
        EndsProxy items handles state answered result)
      ((commitItems options surroundings.deadlineFits items handles).run
        surroundings.environment []) :=
  Waiting.Every.stopped (ensures_commitProxy handles _ items) _

/-! ## Reports -/

/-- A handle's failure that says its work was not applied. -/
def PendingError.DeniesEffect : PendingError → Prop
  | .closed => True
  | .rolledBack => True
  | .refused _ _ => True
  | _ => False

/-- The provider says that nothing of a commit was applied. -/
def IsAbort : Except ClassifiedCommitError Unit → Prop
  | .error (.driver .definitelyAborted _) => True
  | _ => False

namespace Ended

/-- The provider commit had started, or the request was with its sender. -/
def Started (ended : Ended orm backend) : Prop :=
  match backend with
  | .direct => ended.stop = .dropped .commit ∨ commitAnswers ended.answered ≠ []
  | .proxy =>
      (∃ plans, ended.stop = .dropped (.send plans)) ∨
        ∃ plans sent, ⟨.send plans, sent⟩ ∈ ended.answered

/-- The provider or a verified reply says that nothing was applied. -/
def ReportedAbort (ended : Ended orm backend) : Prop :=
  match backend with
  | .direct => ∃ answer ∈ commitAnswers ended.answered, IsAbort answer
  | .proxy =>
      ∃ plans reply projection, ⟨.send plans, .ok reply⟩ ∈ ended.answered ∧
        verify reply plans = .ok (.inl projection) ∧
        projection.code ≠ "commit_outcome_unknown"

/-- The call's handles and error leave open what may have been applied. -/
def KeepsOutcome (ended : Ended orm backend) (handles : Handles orm) : Prop :=
  ended.Started →
  ¬ ended.ReportedAbort →
  (∀ item ∈ ended.items, ∀ error, handles item.handle = .error error → ¬ error.DeniesEffect) ∧
  ∀ failure, ended.stop = .returned (.returned (.error failure)) →
    failure.error.commitFailureCertainty ≠ some .definitelyAborted

/--
The call was dropped at the provider's commit, or at the close after a commit
that the provider did not report as aborted.
-/
def DroppedAfterStart (ended : Ended orm backend) : Prop :=
  match backend with
  | .direct =>
      ended.stop = .dropped .commit ∨ ended.stop = .dropped .close ∧
          ∃ answer ∈ commitAnswers ended.answered, ¬ IsAbort answer
  | .proxy => False

theorem KeepsOutcome.congr {ended : Ended orm backend} {handles later : Handles orm}
    (same : ∀ item ∈ ended.items, later item.handle = handles item.handle) :
    ended.KeepsOutcome later ↔ ended.KeepsOutcome handles := by
  unfold KeepsOutcome
  refine imp_congr_right fun _ => imp_congr_right fun _ => and_congr_left fun _ => ?_
  refine forall_congr' fun item => forall_congr' fun member => ?_
  rw [same item member]

end Ended

/-! ## One commit call -/

variable {failure : CommitError}

theorem CommitError.not_deniesEffect (unrefused : failure.remote = none) :
    ¬ failure.pending.DeniesEffect := by
  rcases failure.pending_cases with ⟨message, shape, _⟩ | ⟨refusal, _, refused⟩
  · rw [shape]
    exact id
  · rw [unrefused] at refused
    cases refused

variable {items : List (Item orm backend)} {item : Item orm backend}

theorem dropExecution_failAll (member : item ∈ items) (failure : CommitError)
    (handles : Handles orm) :
    dropExecution items (failAll items failure.pending handles) item.handle =
      .error failure.pending := by
  have written : failAll items failure.pending handles item.handle = .error failure.pending :=
    failAll_of_mem (List.mem_map_of_mem member) _ _
  rw [dropExecution_of_ne, written]
  rw [written]
  rcases failure.pending_cases with ⟨_, shape, _⟩ | ⟨_, shape, _⟩ <;> simp [shape]

variable {handles : Handles orm}

theorem keepsOutcome_failed {ended : Ended orm backend}
    (stop : ended.stop = .returned (.returned (.error failure))) (unrefused : failure.remote = none)
    (uncertain : failure.error.commitFailureCertainty ≠ some .definitelyAborted) :
    ended.KeepsOutcome (dropExecution ended.items
        (failAll ended.items failure.pending handles)) := by
  intro _ _
  constructor
  · intro item member error reads
    rw [dropExecution_failAll member] at reads
    cases reads
    exact failure.not_deniesEffect unrefused
  · intro someFailure sameStop
    rw [stop] at sameStop
    cases sameStop
    exact uncertain

variable {answers : List (Resolved orm)} {index : Nat}

theorem dropExecution_publishAll (distinct : (items.map Item.handle).Nodup) {answer : Resolved orm}
    (itemAt : items[index]? = some item) (answerAt : answers[index]? = some answer)
    (handles : Handles orm) :
    dropExecution items (publishAll items answers handles) item.handle = .ok answer := by
  have written := publishAll_at distinct itemAt answerAt handles
  rw [dropExecution_of_ne, written]
  rw [written]
  simp

theorem dropExecution_published (distinct : (items.map Item.handle).Nodup)
    (sameLength : answers.length = items.length) (member : item ∈ items) (handles : Handles orm) :
    ∃ answer, dropExecution items (publishAll items answers handles) item.handle = .ok answer := by
  obtain ⟨index, bound, itemAt⟩ := List.mem_iff_getElem.mp member
  have answerBound : index < answers.length := by rwa [sameLength]
  exact ⟨answers[index], dropExecution_publishAll distinct
      (List.getElem?_eq_some_iff.mpr ⟨bound, itemAt⟩)
      (List.getElem?_eq_getElem answerBound) handles⟩

theorem idle_keepsOutcome {session : Session orm backend} {transaction : Transaction orm backend}
    {surroundings : Surroundings orm}
    (idle : IsIdle transaction session.handles (commitEnding session transaction surroundings))
    (handles : Handles orm) : (endedCommit session transaction surroundings).KeepsOutcome handles ∧
      ¬ (endedCommit session transaction surroundings).DroppedAfterStart := by
  obtain ⟨noAnswers, _, _, stops⟩ := idle
  have returned : ∀ call : Call orm,
        (endedCommit session transaction surroundings).stop ≠ .dropped call := by
    intro call dropped
    change (commitEnding session transaction surroundings).stop = _ at dropped
    rcases stops with ⟨_, stop, _⟩ | ⟨stop, _⟩ <;> rw [stop] at dropped <;> cases dropped
  have unanswered : (endedCommit session transaction surroundings).answered = [] := noAnswers
  cases backend with
  | direct =>
    constructor
    · intro started
      rcases started with dropped | committed
      · exact absurd dropped (returned _)
      · rw [unanswered] at committed
        exact absurd rfl committed
    · rintro (dropped | ⟨dropped, _⟩) <;> exact returned _ dropped
  | proxy =>
    constructor
    · intro started
      rcases started with ⟨plans, dropped⟩ | ⟨plans, sent, member⟩
      · exact absurd dropped (returned _)
      · rw [unanswered] at member
        cases member
    · exact id

variable {ended : Ended orm .direct} {state : Handles orm}

theorem direct_dropped_iff {call : Call orm} (stop : ended.stop = .dropped call)
    (waits : WaitsDirect handles ended.answered state call) (nonempty : ended.items ≠ [])
    (pending : ∀ item ∈ ended.items, handles item.handle = .error .notCommitted) :
    ended.KeepsOutcome (dropExecution ended.items state) ↔ ¬ ended.DroppedAfterStart := by
  obtain ⟨rfl, started⟩ := waits
  obtain ⟨item, member⟩ := List.exists_mem_of_ne_nil _ nonempty
  have closed : dropExecution ended.items state item.handle = .error .closed :=
    dropExecution_of_pending (List.mem_map_of_mem member) (pending item member)
  constructor
  · rintro keeps lost
    have denied : ended.Started → ended.ReportedAbort := by
      intro hasStarted
      by_contra unreported
      exact (keeps hasStarted unreported).1 item member .closed closed trivial
    rcases lost with atCommit | ⟨atClose, answer, answerMember, noAbort⟩
    · obtain ⟨answer, reported, _⟩ := denied (.inl atCommit)
      rw [stop] at atCommit
      cases atCommit
      rcases started with none | ⟨isClose, _⟩
      · rw [none] at reported
        cases reported
      · cases isClose
    · obtain ⟨other, reported, abort⟩ := denied (.inr (List.ne_nil_of_mem answerMember))
      rcases started with none | ⟨_, only, shape⟩
      · rw [none] at reported
        cases reported
      · rw [shape, List.mem_singleton] at reported answerMember
        rw [reported] at abort
        rw [answerMember] at noAbort
        exact noAbort abort
  · intro kept hasStarted unreported
    refine absurd ?_ kept
    rcases hasStarted with atCommit | answeredCommit
    · exact .inl atCommit
    · rcases started with none | ⟨isClose, answer, shape⟩
      · exact absurd none answeredCommit
      · have member : answer ∈ commitAnswers ended.answered := by
          rw [shape]
          exact List.mem_singleton_self answer
        exact .inr ⟨by rw [stop, isClose], answer, member, fun abort =>
          unreported ⟨answer, member, abort⟩⟩

theorem direct_returned_keepsOutcome {outcome : Except CommitError Unit}
    (stop : ended.stop = .returned (.returned outcome)) (ends : EndsDirect ended.answered outcome)
    (concluded : Concluded ended.items ended.answered handles state outcome)
    (distinct : (ended.items.map Item.handle).Nodup) :
    ended.KeepsOutcome (dropExecution ended.items state) := by
  cases concluded with
  | published answers resolved written =>
    rw [written]
    intro _ _
    constructor
    · intro item member error reads
      obtain ⟨answer, published⟩ := dropExecution_published distinct resolved.1 member handles
      rw [published] at reads
      cases reads
    · intro failure sameStop
      rw [stop] at sameStop
      cases sameStop
  | failed failure written =>
    rw [written]
    rcases ends with ⟨_, plain⟩ | ⟨error, shape, rfl⟩
    · refine keepsOutcome_failed stop plain.2 ?_
      rw [plain.1]
      simp
    · intro hasStarted unreported
      refine keepsOutcome_failed stop rfl ?_ hasStarted unreported
      intro aborted
      refine unreported ⟨.error error, ?_, ?_⟩
      · rw [shape]
        exact List.mem_singleton_self _
      · cases error with
        | orm text => cases aborted
        | driver certainty message =>
          cases aborted
          trivial

theorem direct_keepsOutcome_iff {session : Session orm .direct} (sound : session.Sound)
    {transaction : Transaction orm .direct} (present : session.transaction = some transaction)
    (surroundings : Surroundings orm)
    (runs : transaction.stack ≠ [] ∧ commitEnding session transaction surroundings =
          (commitItems transaction.options surroundings.deadlineFits
            transaction.stack session.handles).run surroundings.environment []) :
    (endedCommit session transaction surroundings).KeepsOutcome
        (session.finishCommit transaction surroundings).handles ↔
      ¬ (endedCommit session transaction surroundings).DroppedAfterStart := by
  have stopped := direct_stopped session.handles transaction.options surroundings transaction.stack
  rw [← runs.2] at stopped
  unfold Waiting.Stopped at stopped
  cases stop : (commitEnding session transaction surroundings).stop with
  | dropped call =>
    rw [stop] at stopped
    exact direct_dropped_iff stop stopped runs.1 (sound.pending_of_stacked present)
  | returned result =>
    rw [stop] at stopped
    obtain ⟨outcome, rfl, ends, concluded⟩ := stopped
    refine iff_of_true (direct_returned_keepsOutcome stop ends concluded
        (sound.distinct_of_stacked present)) ?_
    rintro (dropped | ⟨dropped, _⟩)
    · exact absurd (stop.symm.trans dropped) (by simp)
    · exact absurd (stop.symm.trans dropped) (by simp)

variable {items : List (Item orm .proxy)}

theorem resolveReply_eq_error {answers : List orm.StagedAnswer}
    (reads : resolveReply index items answers = some (.error failure)) : failure.IsPlain := by
  fun_induction resolveReply index items answers with
  | case1 index item items answer answers noPlan => cases reads
  | case2 index item items answer answers plan hasPlan diagnostic resolves =>
    cases reads
    exact ⟨rfl, rfl⟩
  | case3 index item items answer answers plan hasPlan resolved resolves ih =>
      obtain ⟨outcome, rest, shape⟩ := Option.map_eq_some_iff.mp reads
      cases outcome with
      | ok later => cases shape
      | error laterFailure =>
        cases shape
        exact ih rest
  | case4 => cases reads

theorem proxyOutcome_eq_error {plans : List orm.StagedPlan} {sent : Except String orm.Reply}
    (reads : proxyOutcome items plans sent = some (.error failure)) :
    failure.remote = none ∧ failure.error.commitFailureCertainty ≠ some .definitelyAborted ∨
      ∃ reply projection, sent = .ok reply ∧ verify reply plans = .ok (.inl projection) ∧
        projection.code ≠ "commit_outcome_unknown" := by
  cases sent with
  | error text =>
    cases reads
    exact .inl ⟨rfl, by simp [unknownOutcome, CommitError.new,
      ClassifiedCommitError.commitFailureCertainty]⟩
  | ok reply =>
    simp only [proxyOutcome] at reads
    cases verified : verify reply plans with
    | error diagnostic =>
      rw [verified] at reads
      cases reads
      exact .inl ⟨rfl, by simp [unknownOutcome, CommitError.new,
        ClassifiedCommitError.commitFailureCertainty]⟩
    | ok outcome =>
      rw [verified] at reads
      cases outcome with
      | inl projection =>
        by_cases unknown : projection.code = "commit_outcome_unknown"
        · cases reads
          refine .inl ⟨?_, ?_⟩ <;> simp [proxyFailure, unknown,
              ClassifiedCommitError.commitFailureCertainty]
        · exact .inr ⟨reply, projection, rfl, verified, unknown⟩
      | inr answers =>
        have plain := resolveReply_eq_error reads
        refine .inl ⟨plain.2, ?_⟩
        rw [plain.1]
        simp

theorem publishAll_cases (items : List (Item orm backend)) (answers : List (Resolved orm))
    (handles : Handles orm) (handle : Handle) :
    publishAll items answers handles handle = handles handle ∨
      ∃ answer, publishAll items answers handles handle = .ok answer := by
  induction items generalizing answers handles with
  | nil => exact .inl rfl
  | cons item items ih =>
    cases answers with
    | nil => exact .inl rfl
    | cons answer answers =>
      simp only [publishAll]
      rcases ih answers (Function.update handles item.handle (.ok answer)) with
        same | published
      · rw [same]
        by_cases own : handle = item.handle
        · subst own
          exact .inr ⟨answer, Function.update_self _ _ _⟩
        · exact .inl (Function.update_of_ne own _ _)
      · exact .inr published

theorem not_deniesEffect_sentHandles {item : Item orm .proxy} (member : item ∈ items)
    {error : PendingError}
    (reads : dropExecution items (sentHandles items handles) item.handle = .error error) :
    ¬ error.DeniesEffect := by
  unfold sentHandles at reads
  rw [dropExecution_failAll member] at reads
  cases reads
  exact CommitError.not_deniesEffect rfl

theorem proxy_returned_keepsOutcome {ended : Ended orm .proxy} {result : CommitResult}
    (stop : ended.stop = .returned result)
    (ends : EndsProxy ended.items handles state ended.answered result) :
    ended.KeepsOutcome (dropExecution ended.items state) := by
  generalize answeredEq : ended.answered = answered at ends
  cases ends with
  | unsealed failure plain written =>
    rw [written]
    refine keepsOutcome_failed stop plain.2 ?_
    rw [plain.1]
    simp
  | failed plans sent failure reads written =>
    rw [written]
    rcases proxyOutcome_eq_error reads with
      ⟨unrefused, uncertain⟩ | ⟨reply, projection, rfl, verified, aborted⟩
    · exact keepsOutcome_failed stop unrefused uncertain
    · intro _ unreported
      refine absurd ⟨plans, reply, projection, ?_, verified, aborted⟩ unreported
      rw [answeredEq]
      exact List.mem_singleton_self _
  | published sent answers reads written =>
    rw [written]
    intro _ _
    constructor
    · intro item member error reading
      rcases publishAll_cases ended.items answers
          (sentHandles ended.items handles) item.handle with same | ⟨answer, published⟩
      · have unpublished : dropExecution ended.items (sentHandles ended.items handles)
                item.handle =
              .error error := by
          rw [← reading]
          unfold dropExecution
          rw [same]
        exact not_deniesEffect_sentHandles member unpublished
      · rw [dropExecution_of_ne (by simp [published]), published] at reading
        cases reading
    · intro failure sameStop
      exact absurd (stop.symm.trans sameStop) (by simp)
  | panicked plans sent reads written =>
    rw [written]
    intro _ _
    refine ⟨fun item member error reading => not_deniesEffect_sentHandles member reading, ?_⟩
    intro failure sameStop
    exact absurd (stop.symm.trans sameStop) (by simp)

theorem proxy_keepsOutcome {session : Session orm .proxy} {transaction : Transaction orm .proxy}
    (surroundings : Surroundings orm) (runs : commitEnding session transaction surroundings =
        (commitItems transaction.options surroundings.deadlineFits
          transaction.stack session.handles).run surroundings.environment []) :
    (endedCommit session transaction surroundings).KeepsOutcome
      (session.finishCommit transaction surroundings).handles := by
  have stopped := proxy_stopped session.handles transaction.options surroundings transaction.stack
  rw [← runs] at stopped
  unfold Waiting.Stopped at stopped
  cases stop : (commitEnding session transaction surroundings).stop with
  | dropped call =>
    rw [stop] at stopped
    obtain ⟨_, unwritten, _⟩ := stopped
    intro _ _
    constructor
    · intro item member error reads
      change dropExecution transaction.stack
        (commitEnding session transaction surroundings).state _ = _ at reads
      rw [unwritten] at reads
      exact not_deniesEffect_sentHandles member reads
    · intro failure sameStop
      exact absurd (stop.symm.trans sameStop) (by simp)
  | returned result =>
    rw [stop] at stopped
    exact proxy_returned_keepsOutcome stop stopped

/-! ## Every run -/

variable (orm) in
/--
In every run of a transaction, an ended commit call leaves open what may have
been applied exactly if it was not dropped after the provider commit had
started.
-/
theorem commit_outcome_kept_iff (backend : Backend) (options : TransactionOptions)
    (uses : List (Use orm)) :
    ∀ ended ∈ ((Session.new orm backend options).run uses).ended, ended.KeepsOutcome
          ((Session.new orm backend options).run uses).handles ↔ ¬ ended.DroppedAfterStart := by
  refine Session.ended_run (fun ended handles =>
      ended.KeepsOutcome handles ↔ ¬ ended.DroppedAfterStart)
    (fun _ => True) (fun _ => True) ?_ (fun _ _ _ _ => trivial) ?_ trivial (fun _ _ => trivial)
  · intro ended handles later same iff
    rw [Ended.KeepsOutcome.congr same]
    exact iff
  · intro session transaction surroundings sound _ present
    rcases commitEnding_cases session transaction surroundings with idle | runs
    · obtain ⟨keeps, undropped⟩ := idle_keepsOutcome idle
          (session.finishCommit transaction surroundings).handles
      exact iff_of_true keeps undropped
    · cases backend with
      | direct => exact direct_keepsOutcome_iff sound present surroundings runs
      | proxy => exact iff_of_true (proxy_keepsOutcome surroundings runs.2) id

/-! ## A commit dropped while the provider commits -/

/-- The smallest parts a transaction can be put together from. -/
def plainInterface : Interface where
  Plan := Unit
  Operation := Unit
  StagedPlan := Unit
  StagedAnswer := Unit
  QueryResult := Unit
  PlanAnswer := Unit
  ProgramAnswer := Unit
  Reply := Unit
  writes := fun _ => true
  operation := fun _ => ()
  stagedQuery := fun _ => .ok ⟨"insert $x isa person;", true⟩
  stagedPlan := fun _ => .ok ()
  stagedPlanWrites := fun _ => true
  resolve := fun _ _ => .ok ()
  fromStaged := fun _ _ => .ok ()
  sealRequest := fun _ _ => .ok ()
  openReply := fun _ plans => .ok (none, plans)
  checkAnswers := fun _ _ => .ok ()

/-- A provider that answers everything until its commit is dropped. -/
def droppedAtCommit : Surroundings plainInterface where
  deadlineFits := true
  environment := fun _ call =>
    match call with
    | .openTransaction _ => some (.ok ())
    | .query _ _ => some (.ok ())
    | .runProgram _ => some (.ok (), true)
    | .rollback => some (.ok ())
    | .close => some (.ok ())
    | .commit => none
    | .send _ => some (.ok ())

/-- One staged write whose commit is dropped while the provider commits. -/
def interruptedSession : Session plainInterface .direct :=
  (Session.new plainInterface .direct ⟨none, false⟩).run
    [.stage ⟨"insert $x isa person;", true⟩, .commit droppedAtCommit]

/-- Its handle reads closed although the provider may have committed. -/
theorem interrupted_commit_reads_closed :
    ¬ ∀ ended ∈ interruptedSession.ended, ended.KeepsOutcome interruptedSession.handles := by
  intro keeps
  have kept := keeps _ (List.mem_singleton_self _)
  have unreported : ¬ (endedCommit ((Session.new plainInterface .direct ⟨none, false⟩).step
            (.stage ⟨"insert $x isa person;", true⟩))
          ⟨⟨none, false⟩, [.query 0 ⟨"insert $x isa person;", true⟩], false⟩
          droppedAtCommit).ReportedAbort := by
    rintro ⟨answer, member, _⟩
    cases member
  exact (kept (.inl rfl) unreported).1
    (.query 0 ⟨"insert $x isa person;", true⟩) (List.mem_singleton_self _) .closed rfl trivial

theorem interrupted_commit_iff_dropped :
    ∃ ended ∈ interruptedSession.ended, (ended.KeepsOutcome interruptedSession.handles ↔
      ¬ ended.DroppedAfterStart) :=
  ⟨_, List.mem_singleton_self _,
    commit_outcome_kept_iff plainInterface .direct ⟨none, false⟩ _ _ (List.mem_singleton_self _)⟩

end TypeBridge.Staging
