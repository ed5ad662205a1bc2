import TypeBridge.Staging.Staged

namespace TypeBridge.Staging

/-!
# What a commit call does

One guarantee for each part of a commit: in which state the handles are
whenever it waits, and what has been answered and written when it returns.
-/

open Library

variable {orm : Interface} {backend : Backend}

/-! ## Handles -/

variable {handle : Handle}

theorem failAll_of_mem {items : List (Item orm backend)} (member : handle ∈ items.map Item.handle)
    (error : PendingError) (handles : Handles orm) :
    failAll items error handles handle = .error error := by
  simp only [failAll, if_pos member]

theorem failAll_of_not_mem {items : List (Item orm backend)}
    (notMember : handle ∉ items.map Item.handle) (error : PendingError) (handles : Handles orm) :
    failAll items error handles handle = handles handle := by
  simp only [failAll, if_neg notMember]

theorem publishAll_of_not_mem {items : List (Item orm backend)}
    (notMember : handle ∉ items.map Item.handle) (answers : List (Resolved orm))
    (handles : Handles orm) : publishAll items answers handles handle = handles handle := by
  induction items generalizing answers handles with
  | nil => rfl
  | cons item items ih =>
    simp only [List.map_cons, List.mem_cons, not_or] at notMember
    cases answers with
    | nil => rfl
    | cons answer answers =>
      simp only [publishAll]
      rw [ih notMember.2, Function.update_of_ne notMember.1]

theorem publishAll_at {items : List (Item orm backend)} {answers : List (Resolved orm)}
    (distinct : (items.map Item.handle).Nodup) {index : Nat} {item : Item orm backend}
    {answer : Resolved orm} (itemAt : items[index]? = some item)
    (answerAt : answers[index]? = some answer) (handles : Handles orm) :
    publishAll items answers handles item.handle = .ok answer := by
  induction items generalizing answers index handles with
  | nil => simp at itemAt
  | cons first items ih =>
    simp only [List.map_cons, List.nodup_cons] at distinct
    cases answers with
    | nil => simp at answerAt
    | cons firstAnswer answers =>
      cases index with
      | zero =>
        simp only [List.getElem?_cons_zero, Option.some.injEq] at itemAt answerAt
        subst first firstAnswer
        simp only [publishAll]
        rw [publishAll_of_not_mem distinct.1, Function.update_self]
      | succ index =>
        simp only [List.getElem?_cons_succ] at itemAt answerAt
        exact ih distinct.2 itemAt answerAt _

theorem dropExecution_of_not_mem {items : List (Item orm backend)}
    (notMember : handle ∉ items.map Item.handle) (handles : Handles orm) :
    dropExecution items handles handle = handles handle := by
  unfold dropExecution
  split
  · rename_i pending
    rw [if_neg notMember]
  · rfl

variable {handles : Handles orm}

theorem dropExecution_of_ne {items : List (Item orm backend)}
    (written : handles handle ≠ .error .notCommitted) :
    dropExecution items handles handle = handles handle := by
  unfold dropExecution
  split
  · rename_i pending
    exact absurd pending written
  · rfl

theorem dropExecution_of_pending {items : List (Item orm backend)}
    (member : handle ∈ items.map Item.handle) (pending : handles handle = .error .notCommitted) :
    dropExecution items handles handle = .error .closed := by
  simp only [dropExecution, pending, if_pos member]

theorem dropExecution_ne_notCommitted {items : List (Item orm backend)}
    (member : handle ∈ items.map Item.handle) (handles : Handles orm) :
    dropExecution items handles handle ≠ .error .notCommitted := by
  by_cases pending : handles handle = .error .notCommitted
  · rw [dropExecution_of_pending member pending]
    simp
  · rw [dropExecution_of_ne pending]
    exact pending

theorem CommitError.pending_cases (failure : CommitError) :
    (∃ message, failure.pending = .failed failure.opIndex message ∧ failure.remote = none) ∨
    ∃ refusal, failure.pending = .refused failure.opIndex refusal ∧
      failure.remote = some refusal := by
  unfold CommitError.pending
  cases failure.remote with
  | none => exact .inl ⟨_, rfl, rfl⟩
  | some refusal => exact .inr ⟨_, rfl, rfl⟩

/-! ## What the provider answered -/

def commitAnswers (answered : List (Answered (@Call.Answer orm))) :
    List (Except ClassifiedCommitError Unit) :=
  answered.filterMap fun
    | ⟨.commit, answer⟩ => some answer
    | _ => none

@[simp] theorem commitAnswers_append (answered later : List (Answered (@Call.Answer orm))) :
    commitAnswers (answered ++ later) = commitAnswers answered ++ commitAnswers later :=
  List.filterMap_append

variable {call : Call orm}

theorem commitAnswers_of_ne (notCommit : call ≠ .commit) (answer : call.Answer) :
    commitAnswers [(⟨call, answer⟩ : Answered (@Call.Answer orm))] = [] := by
  cases call with
  | commit => exact absurd rfl notCommit
  | _ => rfl

def ResolvedBy (answered : List (Answered (@Call.Answer orm))) (index : Nat) :
    Item orm backend → Resolved orm → Prop
  | .query _ query, resolved =>
      ∃ result, ⟨Call.query index query.typeql, .ok result⟩ ∈ answered ∧ resolved = .query result
  | .plan _ query operation, resolved =>
      ∃ result answer, ⟨Call.query index query.typeql, .ok result⟩ ∈ answered ∧
        orm.resolve operation result = .ok answer ∧
        resolved = .plan answer
  | .remotePlan _ plan, resolved =>
      ∃ plans reply answers staged answer, ⟨Call.send plans, .ok reply⟩ ∈ answered ∧
        verify reply plans = .ok (.inr answers) ∧
        answers[index]? = some staged ∧
        orm.fromStaged staged plan = .ok answer ∧
        resolved = .plan answer
  | .program _, resolved =>
      ∃ answer kept, ⟨Call.runProgram index, (.ok answer, kept)⟩ ∈ answered ∧
        resolved = .program answer

variable {answered : List (Answered (@Call.Answer orm))}

theorem ResolvedBy.mono {later : List (Answered (@Call.Answer orm))} {index : Nat}
    {item : Item orm backend} {resolved : Resolved orm} (extended : answered <+: later)
    (resolves : ResolvedBy answered index item resolved) :
    ResolvedBy later index item resolved := by
  have subset : answered ⊆ later := extended.subset
  cases item with
  | query handle query =>
    obtain ⟨result, member, shape⟩ := resolves
    exact ⟨result, subset member, shape⟩
  | plan handle query operation =>
    obtain ⟨result, answer, member, rest⟩ := resolves
    exact ⟨result, answer, subset member, rest⟩
  | remotePlan handle plan =>
    obtain ⟨plans, reply, answers, staged, answer, member, rest⟩ := resolves
    exact ⟨plans, reply, answers, staged, answer, subset member, rest⟩
  | program handle =>
    obtain ⟨answer, kept, member, shape⟩ := resolves
    exact ⟨answer, kept, subset member, shape⟩

def AllResolved (answered : List (Answered (@Call.Answer orm))) (start : Nat)
    (items : List (Item orm backend)) (answers : List (Resolved orm)) : Prop :=
  answers.length = items.length ∧ ∀ index item answer, items[index]? = some item →
      answers[index]? = some answer →
      ResolvedBy answered (start + index) item answer

theorem AllResolved.nil (answered : List (Answered (@Call.Answer orm))) (start : Nat) :
    AllResolved answered start ([] : List (Item orm backend)) [] :=
  ⟨rfl, by simp⟩

theorem AllResolved.cons {start : Nat} {item : Item orm backend} {answer : Resolved orm}
    {items : List (Item orm backend)} {answers : List (Resolved orm)}
    (first : ResolvedBy answered start item answer)
    (rest : AllResolved answered (start + 1) items answers) :
    AllResolved answered start (item :: items) (answer :: answers) := by
  obtain ⟨sameLength, resolves⟩ := rest
  refine ⟨by simp [sameLength], ?_⟩
  intro index someItem someAnswer itemAt answerAt
  cases index with
  | zero =>
    simp only [List.getElem?_cons_zero, Option.some.injEq] at itemAt answerAt
    subst someItem someAnswer
    exact first
  | succ index =>
    simp only [List.getElem?_cons_succ] at itemAt answerAt
    have later := resolves index someItem someAnswer itemAt answerAt
    rwa [Nat.add_assoc, Nat.add_comm 1 index] at later

/-! ## The direct commit -/

/-- While items run, nothing is written and no commit has started. -/
def Unstarted (handles : Handles orm) (answered : List (Answered (@Call.Answer orm)))
    (state : Handles orm) : Prop :=
  state = handles ∧ commitAnswers answered = []

variable {state : Handles orm}

theorem Unstarted.answer (unstarted : Unstarted handles answered state) (call : Call orm)
    (notCommit : call ≠ .commit) (answer : call.Answer) :
    Unstarted handles (answered ++ [⟨call, answer⟩]) state := by
  refine ⟨unstarted.1, ?_⟩
  rw [commitAnswers_append, commitAnswers_of_ne notCommit, unstarted.2, List.append_nil]

/-- A wait before the provider commit. -/
def WaitsUnstarted (handles : Handles orm) (answered : List (Answered (@Call.Answer orm)))
    (state : Handles orm) (call : Call orm) : Prop :=
  Unstarted handles answered state ∧ call ≠ .commit

theorem ensures_fireItem (unstarted : Unstarted handles answered state) (index : Nat)
    (provider : Bool) (item : Item orm .direct) :
    Async.Ensures (fireItem index provider item) (WaitsUnstarted handles)
      (fun answered state result => Unstarted handles answered state ∧ ∀ resolved,
            result.1 = .ok resolved → ResolvedBy answered index item resolved) answered state := by
  cases provider with
  | false => exact ⟨unstarted, by simp⟩
  | true =>
    cases item with
    | query handle query =>
      refine ⟨⟨unstarted, by simp⟩, fun answer => ?_⟩
      refine ⟨unstarted.answer _ (by simp) answer, ?_⟩
      intro resolved shape
      cases answer with
      | error text => cases shape
      | ok result =>
        cases shape
        exact ⟨result, by simp, rfl⟩
    | plan handle query operation =>
      refine ⟨⟨unstarted, by simp⟩, fun answer => ?_⟩
      refine ⟨unstarted.answer _ (by simp) answer, ?_⟩
      intro resolved shape
      cases answer with
      | error text => cases shape
      | ok result =>
        change Except.mapError planAnswerError
          ((orm.resolve operation result).map Resolved.plan) = _ at shape
        cases resolves : orm.resolve operation result with
        | error diagnostic =>
          rw [resolves] at shape
          cases shape
        | ok planAnswer =>
          rw [resolves] at shape
          cases shape
          exact ⟨result, planAnswer, by simp, resolves, rfl⟩
    | program handle =>
      refine ⟨⟨unstarted, by simp⟩, fun answer => ?_⟩
      refine ⟨unstarted.answer _ (by simp) answer, ?_⟩
      intro resolved shape
      obtain ⟨ran, kept⟩ := answer
      cases ran with
      | error text => cases shape
      | ok result =>
        cases shape
        exact ⟨result, kept, by simp, rfl⟩

theorem ensures_abandon (unstarted : Unstarted handles answered state) (kind : TransactionKind)
    (provider : Bool) : Async.Ensures (abandon kind provider) (WaitsUnstarted handles)
      (fun answered state _ => Unstarted handles answered state) answered state := by
  have rolledBack : ∀ reply : Except String Unit, Unstarted handles
          (answered ++ [(⟨Call.rollback, reply⟩ : Answered Call.Answer)])
          state :=
    fun reply => unstarted.answer .rollback (by simp) reply
  cases provider with
  | false => exact unstarted
  | true =>
    cases kind with
    | read => exact ⟨⟨unstarted, by simp⟩, fun reply => unstarted.answer _ (by simp) reply⟩
    | write | schema =>
      exact ⟨⟨unstarted, by simp⟩, fun reply =>
        ⟨⟨rolledBack reply, by simp⟩, fun closed => (rolledBack reply).answer _ (by simp) closed⟩⟩

/-- A failure of the ORM itself has no certainty and is no refusal. -/
def CommitError.IsPlain (failure : CommitError) : Prop :=
  failure.error.commitFailureCertainty = none ∧ failure.remote = none

theorem ensures_fireItems (kind : TransactionKind) (items : List (Item orm .direct))
    (unstarted : Unstarted handles answered state) (index : Nat) (provider : Bool) :
    Async.Ensures (fireItems kind index provider items).run (WaitsUnstarted handles)
      (fun answered state outcome =>
        Unstarted handles answered state ∧
          match outcome with
          | .ok (_, answers) => AllResolved answered index items answers
          | .error failure => failure.IsPlain)
      answered state := by
  induction items generalizing answered state index provider with
  | nil => exact ⟨unstarted, AllResolved.nil _ _⟩
  | cons item items ih =>
    unfold fireItems
    rw [Async.ensures_run_bind, Async.ensures_run_lift]
    refine (ensures_fireItem unstarted index provider item).impReturns ?_
    rintro answered state ⟨resolved, provider⟩ ⟨unstarted, resolves⟩
    cases resolved with
    | error text =>
      simp only [Async.ensures_run_bind, Async.ensures_run_lift]
      refine (ensures_abandon unstarted kind provider).impReturns ?_
      intro answered state _ unstarted
      exact ⟨unstarted, rfl, rfl⟩
    | ok answer =>
      have first := resolves answer rfl
      simp only [Async.ensures_run_bind]
      refine (ih unstarted (index + 1) provider).extending.impReturns ?_
      rintro later state outcome ⟨extended, unstartedLater, rest⟩
      cases outcome with
      | error failure => exact ⟨unstartedLater, rest⟩
      | ok result => exact ⟨unstartedLater, AllResolved.cons (first.mono extended) rest⟩

def WaitsDirect (handles : Handles orm) (answered : List (Answered (@Call.Answer orm)))
    (state : Handles orm) (call : Call orm) : Prop :=
  state = handles ∧ (commitAnswers answered = [] ∨
      call = .close ∧ ∃ answer, commitAnswers answered = [answer])

theorem WaitsUnstarted.waitsDirect (waits : WaitsUnstarted handles answered state call) :
    WaitsDirect handles answered state call :=
  ⟨waits.1.1, .inl waits.1.2⟩

def EndsDirect (answered : List (Answered (@Call.Answer orm))) : Except CommitError α → Prop
  | .ok _ => commitAnswers answered = [] ∨ commitAnswers answered = [.ok ()]
  | .error failure =>
      commitAnswers answered = [] ∧ failure.IsPlain ∨ ∃ error,
          commitAnswers answered = [.error error] ∧
          failure = CommitError.new error none

theorem ensures_settle (unstarted : Unstarted handles answered state) (kind : TransactionKind)
    (neverCommit provider : Bool) :
    Async.Ensures (settle kind neverCommit provider).run (WaitsDirect handles)
      (fun answered state outcome => state = handles ∧ EndsDirect answered outcome)
      answered state := by
  unfold settle
  by_cases consumed : provider = false
  · rw [if_pos consumed]
    exact ⟨unstarted.1, .inl ⟨unstarted.2, rfl, rfl⟩⟩
  rw [if_neg consumed]
  by_cases closes : neverCommit = true ∨ kind = .read
  · rw [if_pos closes]
    refine ⟨⟨unstarted.1, .inl unstarted.2⟩, fun closed => ?_⟩
    have unstartedLater := unstarted.answer .close (by simp) closed
    cases closed with
    | error text => exact ⟨unstarted.1, .inl ⟨unstartedLater.2, rfl, rfl⟩⟩
    | ok _ => exact ⟨unstarted.1, .inl unstartedLater.2⟩
  · rw [if_neg closes]
    refine ⟨⟨unstarted.1, .inl unstarted.2⟩, fun committed => ?_⟩
    have started : commitAnswers (answered ++ [(⟨Call.commit, committed⟩ : Answered Call.Answer)]) =
          [committed] := by
      rw [commitAnswers_append, unstarted.2]
      rfl
    refine ⟨⟨unstarted.1, .inr ⟨rfl, committed, started⟩⟩, fun closed => ?_⟩
    have ended : commitAnswers (answered ++ [(⟨Call.commit, committed⟩ : Answered Call.Answer)] ++
              [⟨Call.close, closed⟩]) = [committed] := by
      rw [commitAnswers_append, started]
      rfl
    cases committed with
    | error error => exact ⟨unstarted.1, .inr ⟨error, ended, rfl⟩⟩
    | ok _ => exact ⟨unstarted.1, .inr ended⟩

theorem ensures_openProvider (unstarted : Unstarted handles answered state) (kind : TransactionKind) :
    Async.Ensures (openProvider kind).run (WaitsUnstarted handles) (fun answered state outcome =>
        Unstarted handles answered state ∧ ∀ failure, outcome = .error failure → failure.IsPlain)
      answered state := by
  refine ⟨⟨unstarted, by simp⟩, fun opened => ?_⟩
  refine ⟨unstarted.answer _ (by simp) opened, ?_⟩
  intro failure shape
  cases opened with
  | ok _ => cases shape
  | error text =>
    cases shape
    exact ⟨rfl, rfl⟩

theorem ensures_fire (handles : Handles orm) (kind : TransactionKind)
    (neverCommit deadlineFits : Bool) (items : List (Item orm .direct)) :
    Async.Ensures (fire kind neverCommit deadlineFits items).run (WaitsDirect handles)
      (fun answered state outcome => state = handles ∧ EndsDirect answered outcome ∧ ∀ answers,
            outcome = .ok answers → AllResolved answered 0 items answers) [] handles := by
  have unstarted : Unstarted handles [] handles := ⟨rfl, rfl⟩
  unfold fire
  rw [Async.ensures_run_bind]
  unfold checkDeadline
  rw [Async.ensures_attempt]
  cases deadlineFits with
  | false => exact ⟨rfl, .inl ⟨rfl, rfl, rfl⟩, by simp⟩
  | true =>
    simp only [if_true]
    rw [Async.ensures_run_bind]
    refine (ensures_openProvider unstarted kind).imp (fun _ _ _ waits => waits.waitsDirect) ?_
    rintro answered state outcome ⟨unstarted, plain⟩
    cases outcome with
    | error failure => exact ⟨unstarted.1, .inl ⟨unstarted.2, plain failure rfl⟩, by simp⟩
    | ok _ =>
      simp only
      rw [Async.ensures_run_bind]
      refine (ensures_fireItems kind items unstarted 0 true).imp
        (fun _ _ _ waits => waits.waitsDirect) ?_
      rintro answered state outcome ⟨unstarted, ended⟩
      cases outcome with
      | error failure => exact ⟨unstarted.1, .inl ⟨unstarted.2, ended⟩, by simp⟩
      | ok result =>
        obtain ⟨provider, answers⟩ := result
        simp only
        rw [Async.ensures_run_bind]
        refine (ensures_settle unstarted kind neverCommit provider).extending.impReturns ?_
        rintro later state outcome ⟨extended, unwritten, settled⟩
        cases outcome with
        | error failure => exact ⟨unwritten, settled, by simp⟩
        | ok _ =>
          refine ⟨unwritten, settled, ?_⟩
          intro published shape
          cases shape
          exact ⟨ended.1, fun index item answer itemAt answerAt =>
            (ended.2 index item answer itemAt answerAt).mono extended⟩

/-- How a commit that was not dropped left the handles. -/
inductive Concluded (items : List (Item orm backend))
    (answered : List (Answered (@Call.Answer orm))) (handles state : Handles orm) :
    Except CommitError Unit → Prop where
  | published (answers : List (Resolved orm)) (resolved : AllResolved answered 0 items answers)
      (written : state = publishAll items answers handles) :
      Concluded items answered handles state (.ok ())
  | failed (failure : CommitError) (written : state = failAll items failure.pending handles) :
      Concluded items answered handles state (.error failure)

theorem ensures_commitLocal (handles : Handles orm) (kind : TransactionKind)
    (neverCommit deadlineFits : Bool) (items : List (Item orm .direct)) :
    Async.Ensures (commitLocal kind neverCommit deadlineFits items) (WaitsDirect handles)
      (fun answered state result => ∃ outcome, result = .returned outcome ∧
          EndsDirect answered outcome ∧ Concluded items answered handles state outcome)
      [] handles := by
  unfold commitLocal
  rw [Async.ensures_bind]
  refine (ensures_fire handles kind neverCommit deadlineFits items).impReturns ?_
  rintro answered state outcome ⟨rfl, ended, resolves⟩
  cases outcome with
  | error failure => exact ⟨_, rfl, ended, .failed failure rfl⟩
  | ok answers => exact ⟨_, rfl, ended, .published answers (resolves _ rfl) rfl⟩

/-! ## The proxy commit -/

/-- While a proxy commit waits, its handles report an unknown outcome. -/
def sentHandles (items : List (Item orm .proxy)) (handles : Handles orm) : Handles orm :=
  failAll items (unknownOutcome "the proxy commit outcome is not known").pending handles

/-- How a proxy commit that was not dropped has ended. -/
inductive EndsProxy (items : List (Item orm .proxy)) (handles state : Handles orm) :
    List (Answered (@Call.Answer orm)) → CommitResult → Prop where
  | unsealed (failure : CommitError) (plain : failure.IsPlain)
      (written : state = failAll items failure.pending handles) :
      EndsProxy items handles state [] (.returned (.error failure))
  | failed (plans : List orm.StagedPlan) (sent : Except String orm.Reply) (failure : CommitError)
      (reads : proxyOutcome items plans sent = some (.error failure))
      (written : state = failAll items failure.pending (sentHandles items handles)) :
      EndsProxy items handles state [⟨.send plans, sent⟩] (.returned (.error failure))
  | published (sent : Except String orm.Reply) (answers : List (Resolved orm))
      (reads : proxyOutcome items (items.filterMap Item.remote) sent = some (.ok answers))
      (written : state = publishAll items answers (sentHandles items handles)) :
      EndsProxy items handles state
        [⟨.send (items.filterMap Item.remote), sent⟩] (.returned (.ok ()))
  | panicked (plans : List orm.StagedPlan) (sent : Except String orm.Reply)
      (reads : proxyOutcome items plans sent = none)
      (written : state = sentHandles items handles) :
      EndsProxy items handles state [⟨.send plans, sent⟩] .panicked

def WaitsProxy (items : List (Item orm .proxy)) (handles : Handles orm)
    (answered : List (Answered (@Call.Answer orm))) (state : Handles orm)
    (call : Call orm) : Prop :=
  answered = [] ∧ state = sentHandles items handles ∧ call = .send (items.filterMap Item.remote)

theorem ensures_commitProxy (handles : Handles orm) (kind : TransactionKind)
    (items : List (Item orm .proxy)) :
    Async.Ensures (commitProxy kind items) (WaitsProxy items handles) (fun answered state result =>
        EndsProxy items handles state answered result) [] handles := by
  unfold commitProxy
  cases orm.sealRequest (items.filterMap Item.remote) kind with
  | error diagnostic => exact .unsealed _ ⟨rfl, rfl⟩ rfl
  | ok _ =>
    refine ⟨⟨rfl, rfl, rfl⟩, fun sent => ?_⟩
    change Async.Ensures (concludeSent items
        (proxyOutcome items (items.filterMap Item.remote) sent))
      _ _ [⟨.send _, sent⟩] (sentHandles items handles)
    cases reads : proxyOutcome items (items.filterMap Item.remote) sent with
    | none => exact .panicked _ sent reads rfl
    | some outcome =>
      cases outcome with
      | error failure => exact .failed _ sent failure reads rfl
      | ok answers => exact .published sent answers reads rfl

end TypeBridge.Staging
