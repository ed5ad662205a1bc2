import TypeBridge.Staging.Outcome

namespace TypeBridge.Staging

/-!
# When an answer becomes readable

The handles of one execution become readable together, when its commit call
returns, or never do. A program staged on a proxy transaction has no plan to
send; that a proxy carries plans only is therefore an assumption on the uses.
-/

open Library
open Library.Checked hiding get

variable {orm : Interface} {backend : Backend}

/-- A handle that has its answer. -/
def IsReadable (reading : Reading orm) : Prop := ∃ answer, reading = .ok answer

theorem not_isReadable_error (error : PendingError) :
    ¬ IsReadable (.error error : Reading orm) := by
  rintro ⟨answer, shape⟩
  cases shape

/-- A use whose item the backend can carry. -/
def Use.Fits (backend : Backend) : Use orm → Prop
  | .stageProgram => backend = .direct
  | _ => True

/-- Every item a proxy transaction holds is a plan to send. -/
def Session.Carries (session : Session orm backend) : Prop :=
  ∀ transaction, session.transaction = some transaction → backend = .proxy →
    ∀ item ∈ transaction.stack, item.remote.isSome

/-- The commit call returned and every item of it was resolved. -/
def Ended.Succeeded (ended : Ended orm backend) : Prop :=
  ended.stop = .returned (.returned (.ok ())) ∧
    ∃ answers, AllResolved ended.answered 0 ended.items answers

/-- All handles of a call that succeeded, or none of one that ended. -/
def Ended.IsAllOrNothing (ended : Ended orm backend) (handles : Handles orm) : Prop :=
  ended.Succeeded ∧ (∀ item ∈ ended.items, IsReadable (handles item.handle)) ∨
    ∀ item ∈ ended.items, ¬ IsReadable (handles item.handle)

/-! ## What a proxy stack holds -/

variable {session : Session orm backend} {transaction : Transaction orm backend}

theorem Session.carries_push (carries : session.Carries)
    (present : session.transaction = some transaction)
    {item : Except PendingError (Item orm backend)}
    (itemCarried : ∀ staged, item = .ok staged → backend = .proxy → staged.remote.isSome) :
    (session.push transaction item).Carries := by
  cases item with
  | error reason => exact carries
  | ok staged =>
    intro later shape onProxy someItem member
    cases shape
    rcases List.mem_append.mp member with earlier | latest
    · exact carries transaction present onProxy someItem earlier
    · rw [List.mem_singleton.mp latest]
      exact itemCarried staged rfl onProxy

variable {use : Use orm}

theorem Transaction.remote_of_stagedItem {transaction : Transaction orm .proxy} {handle : Handle}
    {item : Item orm .proxy} (fits : use.Fits .proxy)
    (staged : transaction.stagedItem handle use = .ok item) : item.remote.isSome := by
  cases use with
  | stage query =>
    obtain ⟨_, made⟩ := check_bind_eq_ok.mp staged
    cases made
  | stagePlan plan =>
    obtain ⟨_, rest⟩ := check_bind_eq_ok.mp staged
    obtain ⟨_, made⟩ := check_bind_eq_ok.mp rest
    obtain ⟨stagedPlan, _, rfl⟩ := map_eq_ok.mp (mapError_eq_ok.mp made)
    rfl
  | stageProgram => cases fits
  | commit surroundings => cases staged
  | rollback => cases staged
  | close => cases staged
  | drop => cases staged

theorem Session.carries_of_empty
    (empty : ∀ transaction, session.transaction = some transaction → transaction.stack = []) :
    session.Carries := by
  intro transaction present _ item member
  rw [empty transaction present] at member
  cases member

theorem Session.carries_step (fits : use.Fits backend) (carries : session.Carries) :
    (session.step use).Carries := by
  unfold step
  cases present : session.transaction with
  | none => exact carries
  | some transaction =>
    have staging : (session.push transaction
          (transaction.stagedItem session.issued use)).Carries := by
      refine session.carries_push carries present ?_
      intro staged shape onProxy
      subst onProxy
      exact Transaction.remote_of_stagedItem fits shape
    have discarding : ∀ reason closed, (session.discard transaction reason closed).Carries := by
      intro reason closed
      unfold discard
      cases transaction.closed with
      | true => exact carries
      | false =>
        refine carries_of_empty fun later shape => ?_
        cases shape
        rfl
    cases use with
    | stage query => exact staging
    | stagePlan plan => exact staging
    | stageProgram => exact staging
    | commit surroundings =>
      refine carries_of_empty fun later shape => ?_
      cases shape
      rfl
    | rollback => exact discarding _ _
    | close => exact discarding _ _
    | drop =>
      refine carries_of_empty fun later shape => ?_
      cases shape

/-! ## The answers of a reply -/

variable {answers : List orm.StagedAnswer}

theorem length_of_verify {reply : orm.Reply} {plans : List orm.StagedPlan}
    (verified : verify reply plans = .ok (.inr answers)) : answers.length = plans.length := by
  unfold verify at verified
  obtain ⟨⟨failure, given⟩, _, rest⟩ := bind_eq_ok.mp verified
  cases failure with
  | some projection =>
    cases given with
    | nil => cases rest
    | cons first others => cases rest
  | none =>
    simp only at rest
    by_cases sameLength : given.length = plans.length
    · rw [if_pos sameLength] at rest
      obtain ⟨_, shape⟩ := check_bind_eq_ok.mp rest
      cases shape
      exact sameLength
    · rw [if_neg sameLength] at rest
      cases rest

variable {items : List (Item orm .proxy)}

theorem resolveReply_eq_ok {index : Nat} {resolved : List (Resolved orm)}
    (sameLength : answers.length = items.length)
    (reads : resolveReply index items answers = some (.ok resolved)) :
    resolved.length = items.length ∧
      ∀ (place : Nat) (item : Item orm .proxy) (answer : Resolved orm), items[place]? = some item →
        resolved[place]? = some answer → ∃ plan staged planAnswer, item.remote = some plan ∧
          answers[place]? = some staged ∧ orm.fromStaged staged plan = .ok planAnswer ∧
          answer = .plan planAnswer := by
  induction items generalizing answers index resolved with
  | nil =>
    cases reads
    exact ⟨rfl, by simp⟩
  | cons item items ih =>
    cases answers with
    | nil => cases sameLength
    | cons answer answers =>
      simp only [resolveReply] at reads
      cases hasPlan : item.remote with
      | none =>
        rw [hasPlan] at reads
        cases reads
      | some plan =>
        simp only [hasPlan] at reads
        cases resolves : orm.fromStaged answer plan with
        | error diagnostic =>
          rw [resolves] at reads
          cases reads
        | ok planAnswer =>
          simp only [resolves] at reads
          obtain ⟨outcome, rest, shape⟩ := Option.map_eq_some_iff.mp reads
          obtain ⟨later, rfl, rfl⟩ := map_eq_ok.mp shape
          obtain ⟨restLength, restAt⟩ := ih (Nat.succ.inj sameLength) rest
          refine ⟨congrArg Nat.succ restLength, ?_⟩
          intro place someItem someAnswer itemAt answerAt
          cases place with
          | zero =>
            simp only [List.getElem?_cons_zero, Option.some.injEq] at itemAt answerAt
            subst someItem someAnswer
            exact ⟨plan, answer, planAnswer, hasPlan, rfl, resolves, rfl⟩
          | succ place =>
            simp only [List.getElem?_cons_succ] at itemAt answerAt ⊢
            exact restAt place someItem someAnswer itemAt answerAt

variable {answers : List (Resolved orm)}

theorem allResolved_of_proxyOutcome (carried : ∀ item ∈ items, item.remote.isSome)
    {sent : Except String orm.Reply}
    (reads : proxyOutcome items (items.filterMap Item.remote) sent = some (.ok answers)) :
    AllResolved [(⟨.send (items.filterMap Item.remote), sent⟩ : Answered (@Call.Answer orm))]
      0 items answers := by
  have plansLength : (items.filterMap Item.remote).length = items.length := by
    rw [List.length_filterMap_eq_countP, List.countP_eq_length]
    exact carried
  cases sent with
  | error text => cases reads
  | ok reply =>
    simp only [proxyOutcome] at reads
    cases verified : verify reply (items.filterMap Item.remote) with
    | error diagnostic =>
      rw [verified] at reads
      cases reads
    | ok outcome =>
      rw [verified] at reads
      cases outcome with
      | inl projection => cases reads
      | inr staged =>
        have stagedLength := length_of_verify verified
        obtain ⟨resolvedLength, resolvedAt⟩ :=
          resolveReply_eq_ok (stagedLength.trans plansLength) reads
        refine ⟨resolvedLength, ?_⟩
        intro index item answer itemAt answerAt
        obtain ⟨plan, given, planAnswer, hasPlan, givenAt, resolves,
          shape⟩ := resolvedAt index item answer itemAt answerAt
        rw [Nat.zero_add]
        cases item with
        | remotePlan handle ownPlan =>
          cases hasPlan
          exact ⟨_, reply, staged, given, planAnswer,
            List.mem_singleton_self _, verified, givenAt, resolves, shape⟩
        | program handle => cases hasPlan

/-! ## The end of one commit call -/

variable {items : List (Item orm backend)} {item : Item orm backend}

theorem not_isReadable_failAll (member : item ∈ items) (failure : CommitError)
    (handles : Handles orm) :
    ¬ IsReadable (dropExecution items (failAll items failure.pending handles) item.handle) := by
  rw [dropExecution_failAll member]
  exact not_isReadable_error _

variable {handles : Handles orm}

theorem not_isReadable_dropped (member : item ∈ items)
    (pending : handles item.handle = .error .notCommitted) :
    ¬ IsReadable (dropExecution items handles item.handle) := by
  rw [dropExecution_of_pending (List.mem_map_of_mem member) pending]
  exact not_isReadable_error _

theorem isAllOrNothing_published {ended : Ended orm backend}
    (stop : ended.stop = .returned (.returned (.ok ())))
    (distinct : (ended.items.map Item.handle).Nodup)
    (resolved : AllResolved ended.answered 0 ended.items answers) (handles : Handles orm) :
    ended.IsAllOrNothing (dropExecution ended.items (publishAll ended.items answers handles)) :=
  .inl ⟨⟨stop, answers, resolved⟩, fun _ member =>
    dropExecution_published distinct resolved.1 member handles⟩

variable {ending : Ending (@Call.Answer orm) (Handles orm) CommitResult}

theorem direct_isAllOrNothing {ended : Ended orm .direct}
    (answered : ended.answered = ending.answered) (stop : ended.stop = ending.stop)
    (stopped : Waiting.Stopped (WaitsDirect handles) (fun answered state result => ∃ outcome,
            result = .returned outcome ∧ EndsDirect answered outcome ∧
            Concluded ended.items answered handles state outcome) ending)
    (distinct : (ended.items.map Item.handle).Nodup)
    (pending : ∀ item ∈ ended.items, handles item.handle = .error .notCommitted) :
    ended.IsAllOrNothing (dropExecution ended.items ending.state) := by
  unfold Waiting.Stopped at stopped
  cases endingStop : ending.stop with
  | dropped call =>
    rw [endingStop] at stopped
    rw [stopped.1]
    exact .inr fun item member => not_isReadable_dropped member (pending item member)
  | returned result =>
    rw [endingStop] at stopped
    obtain ⟨outcome, rfl, _, concluded⟩ := stopped
    cases concluded with
    | published answers resolved written =>
      rw [written]
      rw [← answered] at resolved
      exact isAllOrNothing_published (stop.trans endingStop) distinct resolved handles
    | failed failure written =>
      rw [written]
      exact .inr fun item member => not_isReadable_failAll member failure handles

theorem proxy_isAllOrNothing {ended : Ended orm .proxy}
    (answered : ended.answered = ending.answered) (stop : ended.stop = ending.stop)
    (stopped : Waiting.Stopped (WaitsProxy ended.items handles) (fun answered state result =>
          EndsProxy ended.items handles state answered result) ending)
    (distinct : (ended.items.map Item.handle).Nodup)
    (carried : ∀ item ∈ ended.items, item.remote.isSome) :
    ended.IsAllOrNothing (dropExecution ended.items ending.state) := by
  have sent : ∀ item ∈ ended.items, ¬ IsReadable
            (dropExecution ended.items (sentHandles ended.items handles) item.handle) :=
    fun item member => not_isReadable_failAll member _ handles
  unfold Waiting.Stopped at stopped
  cases endingStop : ending.stop with
  | dropped call =>
    rw [endingStop] at stopped
    rw [stopped.2.1]
    exact .inr sent
  | returned result =>
    rw [endingStop, ← answered] at stopped
    rw [endingStop] at stop
    generalize answeredEq : ended.answered = past at stopped
    cases stopped with
    | unsealed failure plain written =>
      rw [written]
      exact .inr fun item member => not_isReadable_failAll member failure handles
    | failed plans reply failure reads written =>
      rw [written]
      exact .inr fun item member => not_isReadable_failAll member failure _
    | published reply answers reads written =>
      rw [written]
      refine isAllOrNothing_published stop distinct ?_ _
      rw [answeredEq]
      exact allResolved_of_proxyOutcome carried reads
    | panicked plans reply reads written =>
      rw [written]
      exact .inr sent

theorem endedCommit_isAllOrNothing (sound : session.Sound) (carries : session.Carries)
    (present : session.transaction = some transaction) (surroundings : Surroundings orm) :
    (endedCommit session transaction surroundings).IsAllOrNothing
      (session.finishCommit transaction surroundings).handles := by
  have pending := sound.pending_of_stacked present
  have distinct := sound.distinct_of_stacked present
  rcases commitEnding_cases session transaction surroundings with idle | ⟨nonempty, runs⟩
  · obtain ⟨_, _, unwritten, _⟩ := idle
    refine .inr fun item member => ?_
    change ¬ IsReadable (dropExecution transaction.stack
        (commitEnding session transaction surroundings).state item.handle)
    rw [unwritten]
    exact not_isReadable_dropped member (pending item member)
  · cases backend with
    | direct =>
      have stopped :=
        direct_stopped session.handles transaction.options surroundings transaction.stack
      rw [← runs] at stopped
      exact direct_isAllOrNothing rfl rfl stopped distinct pending
    | proxy =>
      have stopped :=
        proxy_stopped session.handles transaction.options surroundings transaction.stack
      rw [← runs] at stopped
      exact proxy_isAllOrNothing rfl rfl stopped distinct (carries transaction present rfl)

/-! ## While a commit call waits -/

variable {state : Handles orm}

theorem not_isReadable_shown (sound : session.Sound)
    (present : session.transaction = some transaction) (surroundings : Surroundings orm)
    (shown : state ∈ (endedCommit session transaction surroundings).shown)
    (member : item ∈ transaction.stack) : ¬ IsReadable (state item.handle) := by
  change state ∈ (commitEnding session transaction surroundings).shown at shown
  rcases commitEnding_cases session transaction surroundings with idle | ⟨nonempty, runs⟩
  · rw [idle.2.1] at shown
    cases shown
  · rw [runs] at shown
    cases backend with
    | direct =>
      obtain ⟨_, _, rfl, _⟩ := Waiting.Every.shown
          (ensures_commitLocal session.handles _ _ surroundings.deadlineFits transaction.stack)
          surroundings.environment shown
      rw [sound.pending_of_stacked present item member]
      exact not_isReadable_error _
    | proxy =>
      obtain ⟨_, _, _, rfl, _⟩ := Waiting.Every.shown
          (ensures_commitProxy session.handles _ transaction.stack) surroundings.environment shown
      unfold sentHandles
      rw [failAll_of_mem (List.mem_map_of_mem member)]
      exact not_isReadable_error _

theorem shown_eq_ok_iff (sound : session.Sound) (present : session.transaction = some transaction)
    (surroundings : Surroundings orm)
    (shown : state ∈ (endedCommit session transaction surroundings).shown) (handle : Handle)
    (answer : Resolved orm) : state handle = .ok answer ↔ session.handles handle = .ok answer := by
  by_cases stacked : handle ∈ transaction.stack.map Item.handle
  · obtain ⟨item, member, rfl⟩ := List.mem_map.mp stacked
    have unreadable := not_isReadable_shown sound present surroundings shown member
    rw [sound.pending_of_stacked present item member]
    exact iff_of_false (fun reads => unreadable ⟨answer, reads⟩) (by simp)
  · rw [endedCommit_shown_keepsOthers session transaction surroundings shown handle stacked]

/-! ## Every run -/

/-- Every readable handle belongs to a commit call that has ended. -/
def Session.OwnsReadable (session : Session orm backend) : Prop :=
  ∀ handle, handle < session.issued → IsReadable (session.handles handle) →
    ∃ ended ∈ session.ended, ∃ item ∈ ended.items, item.handle = handle

theorem Session.ownsReadable_step (sound : session.Sound) (owns : session.OwnsReadable)
    (use : Use orm) : (session.step use).OwnsReadable := by
  have stepped := stepped_step session use
  have soundNext := stepped.sound sound
  generalize session.step use = next at stepped soundNext
  -- what leaves the stack and is readable was published by a commit
  intro handle issued readable
  cases stepped with
  | kept => exact owns handle issued readable
  | pushed transaction item present unclosed fresh =>
    rcases Nat.lt_succ_iff_lt_or_eq.mp issued with earlier | rfl
    · refine owns handle earlier ?_
      rwa [show (session.push transaction (.ok item)).handles handle =
        session.handles handle from Function.update_of_ne earlier.ne _ _] at readable
    · rw [show (session.push transaction (.ok item)).handles session.issued =
        .error .notCommitted from Function.update_self _ _ _] at readable
      exact absurd readable (not_isReadable_error _)
  | committed transaction surroundings present =>
    by_cases stacked : handle ∈ session.stackHandles
    · rw [stackHandles_of_some present] at stacked
      obtain ⟨item, member, same⟩ := List.mem_map.mp stacked
      refine ⟨endedCommit session transaction surroundings, ?_, item, member, same⟩
      exact List.mem_append_right _ (List.mem_singleton_self _)
    · have unchanged := (Stepped.committed transaction surroundings present).frame issued stacked
      rw [unchanged.1] at readable
      obtain ⟨ended, member, rest⟩ := owns handle issued readable
      exact ⟨ended, List.mem_append_left _ member, rest⟩
  | discarded transaction reason closed present final =>
    by_cases stacked : handle ∈ session.stackHandles
    · rw [stackHandles_of_some present] at stacked
      change IsReadable (failAll transaction.stack reason session.handles handle) at readable
      rw [failAll_of_mem stacked] at readable
      exact absurd readable (not_isReadable_error _)
    · have unchanged := (Stepped.discarded transaction reason closed present final).frame
          issued stacked
      rw [unchanged.1] at readable
      exact owns handle issued readable
  | dropped transaction present =>
    by_cases stacked : handle ∈ session.stackHandles
    · have pending := (sound.pendingIffStacked handle issued).mpr stacked
      rw [stackHandles_of_some present] at stacked
      change IsReadable (dropExecution transaction.stack session.handles handle) at readable
      rw [dropExecution_of_pending stacked pending] at readable
      exact absurd readable (not_isReadable_error _)
    · have unchanged := (Stepped.dropped transaction present).frame issued stacked
      rw [unchanged.1] at readable
      exact owns handle issued readable

variable (orm) in
theorem Session.ownsReadable_run (backend : Backend) (options : TransactionOptions)
    (uses : List (Use orm)) : ((Session.new orm backend options).run uses).OwnsReadable := by
  have both :=
    run_invariant (fun session : Session orm backend => session.Sound ∧ session.OwnsReadable)
      (fun _ => True) (fun session use _ holds =>
        ⟨(stepped_step session use).sound holds.1, ownsReadable_step holds.1 holds.2 use⟩)
      ⟨sound_new orm backend options, fun handle issued => absurd issued (Nat.not_lt_zero handle)⟩
      (fun (use : Use orm) (_ : use ∈ uses) => trivial)
  exact both.2

theorem isAllOrNothing_run (options : TransactionOptions) {uses : List (Use orm)}
    (fits : ∀ use ∈ uses, use.Fits backend) :
    ∀ ended ∈ ((Session.new orm backend options).run uses).ended, ended.IsAllOrNothing
        ((Session.new orm backend options).run uses).handles := by
  refine Session.ended_run Ended.IsAllOrNothing (Use.Fits backend)
    Session.Carries ?_ (fun _ _ fits carries => Session.carries_step fits carries)
    (fun session transaction surroundings sound carries present =>
      endedCommit_isAllOrNothing sound carries present surroundings)
    (Session.carries_of_empty fun transaction shape => by cases shape; rfl) fits
  intro ended handles later same allOrNothing
  rcases allOrNothing with ⟨succeeded, readable⟩ | unreadable
  · refine .inl ⟨succeeded, fun item member => ?_⟩
    rw [same item member]
    exact readable item member
  · refine .inr fun item member => ?_
    rw [same item member]
    exact unreadable item member

structure Session.IsTogether (session : Session orm backend) : Prop where
  -- a readable handle comes from a call that returned with every item resolved
  resolved : ∀ handle, handle < session.issued → IsReadable (session.handles handle) →
      ∃ ended ∈ session.ended, (∃ item ∈ ended.items, item.handle = handle) ∧ ended.Succeeded
  together : ∀ ended ∈ session.ended,
      (∀ item ∈ ended.items, IsReadable (session.handles item.handle)) ∨
        ∀ item ∈ ended.items, ¬ IsReadable (session.handles item.handle)
  -- only what is still staged in a live transaction reports that it is pending
  settled : ∀ handle, handle < session.issued → session.handles handle = .error .notCommitted →
      ∃ transaction, session.transaction = some transaction ∧
        handle ∈ transaction.stack.map Item.handle
  -- while the next commit call waits, the same answers are readable
  unchangedWaiting : ∀ transaction surroundings, session.transaction = some transaction →
      ∀ state ∈ (endedCommit session transaction surroundings).shown, ∀ handle answer,
          state handle = .ok answer ↔ session.handles handle = .ok answer
  unchangedLater : ∀ uses handle answer, handle < session.issued →
      session.handles handle = .ok answer →
      (session.run uses).handles handle = .ok answer

/--
In every run of a transaction that stages programs on the direct backend only,
answers are visible all together or not at all.
-/
theorem answers_visible_together (backend : Backend) (options : TransactionOptions)
    (uses : List (Use orm)) (fits : ∀ use ∈ uses, use.Fits backend) :
    ((Session.new orm backend options).run uses).IsTogether := by
  have sound := Session.sound_run orm backend options uses
  have allOrNothing := isAllOrNothing_run options fits
  constructor
  · intro handle issued readable
    obtain ⟨ended, member, item, itemMember, same⟩ :=
      Session.ownsReadable_run orm backend options uses handle issued readable
    refine ⟨ended, member, ⟨item, itemMember, same⟩, ?_⟩
    rcases allOrNothing ended member with ⟨succeeded, _⟩ | unreadable
    · exact succeeded
    · subst same
      exact absurd readable (unreadable item itemMember)
  · intro ended member
    rcases allOrNothing ended member with ⟨_, readable⟩ | unreadable
    · exact .inl readable
    · exact .inr unreadable
  · intro handle issued pending
    have stacked := (sound.pendingIffStacked handle issued).mp pending
    unfold Session.stackHandles at stacked
    split at stacked
    · cases stacked
    · rename_i transaction present
      exact ⟨transaction, present, stacked⟩
  · intro transaction surroundings present state shown handle answer
    exact shown_eq_ok_iff sound present surroundings shown handle answer
  · intro more handle answer issued reads
    rw [Session.frame_run more issued, reads]
    intro stacked
    rw [(sound.pendingIffStacked handle issued).mpr stacked] at reads
    cases reads

/-! ## Ended transactions -/

inductive Closing (orm : Interface) where
  | commit (surroundings : Surroundings orm)
  | rollback | close | drop

def Closing.toUse : Closing orm → Use orm
  | .commit surroundings => .commit surroundings
  | .rollback => .rollback
  | .close => .close
  | .drop => .drop

namespace Session

/-- Nothing is queued in a closed transaction. -/
def Cleared (session : Session orm backend) : Prop :=
  ∀ transaction ∈ session.transaction, transaction.closed = true → transaction.stack = []

variable {session next : Session orm backend}

theorem Stepped.cleared (stepped : Stepped session next) (cleared : session.Cleared) :
    next.Cleared := by
  cases stepped with
  | kept => exact cleared
  | pushed transaction item present unclosed fresh => simp [Cleared, push, unclosed]
  | committed transaction surroundings present => simp [Cleared, finishCommit]
  | discarded transaction reason closed present final => simp [Cleared]
  | dropped transaction present => simp [Cleared]

theorem Cleared.step (cleared : session.Cleared) (closing : Closing orm) :
    (session.step closing.toUse).stackHandles = [] ∧
      (session.step closing.toUse).issued = session.issued := by
  unfold Session.step
  cases present : session.transaction with
  | none => simp [stackHandles, present]
  | some transaction =>
    have empty := cleared transaction present
    cases closing <;> simp only [Closing.toUse, discard, finishCommit, stackHandles]
    case commit => simp
    case drop => simp
    all_goals
      split_ifs with closed
      · simp [present, empty closed]
      · simp

/-- However a transaction ends, none of its handles stays pending or changes again. -/
theorem ended_handles_settled (backend : Backend) (options : TransactionOptions)
    (earlier later : List (Use orm)) (closing : Closing orm) :
    let session := (Session.new orm backend options).run earlier
    ∀ handle : Fin session.issued,
      (session.step closing.toUse).handles handle ≠ .error .notCommitted ∧
        ((session.step closing.toUse).run later).handles handle =
          (session.step closing.toUse).handles handle := by
  intro session handle
  have cleared : session.Cleared := run_invariant Cleared (fun _ => True)
    (fun session use _ => (stepped_step session use).cleared) (by simp [Cleared, Session.new])
    (fun _ _ => trivial)
  have sound := (stepped_step session closing.toUse).sound (sound_run orm backend options earlier)
  obtain ⟨unstacked, same⟩ := cleared.step closing
  have issued : handle.1 < (session.step closing.toUse).issued := handle.2.trans_eq same.symm
  have free : handle.1 ∉ (session.step closing.toUse).stackHandles := by simp [unstacked]
  exact ⟨fun pending => free ((sound.pendingIffStacked _ issued).mp pending),
    frame_run later issued free⟩

end Session

/-! ## A program on a proxy -/

/-- A sender that always gets a reply. -/
def answeredProxy : Surroundings plainInterface where
  deadlineFits := true
  environment := fun _ call =>
    match call with
    | .openTransaction _ => some (.ok ())
    | .query _ _ => some (.ok ())
    | .runProgram _ => some (.ok (), true)
    | .rollback => some (.ok ())
    | .close => some (.ok ())
    | .commit => some (.ok ())
    | .send _ => some (.ok ())

/-- A plan and a program committed on a proxy. -/
def mixedSession : Session plainInterface .proxy :=
  (Session.new plainInterface .proxy ⟨none, false⟩).run
    [.stagePlan (), .stageProgram, .commit answeredProxy]

/-- The plan's answer is published and the program's never is. -/
theorem mixed_commit_visible_in_part : ¬ mixedSession.IsTogether := by
  intro isTogether
  have together := isTogether.together _ (List.mem_singleton_self _)
  rcases together with readable | unreadable
  · obtain ⟨answer, reads⟩ :=
      readable (.program 1) (List.mem_cons_of_mem _ (List.mem_singleton_self _))
    cases reads
  · exact unreadable (.remotePlan 0 ()) List.mem_cons_self ⟨.plan (), rfl⟩

/-- A write and a program on the direct backend become readable together. -/
theorem direct_commit_visible_together : ((Session.new plainInterface .direct ⟨none, false⟩).run
      [.stage ⟨"insert $x isa person;", true⟩, .stageProgram, .commit answeredProxy]).IsTogether :=
  answers_visible_together .direct ⟨none, false⟩ _ (by
    intro use member
    cases use with
    | stageProgram => rfl
    | _ => trivial)

end TypeBridge.Staging
