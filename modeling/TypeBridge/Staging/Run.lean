import TypeBridge.Library.Checked
import TypeBridge.Staging.Commit

namespace TypeBridge.Staging

/-!
# Runs of a deferred transaction

Every use of a transaction writes only the handles that are still on its stack,
and what it takes off the stack no longer reports that it is pending. So
whatever the end of a commit call leaves in its handles stays there.
-/

open Library
open Library.Checked hiding get

variable {orm : Interface} {backend : Backend}

/-! ## One commit call -/

def KeepsOthers (items : List (Item orm backend)) (handles state : Handles orm) : Prop :=
  ∀ handle, handle ∉ items.map Item.handle → state handle = handles handle

variable {answered : List (Answered (@Call.Answer orm))} {handles state : Handles orm}

theorem Concluded.keepsOthers {items : List (Item orm backend)} {outcome : Except CommitError Unit}
    (concluded : Concluded items answered handles state outcome) :
    KeepsOthers items handles state := by
  intro handle other
  cases concluded with
  | published answers resolved written => rw [written, publishAll_of_not_mem other]
  | failed failure written => rw [written, failAll_of_not_mem other]

theorem EndsProxy.keepsOthers {items : List (Item orm .proxy)} {result : CommitResult}
    (ends : EndsProxy items handles state answered result) : KeepsOthers items handles state := by
  intro handle other
  have sent : sentHandles items handles handle = handles handle := failAll_of_not_mem other _ _
  cases ends with
  | unsealed failure plain written => rw [written, failAll_of_not_mem other]
  | failed plans reply failure reads written => rw [written, failAll_of_not_mem other, sent]
  | published reply answers reads written => rw [written, publishAll_of_not_mem other, sent]
  | panicked plans reply reads written => rw [written, sent]

theorem ensures_commit_keepsOthers (transaction : Transaction orm backend) (deadlineFits : Bool)
    (handles : Handles orm) : Async.Ensures (transaction.commit deadlineFits)
      (fun _ state _ => KeepsOthers transaction.stack handles state)
      (fun _ state _ => KeepsOthers transaction.stack handles state) [] handles := by
  unfold Transaction.commit
  cases transaction.closed with
  | true => exact fun _ _ => rfl
  | false =>
    cases transaction.stack.isEmpty with
    | true => exact fun _ _ => rfl
    | false =>
      cases backend with
      | direct =>
        refine (ensures_commitLocal handles _ _ deadlineFits transaction.stack).imp ?_ ?_
        · rintro _ _ _ ⟨rfl, _⟩ _ _
          rfl
        · rintro _ _ _ ⟨_, _, _, concluded⟩
          exact concluded.keepsOthers
      | proxy =>
        refine (ensures_commitProxy handles _ transaction.stack).imp ?_ ?_
        · rintro _ _ _ ⟨_, rfl, _⟩ handle other
          exact failAll_of_not_mem other _ _
        · rintro _ _ _ ends
          exact ends.keepsOthers

def commitEnding (session : Session orm backend) (transaction : Transaction orm backend)
    (surroundings : Surroundings orm) : Ending (@Call.Answer orm) (Handles orm) CommitResult :=
  (transaction.commit surroundings.deadlineFits session.handles).run
    surroundings.environment []

/-- The record of one commit call. -/
def endedCommit (session : Session orm backend) (transaction : Transaction orm backend)
    (surroundings : Surroundings orm) : Ended orm backend :=
  let ending := commitEnding session transaction surroundings
  ⟨transaction.stack, ending.answered, ending.shown, ending.stop⟩

theorem commitEnding_keepsOthers (session : Session orm backend)
    (transaction : Transaction orm backend) (surroundings : Surroundings orm) :
    KeepsOthers transaction.stack session.handles
      (commitEnding session transaction surroundings).state := by
  have stopped :=
    Waiting.Every.stopped (ensures_commit_keepsOthers transaction surroundings.deadlineFits
        session.handles) surroundings.environment
  change Waiting.Stopped _ _ (commitEnding session transaction surroundings) at stopped
  unfold Waiting.Stopped at stopped
  cases stop : (commitEnding session transaction surroundings).stop with
  | dropped call | returned result =>
    rw [stop] at stopped
    exact stopped

theorem endedCommit_shown_keepsOthers (session : Session orm backend)
    (transaction : Transaction orm backend) (surroundings : Surroundings orm)
    (shown : state ∈ (endedCommit session transaction surroundings).shown) :
    KeepsOthers transaction.stack session.handles state := by
  obtain ⟨_, _, keeps⟩ := Waiting.Every.shown
      (ensures_commit_keepsOthers transaction surroundings.deadlineFits session.handles)
      surroundings.environment shown
  exact keeps

/-! ## One use -/

namespace Session

def stackHandles (session : Session orm backend) : List Handle :=
  match session.transaction with
  | none => []
  | some transaction => transaction.stack.map Item.handle

/-- Everything one use can do. -/
inductive Stepped (session : Session orm backend) : Session orm backend → Prop where
  | kept : Stepped session session
  | pushed (transaction : Transaction orm backend) (item : Item orm backend)
      (present : session.transaction = some transaction)
      (unclosed : transaction.closed = false)
      (fresh : item.handle = session.issued) : Stepped session (session.push transaction (.ok item))
  | committed (transaction : Transaction orm backend) (surroundings : Surroundings orm)
      (present : session.transaction = some transaction) :
      Stepped session (session.finishCommit transaction surroundings)
  | discarded (transaction : Transaction orm backend) (reason : PendingError) (closed : Bool)
      (present : session.transaction = some transaction)
      (final : reason ≠ .notCommitted) : Stepped session
        { session with
          handles := failAll transaction.stack reason session.handles
          transaction := some { transaction with stack := [], closed := closed } }
  | dropped (transaction : Transaction orm backend)
      (present : session.transaction = some transaction) : Stepped session
        { session with
          handles := dropExecution transaction.stack session.handles
          transaction := none }

end Session

variable {transaction : Transaction orm backend}

theorem Transaction.unclosed_of_push {writes : Bool} (admitted : transaction.admit writes = .ok ()) :
    transaction.closed = false := by
  unfold Transaction.admit at admitted
  cases closed : transaction.closed with
  | false => rfl
  | true =>
    rw [closed] at admitted
    cases admitted

variable {handle : Handle} {item : Item orm backend}

theorem handle_of_queryItem {query : StagedQuery}
    (staged : queryItem backend handle query = .ok item) : item.handle = handle := by
  cases backend with
  | direct =>
    cases staged
    rfl
  | proxy => cases staged

theorem handle_of_planItem {plan : orm.Plan} (staged : planItem backend handle plan = .ok item) :
    item.handle = handle := by
  cases backend with
  | direct =>
    obtain ⟨query, _, rfl⟩ := map_eq_ok.mp (mapError_eq_ok.mp staged)
    rfl
  | proxy =>
    obtain ⟨stagedPlan, _, rfl⟩ := map_eq_ok.mp (mapError_eq_ok.mp staged)
    rfl

theorem Transaction.stagedItem_eq_ok {use : Use orm}
    (staged : transaction.stagedItem handle use = .ok item) :
    transaction.closed = false ∧ item.handle = handle := by
  cases use with
  | stage query =>
    obtain ⟨admitted, made⟩ := check_bind_eq_ok.mp staged
    exact ⟨unclosed_of_push admitted, handle_of_queryItem made⟩
  | stagePlan plan =>
    obtain ⟨admitted, rest⟩ := check_bind_eq_ok.mp staged
    obtain ⟨_, made⟩ := check_bind_eq_ok.mp rest
    exact ⟨unclosed_of_push admitted, handle_of_planItem made⟩
  | stageProgram =>
    obtain ⟨admitted, rest⟩ := check_bind_eq_ok.mp staged
    obtain ⟨_, made⟩ := check_bind_eq_ok.mp rest
    cases made
    exact ⟨unclosed_of_push admitted, rfl⟩
  | commit surroundings => cases staged
  | rollback => cases staged
  | close => cases staged
  | drop => cases staged

namespace Session

variable {session : Session orm backend} {transaction : Transaction orm backend}

theorem stepped_push (present : session.transaction = some transaction) (use : Use orm) :
    Stepped session (session.push transaction (transaction.stagedItem session.issued use)) := by
  cases staged : transaction.stagedItem session.issued use with
  | error reason => exact .kept
  | ok item =>
    obtain ⟨unclosed, fresh⟩ := Transaction.stagedItem_eq_ok staged
    exact .pushed transaction item present unclosed fresh

theorem stepped_discard (present : session.transaction = some transaction) {reason : PendingError}
    (final : reason ≠ .notCommitted) (closed : Bool) :
    Stepped session (session.discard transaction reason closed) := by
  unfold discard
  split
  · exact .kept
  · exact .discarded transaction reason closed present final

theorem stepped_step (session : Session orm backend) (use : Use orm) :
    Stepped session (session.step use) := by
  unfold step
  cases present : session.transaction with
  | none => exact .kept
  | some transaction =>
    cases use with
    | stage query | stagePlan plan | stageProgram => exact stepped_push present _
    | commit surroundings => exact .committed transaction surroundings present
    | rollback => exact stepped_discard present (by simp) false
    | close => exact stepped_discard present (by simp) true
    | drop => exact .dropped transaction present

/-! ## The invariant of a run -/

structure Sound (session : Session orm backend) : Prop where
  stackIssued : ∀ handle ∈ session.stackHandles, handle < session.issued
  stackDistinct : session.stackHandles.Nodup
  pendingIffStacked : ∀ handle, handle < session.issued →
      (session.handles handle = .error .notCommitted ↔ handle ∈ session.stackHandles)
  endedIssued : ∀ ended ∈ session.ended, ∀ item ∈ ended.items, item.handle < session.issued ∧
        item.handle ∉ session.stackHandles

theorem stackHandles_of_some (present : session.transaction = some transaction) :
    session.stackHandles = transaction.stack.map Item.handle := by
  simp only [stackHandles, present]

theorem Sound.distinct_of_stacked (sound : session.Sound)
    (present : session.transaction = some transaction) :
    (transaction.stack.map Item.handle).Nodup := by
  rw [← stackHandles_of_some present]
  exact sound.stackDistinct

theorem Sound.pending_of_stacked (sound : session.Sound)
    (present : session.transaction = some transaction) :
    ∀ item ∈ transaction.stack, session.handles item.handle = .error .notCommitted := by
  intro item member
  have stacked : item.handle ∈ session.stackHandles := by
    rw [stackHandles_of_some present]
    exact List.mem_map_of_mem member
  exact (sound.pendingIffStacked _ (sound.stackIssued _ stacked)).mpr stacked

variable (orm) in
theorem sound_new (backend : Backend) (options : TransactionOptions) :
    (Session.new orm backend options).Sound where
  stackIssued := by simp [stackHandles, Session.new]
  stackDistinct := by simp [stackHandles, Session.new]
  pendingIffStacked := by simp [Session.new]
  endedIssued := by simp [Session.new]

variable {next : Session orm backend} {handle : Handle}

theorem Stepped.frame (stepped : Stepped session next) (issued : handle < session.issued)
    (unstacked : handle ∉ session.stackHandles) :
    next.handles handle = session.handles handle ∧ handle < next.issued ∧
      handle ∉ next.stackHandles := by
  cases stepped with
  | kept => exact ⟨rfl, issued, unstacked⟩
  | pushed transaction item present unclosed fresh =>
    rw [stackHandles_of_some present] at unstacked
    refine ⟨Function.update_of_ne issued.ne _ _, Nat.lt_succ_of_lt issued, ?_⟩
    simp only [push, stackHandles, List.map_append, List.map_cons,
      List.map_nil, List.mem_append, List.mem_singleton, not_or, fresh]
    exact ⟨unstacked, issued.ne⟩
  | committed transaction surroundings present =>
    rw [stackHandles_of_some present] at unstacked
    refine ⟨?_, issued, by simp [finishCommit, stackHandles]⟩
    exact (dropExecution_of_not_mem unstacked _).trans
      (commitEnding_keepsOthers session transaction surroundings handle unstacked)
  | discarded transaction reason closed present final =>
    rw [stackHandles_of_some present] at unstacked
    exact ⟨failAll_of_not_mem unstacked _ _, issued, by simp [stackHandles]⟩
  | dropped transaction present =>
    rw [stackHandles_of_some present] at unstacked
    exact ⟨dropExecution_of_not_mem unstacked _, issued, by simp [stackHandles]⟩

theorem Stepped.ended_cases (stepped : Stepped session next) {ended : Ended orm backend}
    (member : ended ∈ next.ended) :
    ended ∈ session.ended ∨ ∃ transaction surroundings, session.transaction = some transaction ∧
        ended = endedCommit session transaction surroundings ∧
        next = session.finishCommit transaction surroundings := by
  cases stepped with
  | kept => exact .inl member
  | pushed transaction item present unclosed fresh => exact .inl member
  | committed transaction surroundings present =>
    change ended ∈ session.ended ++ [endedCommit session transaction surroundings] at member
    rcases List.mem_append.mp member with earlier | latest
    · exact .inl earlier
    · exact .inr ⟨transaction, surroundings, present, List.mem_singleton.mp latest, rfl⟩
  | discarded transaction reason closed present final => exact .inl member
  | dropped transaction present => exact .inl member

theorem Sound.emptied (sound : session.Sound) (present : session.transaction = some transaction)
    (stepped : Stepped session next) (sameIssued : next.issued = session.issued)
    (noStack : next.stackHandles = []) (written : ∀ handle ∈ transaction.stack.map Item.handle,
        next.handles handle ≠ .error .notCommitted)
    (endedStacked : ∀ ended ∈ next.ended, ended ∈ session.ended ∨ ended.items = transaction.stack) :
    next.Sound where
  stackIssued := by simp [noStack]
  stackDistinct := by simp [noStack]
  pendingIffStacked := by
    intro handle issued
    rw [sameIssued] at issued
    rw [noStack]
    refine ⟨fun pending => ?_, by simp⟩
    by_cases stacked : handle ∈ session.stackHandles
    · rw [stackHandles_of_some present] at stacked
      exact absurd pending (written handle stacked)
    · rw [(stepped.frame issued stacked).1] at pending
      exact absurd ((sound.pendingIffStacked handle issued).mp pending) stacked
  endedIssued := by
    intro ended member item itemMember
    rw [sameIssued, noStack]
    refine ⟨?_, by simp⟩
    rcases endedStacked ended member with earlier | items
    · exact (sound.endedIssued ended earlier item itemMember).1
    · rw [items] at itemMember
      refine sound.stackIssued item.handle ?_
      rw [stackHandles_of_some present]
      exact List.mem_map_of_mem itemMember

theorem Stepped.sound (stepped : Stepped session next) (sound : session.Sound) : next.Sound := by
  have whole := stepped
  cases stepped with
  | kept => exact sound
  | pushed transaction item present unclosed fresh =>
    have stack : (session.push transaction (.ok item)).stackHandles =
          session.stackHandles ++ [session.issued] := by
      rw [stackHandles_of_some present]
      simp [push, stackHandles, fresh]
    constructor
    · intro handle member
      rw [stack, List.mem_append, List.mem_singleton] at member
      rcases member with earlier | rfl
      · exact Nat.lt_succ_of_lt (sound.stackIssued handle earlier)
      · exact Nat.lt_succ_self _
    · rw [stack]
      refine sound.stackDistinct.append (List.nodup_singleton _) ?_
      intro handle earlier latest
      rw [List.mem_singleton] at latest
      exact absurd latest (sound.stackIssued handle earlier).ne
    · intro handle issued
      rw [stack, List.mem_append, List.mem_singleton]
      rcases Nat.lt_succ_iff_lt_or_eq.mp issued with earlier | rfl
      · have unchanged : (session.push transaction (.ok item)).handles handle =
              session.handles handle :=
          Function.update_of_ne earlier.ne _ _
        rw [unchanged, sound.pendingIffStacked handle earlier]
        simp [earlier.ne]
      · have pending : (session.push transaction (.ok item)).handles session.issued =
              .error .notCommitted := Function.update_self _ _ _
        simp [pending]
    · intro ended member someItem itemMember
      obtain ⟨issued, unstacked⟩ := sound.endedIssued ended member someItem itemMember
      exact (whole.frame issued unstacked).2
  | committed transaction surroundings present =>
    refine sound.emptied present whole rfl (by simp [finishCommit, stackHandles]) ?_ ?_
    · intro handle stacked
      exact dropExecution_ne_notCommitted stacked _
    · intro ended member
      change ended ∈ session.ended ++ [endedCommit session transaction surroundings] at member
      rcases List.mem_append.mp member with earlier | latest
      · exact .inl earlier
      · rw [List.mem_singleton.mp latest]
        exact .inr rfl
  | discarded transaction reason closed present final =>
    refine sound.emptied present whole rfl (by simp [stackHandles]) ?_ (fun _ member => .inl member)
    intro handle stacked
    change failAll transaction.stack reason session.handles handle ≠ _
    rw [failAll_of_mem stacked]
    simpa using final
  | dropped transaction present =>
    refine sound.emptied present whole rfl (by simp [stackHandles]) ?_ (fun _ member => .inl member)
    intro handle stacked
    exact dropExecution_ne_notCommitted stacked _

/-! ## Whole runs -/

variable {uses : List (Use orm)}

theorem run_invariant (holds : Session orm backend → Prop) (allowed : Use orm → Prop)
    (preserved : ∀ session use, allowed use → holds session → holds (session.step use))
    (start : holds session) (allAllowed : ∀ use ∈ uses, allowed use) : holds (session.run uses) :=
  List.foldlRecOn uses step start fun session holdsSoFar use member =>
    preserved session use (allAllowed use member) holdsSoFar

variable (orm) in
theorem sound_run (backend : Backend) (options : TransactionOptions) (uses : List (Use orm)) :
    ((Session.new orm backend options).run uses).Sound :=
  run_invariant Sound (fun _ => True)
    (fun session use _ sound => (stepped_step session use).sound sound)
    (sound_new orm backend options) (fun _ _ => trivial)

theorem frame_run (uses : List (Use orm)) (issued : handle < session.issued)
    (unstacked : handle ∉ session.stackHandles) :
    (session.run uses).handles handle = session.handles handle := by
  induction uses generalizing session with
  | nil => rfl
  | cons use uses ih =>
    obtain ⟨same, issuedNext, unstackedNext⟩ := (stepped_step session use).frame issued unstacked
    exact (ih issuedNext unstackedNext).trans same

/--
A property of an ended commit call and its own handles that holds when the call
ends holds after every run.
-/
theorem ended_run (holds : Ended orm backend → Handles orm → Prop) (allowed : Use orm → Prop)
    (invariant : Session orm backend → Prop) (ownHandles : ∀ ended handles later,
        (∀ item ∈ ended.items, later item.handle = handles item.handle) → holds ended handles →
        holds ended later)
    (preserved : ∀ session use, allowed use → invariant session → invariant (session.step use))
    (atEnd : ∀ session transaction surroundings, session.Sound → invariant session →
        session.transaction = some transaction →
        holds (endedCommit session transaction surroundings)
          (session.finishCommit transaction surroundings).handles)
    {options : TransactionOptions} (start : invariant (Session.new orm backend options))
    (allAllowed : ∀ use ∈ uses, allowed use) :
    ∀ ended ∈ ((Session.new orm backend options).run uses).ended,
      holds ended ((Session.new orm backend options).run uses).handles := by
  have everything :=
    run_invariant (fun session : Session orm backend =>
        session.Sound ∧ invariant session ∧ ∀ ended ∈ session.ended, holds ended session.handles)
      allowed ?_ ⟨sound_new orm backend options, start, by simp [Session.new]⟩ allAllowed
  · exact everything.2.2
  · rintro session use isAllowed ⟨sound, kept, soFar⟩
    have stepped := stepped_step session use
    refine ⟨stepped.sound sound, preserved session use isAllowed kept, ?_⟩
    intro ended member
    rcases stepped.ended_cases member with earlier | ⟨transaction, surroundings, present, rfl, next⟩
    · refine ownHandles ended session.handles _ ?_ (soFar ended earlier)
      intro item itemMember
      obtain ⟨issued, unstacked⟩ := sound.endedIssued ended earlier item itemMember
      exact (stepped.frame issued unstacked).1
    · rw [next]
      exact atEnd session transaction surroundings sound kept present

end Session

end TypeBridge.Staging
