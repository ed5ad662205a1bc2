import TypeBridge.Library.Waiting

namespace TypeBridge.Staging

/-!
# Deferred transactions

A logical transaction queues work and hands out one handle for each answer.
Nothing opens until it commits. The commit then runs the queue in one provider
transaction, or sends it as one signed request to a proxy, and writes every
handle of the queue. The commit waits at each provider call and can be dropped
there; the queue it took is then dropped with it.
-/

open Library

inductive TransactionKind where
  | read | write | schema
  deriving DecidableEq, Repr

/-- Where a transaction commits. -/
inductive Backend where
  | direct | proxy
  deriving DecidableEq, Repr

inductive CommitFailureCertainty where
  | definitelyAborted | unknown
  deriving DecidableEq, Repr

inductive ClassifiedCommitError where
  | orm (text : String)
  | driver (certainty : CommitFailureCertainty) (message : String)
  deriving DecidableEq, Repr

def ClassifiedCommitError.commitFailureCertainty :
    ClassifiedCommitError → Option CommitFailureCertainty
  | .orm _ => none
  | .driver certainty _ => some certainty

def ClassifiedCommitError.text : ClassifiedCommitError → String
  | .orm text => text
  | .driver _ message => "Transaction error: Commit failed: " ++ message

inductive RefusalCategory where
  | invalidInput | unsupportedCapability | resourceLimit | integrity | transactionFailure
  deriving DecidableEq, Repr

structure Refusal where
  category : RefusalCategory
  code : String
  deriving DecidableEq, Repr

/-- Keep a server refusal's stable code. -/
def remoteRefusal (code sdkCategory : String) : Refusal :=
  match sdkCategory with
  | "invalid_input" => ⟨.invalidInput, code⟩
  | "unsupported_capability" => ⟨.unsupportedCapability, code⟩
  | "resource_limit" => ⟨.resourceLimit, code⟩
  | "integrity" => ⟨.integrity, code⟩
  | _ => ⟨.transactionFailure, code⟩

/-- A diagnostic of the contract layer. -/
structure Diagnostic where
  code : String
  message : String
  deriving DecidableEq, Repr

/-- What a handle reports while it has no answer. -/
inductive PendingError where
  | notCommitted | closed | rolledBack | readOnly
  | invalidPlan (diagnostic : Diagnostic)
  | notAllowedInKind (diagnostic : Diagnostic)
  | failed (opIndex : Option Nat) (message : String)
  | refused (opIndex : Option Nat) (refusal : Refusal)
  deriving DecidableEq, Repr

/-- The operation index inside an error text. -/
def formatOpIndex : Option Nat → String
  | none => ""
  | some index => " at operation " ++ toString index

def PendingError.text : PendingError → String
  | .notCommitted => "Transaction has not committed"
  | .closed => "Transaction is closed"
  | .rolledBack => "Staged query was rolled back"
  | .readOnly => "Read transaction cannot stage a write"
  | .invalidPlan diagnostic => "Plan cannot be staged: " ++ diagnostic.message
  | .notAllowedInKind diagnostic => "Not allowed in this transaction kind: " ++ diagnostic.message
  | .failed opIndex message =>
      "Transaction execution failed" ++ formatOpIndex opIndex ++ ": " ++ message
  | .refused opIndex refusal =>
      "Transaction execution failed" ++ formatOpIndex opIndex ++
        ": the server refused the staged transaction (" ++ refusal.code ++ ")"

/-- Why a commit call failed. -/
structure CommitError where
  opIndex : Option Nat
  error : ClassifiedCommitError
  remote : Option Refusal
  deriving DecidableEq, Repr

namespace CommitError

/-- A commit failure at an operation, or at none. -/
def new (error : ClassifiedCommitError) (opIndex : Option Nat) : CommitError :=
  ⟨opIndex, error, none⟩

/-- A commit failure of the transaction's own life cycle. -/
def lifecycle (error : PendingError) : CommitError :=
  new (.orm ("Transaction error: " ++ error.text)) none

def pending (failure : CommitError) : PendingError :=
  match failure.remote with
  | some refusal => .refused failure.opIndex refusal
  | none => .failed failure.opIndex failure.error.text

end CommitError

/-- A statement to run in the provider transaction. -/
structure StagedQuery where
  typeql : String
  writes : Bool
  deriving DecidableEq, Repr

/-- A signed failure as a reply carries it. -/
structure Projection where
  sdkCategory : String
  code : String
  message : String
  -- the first operation index of its path
  opIndex : Option Nat
  -- the provider's own code among its details
  providerCode : Option String
  deriving DecidableEq, Repr

/--
The parts a transaction calls: how plans lower, how provider answers resolve,
and how requests are sealed and replies opened.
-/
structure Interface where
  Plan : Type
  Operation : Type
  StagedPlan : Type
  StagedAnswer : Type
  QueryResult : Type
  PlanAnswer : Type
  ProgramAnswer : Type
  Reply : Type
  writes : Plan → Bool
  operation : Plan → Operation
  stagedQuery : Plan → Except Diagnostic StagedQuery
  stagedPlan : Plan → Except Diagnostic StagedPlan
  stagedPlanWrites : StagedPlan → Bool
  resolve : Operation → QueryResult → Except Diagnostic PlanAnswer
  fromStaged : StagedAnswer → StagedPlan → Except Diagnostic PlanAnswer
  sealRequest : List StagedPlan → TransactionKind → Except Diagnostic Unit
  -- the authenticated outcome and answers of a reply to a request
  openReply : Reply → List StagedPlan → Except Diagnostic (Option Projection × List StagedAnswer)
  checkAnswers : List StagedAnswer → List StagedPlan → Except Diagnostic Unit

variable (orm : Interface)

/-- Names an answer's shared cell. -/
abbrev Handle := Nat

/-- One staged unit of a transaction on the given backend. -/
inductive Item : Backend → Type where
  | query (handle : Handle) (query : StagedQuery) : Item .direct
  | plan (handle : Handle) (query : StagedQuery) (operation : orm.Operation) : Item .direct
  | remotePlan (handle : Handle) (plan : orm.StagedPlan) : Item .proxy
  | program {backend : Backend} (handle : Handle) : Item backend

inductive Resolved where
  | query (answer : orm.QueryResult)
  | plan (answer : orm.PlanAnswer)
  | program (answer : orm.ProgramAnswer)

abbrev Reading := Except PendingError (Resolved orm)

/-- The shared cells of all handles. -/
abbrev Handles := Handle → Reading orm

variable {orm}

namespace Item

def handle {backend : Backend} : Item orm backend → Handle
  | .query handle _ => handle
  | .plan handle _ _ => handle
  | .remotePlan handle _ => handle
  | .program handle => handle

def writes {backend : Backend} : Item orm backend → Bool
  | .query _ statement => statement.writes
  | .plan _ statement _ => statement.writes
  | .remotePlan _ staged => orm.stagedPlanWrites staged
  | .program _ => false

/-- The plan a proxy commit sends for an item. -/
def remote {backend : Backend} : Item orm backend → Option orm.StagedPlan
  | .remotePlan _ staged => some staged
  | _ => none

end Item

/-! ## Writing the handles of an execution -/

def failAll {backend : Backend} (items : List (Item orm backend)) (error : PendingError)
    (handles : Handles orm) : Handles orm :=
  fun handle => if handle ∈ items.map Item.handle then .error error else handles handle

def publishAll {backend : Backend} :
    List (Item orm backend) → List (Resolved orm) → Handles orm → Handles orm
  | item :: items, answer :: answers, handles =>
      publishAll items answers (Function.update handles item.handle (.ok answer))
  | _, _, handles => handles

def dropExecution {backend : Backend} (items : List (Item orm backend)) (handles : Handles orm) :
    Handles orm :=
  fun handle =>
    match handles handle with
    | .error .notCommitted =>
        if handle ∈ items.map Item.handle then .error .closed
        else handles handle
    | reading => reading

/-! ## Provider calls -/

variable (orm) in
inductive Call where
  | openTransaction (kind : TransactionKind)
  | query (index : Nat) (typeql : String)
  | runProgram (index : Nat)
  | rollback | close | commit
  | send (plans : List orm.StagedPlan)

def Call.Answer : Call orm → Type
  | .openTransaction _ => Except String Unit
  | .query _ _ => Except String orm.QueryResult
  -- a program also hands the provider transaction back, or has consumed it
  | .runProgram _ => Except String orm.ProgramAnswer × Bool
  | .rollback => Except String Unit
  | .close => Except String Unit
  | .commit => Except ClassifiedCommitError Unit
  | .send _ => Except String orm.Reply

variable (orm) in
/-- A computation of a commit over the shared handles. -/
abbrev Committing (α : Type) := Async (@Call.Answer orm) (Handles orm) α

/-! ## The direct commit -/

/-- The failure of work after a program consumed the provider transaction. -/
def providerConsumed : String :=
  "Transaction error: Staged program consumed the provider transaction"

def planAnswerError (diagnostic : Diagnostic) : String :=
  "result_decode [" ++ diagnostic.code ++ "] at result: " ++ diagnostic.message

/-- Run one item; the provider transaction is there unless consumed. -/
def fireItem (index : Nat) (provider : Bool) (item : Item orm .direct) :
    Committing orm (Except String (Resolved orm) × Bool) :=
  match provider, item with
  | false, _ => pure (.error providerConsumed, false)
  | true, .query _ query => do
      let answer ← Async.await (Call.query index query.typeql : Call orm)
      pure (Except.map Resolved.query answer, true)
  | true, .plan _ query operation => do
      let answer ← Async.await (Call.query index query.typeql : Call orm)
      -- plan answers resolve before the provider commit
      pure (Except.bind answer fun result =>
          ((orm.resolve operation result).map Resolved.plan).mapError
            planAnswerError,
          true)
  | true, .program _ => do
      let ran ← Async.await (Call.runProgram index : Call orm)
      pure (Except.map Resolved.program ran.1, ran.2)

/-- Give up the provider transaction after a failed item. -/
def abandon (kind : TransactionKind) (provider : Bool) : Committing orm Unit :=
  match provider, kind with
  | false, _ => pure ()
  | true, .read => do
      let _ ← Async.await (Call.close : Call orm)
      pure ()
  | true, _ => do
      let _ ← Async.await (Call.rollback : Call orm)
      let _ ← Async.await (Call.close : Call orm)
      pure ()

/-- Run the items in order, up to the first that fails. -/
def fireItems (kind : TransactionKind) : Nat → Bool → List (Item orm .direct) →
      ExceptT CommitError (Committing orm) (Bool × List (Resolved orm))
  | _, provider, [] => pure (provider, [])
  | index, provider, item :: items => do
      let (resolved, provider) ← ExceptT.lift (fireItem index provider item)
      match resolved with
      | .ok answer => do
          let (provider, answers) ← fireItems kind (index + 1) provider items
          pure (provider, answer :: answers)
      | .error text => do
          ExceptT.lift (abandon kind provider)
          Async.attempt (.error (CommitError.new (.orm text) (some index)))

def closeOnly : ExceptT CommitError (Committing orm) Unit := do
  let closed ← Async.awaitOr (Call.close : Call orm)
  Async.attempt (Except.mapError (fun text => CommitError.new (.orm text) none) closed)

/-- Commit, close whatever came of it, and then report the commit. -/
def commitAndClose : ExceptT CommitError (Committing orm) Unit := do
  let committed ← Async.awaitOr (Call.commit : Call orm)
  -- a failed close is only logged
  let _ ← Async.awaitOr (Call.close : Call orm)
  Async.attempt (Except.mapError (fun error => CommitError.new error none) committed)

/-- End the provider transaction after its last item. -/
def settle (kind : TransactionKind) (neverCommit provider : Bool) :
    ExceptT CommitError (Committing orm) Unit :=
  if provider = false then Async.attempt (.error (CommitError.new (.orm providerConsumed) none))
  else if neverCommit = true ∨ kind = .read then closeOnly
  else commitAndClose

/-- The deadline must be a representable instant. -/
def checkDeadline (deadlineFits : Bool) : ExceptT CommitError (Committing orm) Unit :=
  Async.attempt (if deadlineFits then .ok ()
    else
      .error
        (CommitError.lifecycle (.failed none "Transaction deadline exceeds the supported range")))

def openProvider (kind : TransactionKind) :
    ExceptT CommitError (Committing orm) Unit := do
  let opened ← Async.awaitOr (Call.openTransaction kind : Call orm)
  Async.attempt (Except.mapError (fun text => CommitError.new (.orm text) none) opened)

/-- Run the queue in one provider transaction. -/
def fire (kind : TransactionKind) (neverCommit deadlineFits : Bool)
    (items : List (Item orm .direct)) :
    ExceptT CommitError (Committing orm) (List (Resolved orm)) := do
  checkDeadline deadlineFits
  openProvider kind
  let (provider, answers) ← fireItems kind 0 true items
  settle kind neverCommit provider
  pure answers

/-- How a commit call that was not dropped has ended. -/
inductive CommitResult where
  | returned (outcome : Except CommitError Unit)
  | panicked
  deriving DecidableEq, Repr

/-- Publish every answer, or fail every handle. -/
def conclude {backend : Backend} (items : List (Item orm backend))
    (outcome : Except CommitError (List (Resolved orm))) : Committing orm CommitResult :=
  match outcome with
  | .ok answers => do
      Async.change (publishAll items answers)
      pure (.returned (.ok ()))
  | .error failure => do
      Async.change (failAll items failure.pending)
      pure (.returned (.error failure))

/-- Commit a nonempty queue in a provider transaction. -/
def commitLocal (kind : TransactionKind) (neverCommit deadlineFits : Bool)
    (items : List (Item orm .direct)) :
    Committing orm CommitResult := do
  let outcome ← (fire kind neverCommit deadlineFits items).run
  conclude items outcome

/-! ## The proxy commit -/

/-- Type a signed failure like the direct commit would. -/
def proxyFailure (projection : Projection) : CommitError :=
  let rendered :=
    match projection.providerCode with
    | some code => "[" ++ code ++ "] " ++ projection.message
    | none => projection.message
  -- the server signs this code for anything that may have committed
  let unknown := projection.code == "commit_outcome_unknown"
  let aborted := projection.code == "commit_definitely_aborted"
  { opIndex := projection.opIndex
    error :=
      .driver (if unknown then .unknown else .definitelyAborted)
        (if unknown || aborted then rendered
        else "[" ++ projection.code ++ "] " ++ rendered)
    remote :=
      if unknown || aborted then none
      else some (remoteRefusal projection.code projection.sdkCategory) }

def verify (reply : orm.Reply) (plans : List orm.StagedPlan) :
    Except Diagnostic (Projection ⊕ List orm.StagedAnswer) := do
  match ← orm.openReply reply plans with
  | (some projection, []) => pure (.inl projection)
  | (some _, _ :: _) =>
      throw ⟨"query_remote_v3_partial_answers", "failed transactions do not expose partial answers"⟩
  | (none, answers) =>
      if answers.length = plans.length then
        orm.checkAnswers answers plans
        pure (.inr answers)
      else
        throw ⟨"query_remote_v3_answer_count", "answer count does not match the staged stack"⟩

/-- A failure that leaves open whether the commit was applied. -/
def unknownOutcome (message : String) : CommitError :=
  CommitError.new (.driver .unknown message) none

def resolveReply : Nat → List (Item orm .proxy) → List orm.StagedAnswer →
      Option (Except CommitError (List (Resolved orm)))
  | index, item :: items, answer :: answers =>
      match item.remote with
      | none => none
      | some plan =>
          match orm.fromStaged answer plan with
          | .error diagnostic =>
              some (.error (CommitError.new (.orm (planAnswerError diagnostic)) (some index)))
          | .ok resolved =>
              (resolveReply (index + 1) items answers).map
                (Except.map (Resolved.plan resolved :: ·))
  | _, _, _ => some (.ok [])

/-- What the answer to a sent request means; a panic has no outcome. -/
def proxyOutcome (items : List (Item orm .proxy)) (plans : List orm.StagedPlan)
    (sent : Except String orm.Reply) : Option (Except CommitError (List (Resolved orm))) :=
  match sent with
  | .error _ => some (.error (unknownOutcome "the proxy reply was not received"))
  | .ok reply =>
      match verify reply plans with
      | .error _ => some (.error (unknownOutcome "the proxy reply could not be verified"))
      | .ok (.inl projection) => some (.error (proxyFailure projection))
      | .ok (.inr answers) => resolveReply 0 items answers

/-- Conclude a sent request, unless reading its reply panicked. -/
def concludeSent (items : List (Item orm .proxy))
    (outcome : Option (Except CommitError (List (Resolved orm)))) : Committing orm CommitResult :=
  match outcome with
  | none => pure .panicked
  | some outcome => conclude items outcome

/-- Send one sealed request and read its reply. -/
def attempt (items : List (Item orm .proxy)) (plans : List orm.StagedPlan) :
    Committing orm CommitResult := do
  -- unknown from before the first byte is sent
  Async.change (failAll items (unknownOutcome "the proxy commit outcome is not known").pending)
  let sent ← Async.await (Call.send plans : Call orm)
  concludeSent items (proxyOutcome items plans sent)

/-- Commit a nonempty queue as one signed request. -/
def commitProxy (kind : TransactionKind) (items : List (Item orm .proxy)) :
    Committing orm CommitResult :=
  match orm.sealRequest (items.filterMap Item.remote) kind with
  | .error diagnostic => conclude items (.error (CommitError.lifecycle (.invalidPlan diagnostic)))
  | .ok () => attempt items (items.filterMap Item.remote)

/-! ## The logical transaction -/

structure TransactionOptions where
  kind : Option TransactionKind
  neverCommit : Bool
  deriving DecidableEq, Repr

variable (orm) in
/-- A reusable logical transaction. -/
structure Transaction (backend : Backend) where
  options : TransactionOptions
  stack : List (Item orm backend)
  closed : Bool

variable (orm) in
/-- What surrounds one commit call: the clock, and who answers or drops it. -/
structure Surroundings where
  deadlineFits : Bool
  environment : List (Answered (@Call.Answer orm)) → (call : Call orm) → Option call.Answer

variable (orm) in
structure Ended (backend : Backend) where
  items : List (Item orm backend)
  answered : List (Answered (@Call.Answer orm))
  shown : List (Handles orm)
  stop : Stop (Call orm) CommitResult

def executionKind {backend : Backend} (options : TransactionOptions)
    (items : List (Item orm backend)) : TransactionKind :=
  options.kind.getD (if items.any Item.writes then .write else .read)

def commitItems {backend : Backend} (options : TransactionOptions) (deadlineFits : Bool)
    (items : List (Item orm backend)) : Committing orm CommitResult :=
  match backend with
  | .direct =>
      commitLocal (executionKind options items) options.neverCommit
        deadlineFits items
  | .proxy => commitProxy (executionKind options items) items

/-- What a commit call takes off the stack does. -/
def Transaction.commit {backend : Backend} (transaction : Transaction orm backend)
    (deadlineFits : Bool) : Committing orm CommitResult :=
  if transaction.closed then pure (.returned (.error (CommitError.lifecycle .closed)))
  else if transaction.stack.isEmpty then pure (.returned (.ok ()))
  else commitItems transaction.options deadlineFits transaction.stack

variable (orm) in
/-- A transaction with every handle it gave out and every commit it ran. -/
structure Session (backend : Backend) where
  handles : Handles orm
  issued : Nat
  -- gone once the transaction is dropped
  transaction : Option (Transaction orm backend)
  ended : List (Ended orm backend)

variable (orm) in
/-- What the owner of a transaction does with it. -/
inductive Use where
  | stage (query : StagedQuery)
  | stagePlan (plan : orm.Plan)
  | stageProgram
  | commit (surroundings : Surroundings orm)
  | rollback | close | drop

variable (orm) in
def Session.new (backend : Backend) (options : TransactionOptions) : Session orm backend where
  handles := fun _ => .error .notCommitted
  issued := 0
  transaction := some ⟨options, [], false⟩
  ended := []

/-- Refuse work in a closed transaction and writes in a read transaction. -/
def Transaction.admit {backend : Backend} (transaction : Transaction orm backend) (writes : Bool) :
    Except PendingError Unit :=
  if transaction.closed then .error .closed
  else if writes = true ∧ transaction.options.kind = some .read then .error .readOnly
  else .ok ()

/-- Refuse typed work in an explicit schema transaction. -/
def Transaction.admitTyped {backend : Backend} (transaction : Transaction orm backend) :
    Except PendingError Unit :=
  if transaction.options.kind = some .schema then
    .error (.notAllowedInKind ⟨"borrowed_target_not_read_only",
      "typed reads and plans cannot be staged in a schema transaction"⟩)
  else .ok ()

/-- The item of a raw query; only plans travel to a proxy. -/
def queryItem (backend : Backend) (handle : Handle) (query : StagedQuery) :
    Except PendingError (Item orm backend) :=
  match backend with
  | .direct => .ok (.query handle query)
  | .proxy =>
      .error (.invalidPlan ⟨"staged_proxy_unsupported", "only plans stage on a proxy transaction"⟩)

def planItem (backend : Backend) (handle : Handle) (plan : orm.Plan) :
    Except PendingError (Item orm backend) :=
  match backend with
  | .direct =>
      ((orm.stagedQuery plan).map fun query =>
        Item.plan handle query (orm.operation plan)).mapError .invalidPlan
  | .proxy => ((orm.stagedPlan plan).map (Item.remotePlan handle)).mapError .invalidPlan

/-- What a staging call puts on the stack under a new handle. -/
def Transaction.stagedItem {backend : Backend} (transaction : Transaction orm backend)
    (handle : Handle) : Use orm → Except PendingError (Item orm backend)
  | .stage query => do
      transaction.admit query.writes
      queryItem backend handle query
  | .stagePlan plan => do
      transaction.admit (orm.writes plan)
      transaction.admitTyped
      planItem backend handle plan
  | .stageProgram => do
      transaction.admit false
      transaction.admitTyped
      pure (.program handle)
  | _ => .error .closed

namespace Session

variable {backend : Backend}

/-- Put one item on the stack under a new handle, unless it is refused. -/
def push (session : Session orm backend) (transaction : Transaction orm backend)
    (item : Except PendingError (Item orm backend)) : Session orm backend :=
  match item with
  | .error _ => session
  | .ok item =>
      { session with
        handles :=
          Function.update session.handles session.issued (.error .notCommitted)
        issued := session.issued + 1
        transaction := some { transaction with stack := transaction.stack ++ [item] } }

/-- Run one commit call to its end and drop the queue it took. -/
def finishCommit (session : Session orm backend) (transaction : Transaction orm backend)
    (surroundings : Surroundings orm) : Session orm backend :=
  let ending :=
    (transaction.commit surroundings.deadlineFits session.handles).run
      surroundings.environment []
  { session with
    handles := dropExecution transaction.stack ending.state
    transaction := some { transaction with stack := [] }
    ended := session.ended ++ [⟨transaction.stack, ending.answered, ending.shown, ending.stop⟩] }

/-- Discard the stack; every handle of it reports the given reason. -/
def discard (session : Session orm backend) (transaction : Transaction orm backend)
    (reason : PendingError) (closed : Bool) : Session orm backend :=
  if transaction.closed then session
  else
    { session with
      handles := failAll transaction.stack reason session.handles
      transaction := some { transaction with stack := [], closed := closed } }

/-- One use of the transaction; a dropped one has no more uses. -/
def step (session : Session orm backend) (use : Use orm) : Session orm backend :=
  match session.transaction with
  | none => session
  | some transaction =>
      match use with
      | .commit surroundings => session.finishCommit transaction surroundings
      | .rollback => session.discard transaction .rolledBack false
      | .close => session.discard transaction .closed true
      | .drop =>
          { session with
            handles := dropExecution transaction.stack session.handles
            transaction := none }
      | use => session.push transaction (transaction.stagedItem session.issued use)

def run (session : Session orm backend) (uses : List (Use orm)) : Session orm backend :=
  uses.foldl step session

end Session

end TypeBridge.Staging
