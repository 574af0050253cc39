import Paranoid.QueueSoundness
import Paranoid.Transitions

namespace Paranoid.QueueWorker

open List QueueModel QueueStatements QueueChanges

variable {π : Type}

structure TaskError where
  message : String
  permanent : Bool

/-- How the task of a handler ends, or what makes the worker abort it. -/
inductive HandlerOutcome
  | returned (result : Except TaskError Unit)
  | panicked
  | cancelled (reason : String)
  | timedOut
  | ownershipLost

def queueTaskResult : HandlerOutcome → Except TaskError Unit
  | .returned result => result
  | .panicked => .error ⟨"queue task handler panicked", true⟩
  | .cancelled reason => .error ⟨"queue task handler was cancelled: " ++ reason, false⟩
  | .timedOut => .error ⟨"queue job timed out", false⟩
  | .ownershipLost => .error ⟨"queue job ownership lost", false⟩

/-- The transition that ends an execution. -/
inductive Finalization
  | complete
  | scheduleRetry (newRetryCount : Nat) (retryAfterMicroseconds : Int) (errorMessage : String)
  | moveToDeadLetterOrFail (errorMessage : String) (increment : Bool) (reason : DeadLetterReason)
  deriving DecidableEq

inductive Phase
  | claimed
  | starting
  | running
  | finalizing (finalization : Finalization)
  | requeueing
  | finished
  deriving DecidableEq

/-- A claimed job in the hands of one worker run, with the row as the claim returned
it. Claims are numbered, so that two claims of one job can be told apart. The context that
the handler is given can be cloned, and a clone may be held longer than the handler runs. -/
structure Execution (π : Type) where
  claim : Nat
  workerId : WorkerOwnerId
  deadLetterEnabled : Bool
  job : JobRow π
  phase : Phase
  contextHeld : Bool

/-- The job is marked started, and the handler is given its context. -/
def Execution.enter (e : Execution π) (phase : Phase) : Execution π :=
  { e with phase, contextHeld := e.contextHeld || phase = .running }

def processClaimedQueueJob (handlerRegistered : Bool) (job : JobRow π) : Phase :=
  if !handlerRegistered then
    .finalizing (.moveToDeadLetterOrFail "unknown task" false .operatorAction)
  else if job.maxRetries < job.retryCount then
    .finalizing (.moveToDeadLetterOrFail "max retries exceeded" false .maxRetriesExceeded)
  else .starting

/-- `retryAfter` is the computed backoff, absent where its computation fails; the
execution then ends without a transition. -/
def handleProcessedQueueJobError (job : JobRow π) (error : TaskError) (retryAfter : Option Int) :
    Phase :=
  let nextRetryCount := job.retryCount + 1
  let retriesExhausted := job.maxRetries < nextRetryCount
  if error.permanent || retriesExhausted then
    .finalizing (.moveToDeadLetterOrFail error.message (!error.permanent)
      (if error.permanent then .permanentError else .maxRetriesExceeded))
  else
    match retryAfter with
    | none => .finished
    | some microseconds => .finalizing (.scheduleRetry nextRetryCount.toNat microseconds error.message)

def Execution.finalize (e : Execution π) (m : Moment π) (deadLetterId : JobId) (t : Tables π) :
    Finalization → Except StatementError (TransitionOutcome × Tables π)
  | .complete => markJobCompleted m e.job.id e.workerId t
  | .scheduleRetry newRetryCount retryAfter errorMessage =>
      scheduleOwnedRunningJobRetry m e.job.id e.workerId newRetryCount retryAfter errorMessage t
  | .moveToDeadLetterOrFail errorMessage increment reason =>
      if e.deadLetterEnabled then
        moveOwnedRunningJobToDeadLetter m e.job.id e.workerId
          deadLetterId errorMessage increment reason t
      else markJobFailed m e.job.id e.workerId errorMessage increment t

/-- The statement that an execution sends in its phase, if it sends one. -/
def Execution.issue (e : Execution π) (m : Moment π) (deadLetterId : JobId) (t : Tables π) :
    Option (Except StatementError (TransitionOutcome × Tables π)) :=
  match e.phase with
  | .starting => some (markJobStarted m e.job.id e.workerId t)
  | .finalizing finalization => some (e.finalize m deadLetterId t finalization)
  | .requeueing => some (returnOwnedStartedRunningJobToPending m e.job.id e.workerId t)
  | .claimed | .running | .finished => none

/-- The phase after the reply to the statement of a phase; no reply stands for a
database error or a timeout. A locked row is tried again. -/
def Phase.afterReply : Phase → Option TransitionOutcome → Phase
  | .starting, some .applied => .running
  | .starting, some .locked => .starting
  | .starting, _ => .finished
  | .finalizing finalization, some .locked => .finalizing finalization
  | .finalizing _, none => .requeueing
  | .finalizing _, some _ => .finished
  | .requeueing, _ => .finished
  | phase, _ => phase

/-- A heartbeat is sent by whoever holds a clone of the context, until the last is dropped. -/
inductive Event (π : Type)
  | begin (handlerRegistered : Bool)
  | statement (moment : Moment π) (deadLetterId : JobId) (acknowledged : Bool)
  | heartbeat (moment : Moment π)
  | handlerDone (outcome : HandlerOutcome) (retryAfter : Option Int)
  | abort
  | dropContext

/-- The event sends the statement of the execution's phase. -/
def Event.transition : Event π → Bool
  | .statement .. => true
  | _ => false

/-- The execution after the event, the tables, and the outcome of the statement that
the event sent. The loss of a reply does not undo its statement. -/
def Execution.act (e : Execution π) (t : Tables π) :
    Event π → Execution π × Tables π × Option TransitionOutcome
  | .begin handlerRegistered =>
      match e.phase with
      | .claimed => ({ e with phase := processClaimedQueueJob handlerRegistered e.job }, t, none)
      | _ => (e, t, none)
  | .statement m deadLetterId acknowledged =>
      match e.issue m deadLetterId t with
      | none => (e, t, none)
      | some (.error _) => ({ e with phase := e.phase.afterReply none }, t, none)
      | some (.ok (outcome, t')) =>
          (e.enter (e.phase.afterReply (if acknowledged then some outcome else none)), t', some outcome)
  | .heartbeat m =>
      if e.contextHeld then
        match touchExecutionHeartbeat m e.job.id e.workerId t with
        | .error _ => (e, t, none)
        | .ok (outcome, t') => (e, t', some outcome)
      else (e, t, none)
  | .handlerDone outcome retryAfter =>
      match e.phase with
      | .running =>
          match queueTaskResult outcome with
          | .ok () => ({ e with phase := .finalizing .complete }, t, none)
          | .error error =>
              ({ e with phase := handleProcessedQueueJobError e.job error retryAfter }, t, none)
      | _ => (e, t, none)
  | .abort => ({ e with phase := .finished }, t, none)
  | .dropContext => ({ e with contextHeld := false }, t, none)

/-- The tables, the executions of all worker runs, the number of claims so far and
the last claim that took each job. -/
structure System (π : Type) where
  tables : Tables π
  executions : List (Execution π)
  claims : Nat
  claimOf : JobId → Nat

def System.empty : System π := ⟨Tables.empty, [], 0, fun _ => 0⟩

inductive Input (π : Type)
  | claim (moment : Moment π) (taskNames : List TaskName) (claimLimit : Nat) (workerId : WorkerOwnerId)
      (deadLetterEnabled acknowledged : Bool)
  | execution (index : Nat) (event : Event π)
  | statement (moment : Moment π) (statement : Statement π)

/-- Worker runs, each under its own owner id, beside any other statements. Claims are
made by worker runs only. A claim whose reply is lost takes its jobs all the same. -/
def step (i : Input π) (s : System π) : System π × Option TransitionOutcome :=
  match i with
  | .claim m taskNames claimLimit workerId deadLetterEnabled acknowledged =>
      match claimAvailableJobs m taskNames claimLimit workerId s.tables with
      | .error _ => (s, none)
      | .ok (jobs, tables) =>
          ({ tables
             executions := s.executions ++ if acknowledged then
                jobs.map (⟨s.claims + 1, workerId, deadLetterEnabled, ·, .claimed, false⟩)
              else []
             claims := s.claims + 1
             claimOf := fun id => if id ∈ jobIds jobs then s.claims + 1 else s.claimOf id }, none)
  | .execution index event =>
      match s.executions[index]? with
      | none => (s, none)
      | some e =>
          let (e', tables, outcome) := e.act s.tables event
          ({ s with tables, executions := s.executions.set index e' }, outcome)
  | .statement m statement =>
      if isClaim statement then (s, none)
      else
        match run m statement s.tables with
        | .error _ => (s, none)
        | .ok tables => ({ s with tables }, none)

end Paranoid.QueueWorker
