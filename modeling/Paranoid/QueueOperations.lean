import Mathlib.Data.Int.ConditionallyCompleteOrder
import Mathlib.Order.Lattice.Nat
import Paranoid.QueueStatements

namespace Paranoid.QueueOperations

open Postgres QueueModel QueueStatements

variable {π : Type}

section Enqueue

inductive JobTimeout
  | workerDefault
  | noTimeout
  | expiresAfter (nanoseconds : Nat)
  deriving DecidableEq

inductive EnqueueError
  | invalidMaxRetries
  | invalidTimeout
  deriving DecidableEq

def timeoutToNanos : JobTimeout → Except EnqueueError Int
  | .workerDefault => .ok 0
  | .noTimeout => .ok (-1)
  | .expiresAfter nanoseconds =>
      if nanoseconds = 0 then .error .invalidTimeout
      else if (nanoseconds : Int) ≤ i64Max then .ok nanoseconds
      else .error .invalidTimeout

/-- The columns that an enqueue computes once for all of its jobs. -/
structure PreparedOptions where
  runAtOrAfterUnixMicroseconds : Option Int
  maxRetries : Int
  timeoutNanos : Int
  domains : NumericDomains 0 maxRetries timeoutNanos

theorem timeoutToNanos_lower {timeout : JobTimeout} {n : Int} (h : timeoutToNanos timeout = .ok n) :
    -1 ≤ n := by
  cases timeout with
  | workerDefault =>
      cases h
      decide
  | noTimeout =>
      cases h
      decide
  | expiresAfter nanoseconds =>
      dsimp only [timeoutToNanos] at h
      split at h
      · cases h
      · split at h
        · cases h
          omega
        · cases h

/-- `max_retries` is a `u32` that has to fit the column, and defaults to five. -/
def PreparedOptions.new (runAtOrAfter : Option Int) (maxRetries : Option Nat) (timeout : JobTimeout) :
    Except EnqueueError PreparedOptions :=
  let retries := maxRetries.getD defaultQueueMaxRetries
  if retries < 2 ^ 31 then
    match h : timeoutToNanos timeout with
    | .error e => .error e
    | .ok timeoutNanos => .ok ⟨runAtOrAfter, retries, timeoutNanos,
        le_rfl, Int.natCast_nonneg _, timeoutToNanos_lower h⟩
  else .error .invalidMaxRetries

/-- The row that the insert statements add; the columns they do not name take
their defaults. -/
def enqueuedJob (now runAtOrAfter : Int) (taskName : TaskName) (options : PreparedOptions)
    (dedupeKey : Option DedupeKey) (id : JobId) (payload : π) : JobRow π where
  id := id
  taskName := taskName
  payload := payload
  status := .pending
  runAtOrAfter := runAtOrAfter
  lastError := none
  retryCount := 0
  maxRetries := options.maxRetries
  timeoutNanos := options.timeoutNanos
  dedupeKey := dedupeKey
  workerId := none
  claimedByWorkerAt := none
  executionStartedAt := none
  executionHeartbeatAt := none
  finishedAt := none
  createdAt := now
  updatedAt := now

inductive EnqueueOutcome
  | inserted
  | queuePaused
  | taskPaused
  | notInserted
  deriving DecidableEq

def queuePaused (m : Moment π) : Bool := globalPauseKey ∈ m.snapshot.pauses

def taskPaused (m : Moment π) (taskName : TaskName) : Bool := pausedTaskKey taskName ∈ m.snapshot.pauses

/-- The statement of a single enqueue is the batch statement for one job; an empty
batch sends no statement. -/
def batchEnqueue (m : Moment π) (taskName : TaskName) (options : PreparedOptions)
    (jobs : List (JobId × π)) (t : Tables π) : Except StatementError (EnqueueOutcome × Tables π) := do
  if jobs = [] then return (.notInserted, t)
  if queuePaused m then return (.queuePaused, t)
  if taskPaused m taskName then return (.taskPaused, t)
  let runAtOrAfter ← runAtOrNow m.now options.runAtOrAfterUnixMicroseconds
  let inserted := jobs.map fun job => enqueuedJob m.now runAtOrAfter taskName options none job.1 job.2
  return (.inserted, ← insertJobs t inserted)

def singleEnqueue (m : Moment π) (taskName : TaskName) (options : PreparedOptions) (id : JobId)
    (payload : π) (t : Tables π) : Except StatementError (EnqueueOutcome × Tables π) :=
  batchEnqueue m taskName options [(id, payload)] t

/-- `ON CONFLICT` looks at the newest rows, `existing_active` at the snapshot. -/
def dedupeEnqueue (m : Moment π) (taskName : TaskName) (options : PreparedOptions)
    (dedupeKey : DedupeKey) (id : JobId) (payload : π) (t : Tables π) :
    Except StatementError ((EnqueueOutcome × Option JobId) × Tables π) := do
  let existingActive :=
    (m.snapshot.jobs.find? (activeDedupeMatch taskName (some dedupeKey))).map JobRow.id
  if queuePaused m then return ((.queuePaused, existingActive), t)
  if taskPaused m taskName then return ((.taskPaused, existingActive), t)
  let runAtOrAfter ← runAtOrNow m.now options.runAtOrAfterUnixMicroseconds
  if t.jobs.any (activeDedupeMatch taskName (some dedupeKey)) then
    return ((.notInserted, existingActive), t)
  let inserted := enqueuedJob m.now runAtOrAfter taskName options (some dedupeKey) id payload
  return ((.inserted, existingActive), ← insertJobs t [inserted])

end Enqueue

section Operator

/-- `CASE` of the transitions that lock the row first and test its status afterwards. -/
def operatorTransitionOutcome (m : Moment π) (id : JobId) (expectedStatus : JobStatus)
    (changed targetExists : Bool) : TransitionOutcome :=
  let visible := m.snapshot.jobs.filter (·.id = id)
  if changed then .applied
  else if targetExists then .stateMismatch
  else if visible.any (·.status ≠ expectedStatus) then .stateMismatch
  else if visible ≠ [] then .locked
  else .notFound

def cancelPendingJob (m : Moment π) (id : JobId) (t : Tables π) :
    Except StatementError (TransitionOutcome × Tables π) := do
  let target := lockJobs m t (·.id = id)
  let deleted := jobIds (target.filter (·.status = .pending))
  let updated ← deleteJobs t deleted
  return (operatorTransitionOutcome m id .pending (deleted ≠ []) (target ≠ []), updated)

def forceRequeueRunningJobById (m : Moment π) (id : JobId) (t : Tables π) :
    Except StatementError (TransitionOutcome × Tables π) := do
  let target := lockJobs m t (·.id = id)
  let requeued := jobIds (target.filter (·.status = .running))
  let updated ← updateJobs t requeued fun row => .ok (returnToPending m.now row)
  return (operatorTransitionOutcome m id .running (requeued ≠ []) (target ≠ []), updated)

/-- Another active job of the snapshot holds the dedupe key of the row. -/
def activeDuplicate (m : Moment π) (row : JobRow π) : Bool :=
  m.snapshot.jobs.any fun active =>
    activeDedupeMatch row.taskName row.dedupeKey active && active.id ≠ row.id

def retryFailedJobById (m : Moment π) (id : JobId) (runAtOrAfterUnixMicroseconds : Option Int)
    (t : Tables π) : Except StatementError (TransitionOutcome × Tables π) := do
  let target := lockJobs m t (·.id = id)
  let dedupeConflict := target.any fun row => row.status = .failed && activeDuplicate m row
  let retried := jobIds (target.filter fun row => row.status = .failed && !dedupeConflict)
  let updated ← updateJobs t retried fun row => do
    return retryFailedJob m.now (← runAtOrNow m.now runAtOrAfterUnixMicroseconds) row
  return (if retried = [] && dedupeConflict then .dedupeConflict
    else operatorTransitionOutcome m id .failed (retried ≠ []) (target ≠ []), updated)

/-- `finished_at ASC NULLS FIRST, id ASC` -/
def finishedOrder (row : JobRow π) : WithBot Int ×ₗ JobId := toLex (row.finishedAt, row.id)

/-- The row ranks first among the locked rows of its task and dedupe key. -/
def firstOfDedupeKey (lockable : List (JobRow π)) (row : JobRow π) : Bool :=
  lockable.all fun other =>
    if other.taskName = row.taskName ∧ other.dedupeKey = row.dedupeKey then
      finishedOrder row ≤ finishedOrder other
    else true

def retryAvailableFailedJobs (m : Moment π) (optionalTaskName : Option TaskName) (limit : Nat)
    (runAtOrAfterUnixMicroseconds : Option Int) (t : Tables π) :
    Except StatementError (Nat × Tables π) := do
  let lockable := lockFirstJobs m t
    (fun row => row.status = .failed &&
      optionalTaskName.all (row.taskName = ·) && !activeDuplicate m row)
    finishedOrder limit
  let candidates := jobIds
    (lockable.filter fun row => row.dedupeKey.isNone || firstOfDedupeKey lockable row)
  let updated ← updateJobs t candidates fun row => do
    return retryFailedJob m.now (← runAtOrNow m.now runAtOrAfterUnixMicroseconds) row
  return (candidates.length, updated)

inductive MoveOutcome
  | moved (deadLetterId : JobId)
  | jobNotFound
  | jobLocked
  | jobNotFailed
  | unexpected
  deriving DecidableEq

/-- A failed job without an error text becomes a dead letter with an empty one. -/
def failedDeadLetter (now : Int) (id : JobId) (reason : DeadLetterReason) (row : JobRow π) :
    DeadLetterRow π :=
  deadLetterOf now id (row.lastError.getD "") row.retryCount reason row

def moveFailedJobToDeadLetter (m : Moment π) (id deadLetterId : JobId) (reason : DeadLetterReason)
    (t : Tables π) : Except StatementError (MoveOutcome × Tables π) := do
  let visible := m.snapshot.jobs.filter (·.id = id)
  let target := lockJobs m t (·.id = id)
  let moved := target.filter (·.status = .failed)
  let updated ← replaceRows t (jobIds moved) [] []
    (moved.map (failedDeadLetter m.now deadLetterId reason))
  return (if moved ≠ [] then .moved deadLetterId
    else if visible = [] then .jobNotFound
    else if target = [] ∧ visible.any (·.status = .failed) then .jobLocked
    else if ¬target.any (·.status = .failed) then .jobNotFailed
    else .unexpected, updated)

/-- The caller passes every job id once, each with a new dead-letter id. -/
def moveFailedJobsToDeadLetterBatch (m : Moment π) (idMap : List (JobId × JobId))
    (reason : DeadLetterReason) (t : Tables π) :
    Except StatementError (List (DeadLetterRow π) × Tables π) := do
  let candidates := lockJobs m t fun row => (idMap.lookup row.id).isSome && row.status = .failed
  let inserted := candidates.map fun row =>
    failedDeadLetter m.now ((idMap.lookup row.id).getD 0) reason row
  return (inserted, ← replaceRows t (jobIds candidates) [] [] inserted)

end Operator

section DeadLetters

structure RequeueReply where
  insertedId : Option JobId
  sourceExists : Bool
  visibleExists : Bool
  dedupeConflictExists : Bool
  deletedSource : Bool

/-- The job that replaces a requeued dead letter. -/
def requeuedJob (now runAtOrAfter : Int) (id : JobId) (source : DeadLetterRow π) : JobRow π where
  id := id
  taskName := source.taskName
  payload := source.payload
  status := .pending
  runAtOrAfter := runAtOrAfter
  lastError := none
  retryCount := 0
  maxRetries := source.maxRetries
  timeoutNanos := source.timeoutNanos
  dedupeKey := source.dedupeKey
  workerId := none
  claimedByWorkerAt := none
  executionStartedAt := none
  executionHeartbeatAt := none
  finishedAt := none
  createdAt := now
  updatedAt := now

def requeueDeadLetterJob (m : Moment π) (deadLetterId newJobId : JobId)
    (runAtOrAfterUnixMicroseconds : Option Int) (t : Tables π) :
    Except StatementError (RequeueReply × Tables π) := do
  let visible := m.snapshot.deadLetters.filter (·.id = deadLetterId)
  let source := lockDeadLetters m t (·.id = deadLetterId)
  let dedupeConflict := source.any fun row =>
    m.snapshot.jobs.any (activeDedupeMatch row.taskName row.dedupeKey)
  -- the insert does nothing where the newest rows already hold the active key
  let requeued := source.filter fun row =>
    !dedupeConflict && !t.jobs.any (activeDedupeMatch row.taskName row.dedupeKey)
  let inserted ← requeued.mapM fun row => do
    return requeuedJob m.now (← runAtOrNow m.now runAtOrAfterUnixMicroseconds) newJobId row
  let updated ← replaceRows t [] inserted (deadLetterIds requeued) []
  return (⟨if requeued = [] then none else some newJobId, source ≠ [], visible ≠ [], dedupeConflict,
    requeued ≠ []⟩, updated)

def deleteDeadLetterJob (m : Moment π) (deadLetterId : JobId) (t : Tables π) :
    Except StatementError (TransitionOutcome × Tables π) := do
  let visible := m.snapshot.deadLetters.filter (·.id = deadLetterId)
  let target := deadLetterIds (lockDeadLetters m t (·.id = deadLetterId))
  let updated ← deleteDeadLetters t target
  return (if target ≠ [] then .applied else if visible ≠ [] then .locked else .notFound, updated)

end DeadLetters

section Maintenance

def cleanupJobsOlderThanOnce (m : Moment π) (status : JobStatus) (olderThanMicroseconds : Int)
    (batchSize : Nat) (t : Tables π) : Except StatementError (Nat × Tables π) := do
  let cutoff ← sql (timestampMinusMicroseconds m.now olderThanMicroseconds)
  let toDelete := jobIds (lockFirstJobs m t
    (fun row => row.status = status && row.finishedAt.any (· < cutoff)) finishedOrder batchSize)
  return (toDelete.length, ← deleteJobs t toDelete)

def cleanupAvailableDeadLetterJobsOlderThanOnce (m : Moment π) (olderThanMicroseconds : Int)
    (batchSize : Nat) (t : Tables π) : Except StatementError (Nat × Tables π) := do
  let cutoff ← sql (timestampMinusMicroseconds m.now olderThanMicroseconds)
  let toDelete := deadLetterIds (lockFirstDeadLetters m t (fun row => row.deadLetteredAt < cutoff)
    (fun row => toLex (row.deadLetteredAt, row.id)) batchSize)
  return (toDelete.length, ← deleteDeadLetters t toDelete)

/-- `execution_heartbeat_at ASC, id ASC`, with nulls last; a running row has no null there. -/
def heartbeatOrder (row : JobRow π) : WithTop Int ×ₗ JobId := toLex (row.executionHeartbeatAt, row.id)

def stale (cutoff : Int) (row : JobRow π) : Bool :=
  row.status = .running && row.executionHeartbeatAt.any (· < cutoff)

def reclaimNeverStartedRunningJobs (m : Moment π) (staleThresholdMicroseconds : Int) (batchSize : Nat)
    (t : Tables π) : Except StatementError (List JobId × Tables π) := do
  let cutoff ← sql (timestampMinusMicroseconds m.now staleThresholdMicroseconds)
  let candidates := jobIds (lockFirstJobs m t
    (fun row => stale cutoff row && row.executionStartedAt.isNone) heartbeatOrder batchSize)
  return (candidates, ← updateJobs t candidates fun row => .ok (returnToPending m.now row))

def appendStaleExecutionError (lastError : Option String) : String :=
  (lastError.map (· ++ " | ")).getD "" ++ staleExecutionError

def reclaimExpiredRunningJobsToFailed (m : Moment π) (staleThresholdMicroseconds : Int)
    (batchSize : Nat) (t : Tables π) : Except StatementError (List JobId × Tables π) := do
  let cutoff ← sql (timestampMinusMicroseconds m.now staleThresholdMicroseconds)
  let candidates := jobIds (lockFirstJobs m t
    (fun row => stale cutoff row && row.executionStartedAt.isSome && row.maxRetries ≤ row.retryCount)
    heartbeatOrder batchSize)
  let updated ← updateJobs t candidates fun row => do
    return { clearWorkerRuntime (some m.now) row with
      status := .failed, retryCount := ← incrementRetryCount true row,
      lastError := some (appendStaleExecutionError row.lastError), updatedAt := m.now }
  return (candidates, updated)

def reclaimExpiredRunningJobsToPendingForRetry (m : Moment π) (staleThresholdMicroseconds : Int)
    (batchSize : Nat) (t : Tables π) : Except StatementError (List JobId × Tables π) := do
  let cutoff ← sql (timestampMinusMicroseconds m.now staleThresholdMicroseconds)
  let candidates := jobIds (lockFirstJobs m t
    (fun row => stale cutoff row && row.executionStartedAt.isSome && row.retryCount < row.maxRetries)
    heartbeatOrder batchSize)
  let updated ← updateJobs t candidates fun row => do
    return { clearWorkerRuntime none row with
      status := .pending, retryCount := ← incrementRetryCount true row,
      lastError := some (appendStaleExecutionError row.lastError), updatedAt := m.now }
  return (candidates, updated)

end Maintenance

section Pause

def upsertPauseKey (pauseKey : String) (t : Tables π) : Tables π :=
  { t with pauses := t.pauses.insert pauseKey }

def deletePauseKey (pauseKey : String) (t : Tables π) : Tables π :=
  { t with pauses := t.pauses.erase pauseKey }

end Pause

end Paranoid.QueueOperations
