import Mathlib.Data.List.Sort
import Mathlib.Data.Prod.Lex
import Mathlib.Order.WithBot
import Paranoid.QueueModel

namespace Paranoid.QueueStatements

open Postgres QueueModel

variable {π ρ κ : Type}

def staleExecutionError : String := "execution expired (stale threshold exceeded)"

/-- What a statement meets when it runs: its timestamp, the snapshot that it reads
and the rows that other transactions hold locked. -/
structure Moment (π : Type) where
  now : Int
  snapshot : Tables π
  lockedJobs : JobId → Bool
  lockedDeadLetters : JobId → Bool

def sql {α : Type} (result : Except SqlError α) : Except StatementError α :=
  result.mapError .outOfRange

/-- A bound text: the server rejects a null byte before the statement runs. -/
def text (value : String) : Except StatementError String :=
  if '\x00' ∈ value.toList then .error .characterNotInRepertoire else .ok value

/-- `COALESCE(TIMESTAMPTZ 'epoch' + n * INTERVAL '1 microsecond', statement_timestamp())` -/
def runAtOrNow (now : Int) : Option Int → Except StatementError Int
  | none => .ok now
  | some unixMicroseconds => sql (timestampPlusMicroseconds 0 unixMicroseconds)

/-- `FOR UPDATE SKIP LOCKED` over rows that the snapshot shows: a locked row is
passed over, and the predicate is checked again on the newest version. -/
def lockRows (key : ρ → JobId) (locked : JobId → Bool) (newest : JobId → Option ρ)
    (matching : ρ → Bool) (seen : List ρ) : List ρ :=
  (seen.filter matching).filterMap fun row =>
    if locked (key row) then none else (newest (key row)).filter matching

def lockJobs (m : Moment π) (t : Tables π) (matching : JobRow π → Bool) : List (JobRow π) :=
  lockRows JobRow.id m.lockedJobs t.job? matching m.snapshot.jobs

def lockDeadLetters (m : Moment π) (t : Tables π) (matching : DeadLetterRow π → Bool) :
    List (DeadLetterRow π) :=
  lockRows DeadLetterRow.id m.lockedDeadLetters t.deadLetter? matching m.snapshot.deadLetters

/-- With `ORDER BY` and `LIMIT`: rows are sorted as the snapshot shows them, then
locked in that order until there are enough. -/
def lockFirstJobs [LinearOrder κ] (m : Moment π) (t : Tables π) (matching : JobRow π → Bool)
    (sortKey : JobRow π → κ) (limit : Nat) : List (JobRow π) :=
  (lockRows JobRow.id m.lockedJobs t.job? matching
    (m.snapshot.jobs.insertionSort (fun a b => sortKey a ≤ sortKey b))).take limit

def lockFirstDeadLetters [LinearOrder κ] (m : Moment π) (t : Tables π)
    (matching : DeadLetterRow π → Bool) (sortKey : DeadLetterRow π → κ) (limit : Nat) :
    List (DeadLetterRow π) :=
  (lockRows DeadLetterRow.id m.lockedDeadLetters t.deadLetter? matching
    (m.snapshot.deadLetters.insertionSort (fun a b => sortKey a ≤ sortKey b))).take limit

def jobIds (rows : List (JobRow π)) : List JobId := rows.map JobRow.id

def deadLetterIds (rows : List (DeadLetterRow π)) : List JobId := rows.map DeadLetterRow.id

def updateJobs (t : Tables π) (targets : List JobId)
    (set : JobRow π → Except StatementError (JobRow π)) : Except StatementError (Tables π) := do
  t.store (← t.jobs.mapM fun row => if row.id ∈ targets then set row else .ok row) t.deadLetters

/-- The deletions and insertions of one statement, over both tables. -/
def replaceRows (t : Tables π) (deletedJobs : List JobId) (insertedJobs : List (JobRow π))
    (deletedDeadLetters : List JobId) (insertedDeadLetters : List (DeadLetterRow π)) :
    Except StatementError (Tables π) :=
  t.store (t.jobs.filter (·.id ∉ deletedJobs) ++ insertedJobs)
    (t.deadLetters.filter (·.id ∉ deletedDeadLetters) ++ insertedDeadLetters)

def deleteJobs (t : Tables π) (targets : List JobId) : Except StatementError (Tables π) :=
  replaceRows t targets [] [] []

def deleteDeadLetters (t : Tables π) (targets : List JobId) : Except StatementError (Tables π) :=
  replaceRows t [] [] targets []

def insertJobs (t : Tables π) (rows : List (JobRow π)) : Except StatementError (Tables π) :=
  replaceRows t [] rows [] []

def clearWorkerRuntime (finishedAt : Option Int) (row : JobRow π) : JobRow π :=
  { row with
    workerId := none
    claimedByWorkerAt := none
    executionStartedAt := none
    executionHeartbeatAt := none
    finishedAt }

def returnToPending (now : Int) (row : JobRow π) : JobRow π :=
  { clearWorkerRuntime none row with status := .pending, updatedAt := now }

def retryFailedJob (now runAtOrAfter : Int) (row : JobRow π) : JobRow π :=
  { clearWorkerRuntime none row with
    status := .pending, retryCount := 0, lastError := none, runAtOrAfter, updatedAt := now }

def incrementRetryCount (increment : Bool) (row : JobRow π) : Except StatementError Int :=
  sql (int4 (row.retryCount + if increment then 1 else 0))

def activeDedupeMatch (taskName : TaskName) (dedupeKey : Option DedupeKey) (row : JobRow π) : Bool :=
  row.taskName = taskName && row.dedupeKey.isSome && row.dedupeKey = dedupeKey && row.status.active

inductive TransitionOutcome
  | applied
  | notFound
  | stateMismatch
  | dedupeConflict
  | locked
  deriving DecidableEq

section Worker

def claimable (m : Moment π) (taskNames : List TaskName) (row : JobRow π) : Bool :=
  row.status = .pending && row.taskName ∈ taskNames && row.runAtOrAfter ≤ m.now &&
    globalPauseKey ∉ m.snapshot.pauses && pausedTaskKey row.taskName ∉ m.snapshot.pauses

def claimOrder (row : JobRow π) : Int ×ₗ JobId := toLex (row.runAtOrAfter, row.id)

def claimedBy (now : Int) (workerId : WorkerOwnerId) (row : JobRow π) : JobRow π :=
  { row with
    status := .running
    workerId := some workerId
    claimedByWorkerAt := some now
    executionHeartbeatAt := some now
    updatedAt := now }

def claimAvailableJobs (m : Moment π) (taskNames : List TaskName) (claimLimit : Nat)
    (workerId : WorkerOwnerId) (t : Tables π) : Except StatementError (List (JobRow π) × Tables π) := do
  if taskNames = [] then return ([], t)
  let candidates := jobIds (lockFirstJobs m t (claimable m taskNames) claimOrder claimLimit)
  let updated ← updateJobs t candidates fun row => .ok (claimedBy m.now workerId row)
  return (updated.jobs.filter (·.id ∈ candidates), updated)

def ownedRunning (id : JobId) (workerId : WorkerOwnerId) (row : JobRow π) : Bool :=
  row.id = id && row.status = .running && row.workerId = some workerId

/-- `CASE` over the rows changed, and the row as the snapshot shows it. -/
def ownedTransitionOutcome (m : Moment π) (id : JobId) (workerId : WorkerOwnerId) (changed : Bool)
    (visibleExtraMismatch : JobRow π → Bool) : TransitionOutcome :=
  let visible := m.snapshot.jobs.filter (·.id = id)
  if changed then .applied
  else if visible.any (fun row =>
      row.status ≠ .running || row.workerId ≠ some workerId ||
        visibleExtraMismatch row) then .stateMismatch
  else if visible ≠ [] then .locked
  else .notFound

def ownedRunningJobUpdate (m : Moment π) (id : JobId) (workerId : WorkerOwnerId)
    (set : JobRow π → Except StatementError (JobRow π))
    (targetExtra visibleExtraMismatch : JobRow π → Bool)
    (t : Tables π) : Except StatementError (TransitionOutcome × Tables π) := do
  let target := jobIds (lockJobs m t fun row => ownedRunning id workerId row && targetExtra row)
  let updated ← updateJobs t target set
  return (ownedTransitionOutcome m id workerId (target ≠ []) visibleExtraMismatch, updated)

def markJobStarted (m : Moment π) (id : JobId) (workerId : WorkerOwnerId) (t : Tables π) :
    Except StatementError (TransitionOutcome × Tables π) :=
  ownedRunningJobUpdate m id workerId
    (fun row => .ok { row with
      executionStartedAt := some m.now, executionHeartbeatAt := some m.now, updatedAt := m.now })
    (fun _ => true) (fun _ => false) t

def markJobCompleted (m : Moment π) (id : JobId) (workerId : WorkerOwnerId) (t : Tables π) :
    Except StatementError (TransitionOutcome × Tables π) :=
  ownedRunningJobUpdate m id workerId
    (fun row => .ok { clearWorkerRuntime (some m.now) row with
      status := .completed, updatedAt := m.now })
    (fun _ => true) (fun _ => false) t

def touchExecutionHeartbeat (m : Moment π) (id : JobId) (workerId : WorkerOwnerId) (t : Tables π) :
    Except StatementError (TransitionOutcome × Tables π) :=
  ownedRunningJobUpdate m id workerId
    (fun row => .ok { row with executionHeartbeatAt := some m.now, updatedAt := m.now })
    (fun _ => true) (fun _ => false) t

def markJobFailed (m : Moment π) (id : JobId) (workerId : WorkerOwnerId) (errorMessage : String)
    (increment : Bool) (t : Tables π) : Except StatementError (TransitionOutcome × Tables π) := do
  let lastError ← text errorMessage
  ownedRunningJobUpdate m id workerId
    (fun row => do
      return { clearWorkerRuntime (some m.now) row with
        status := .failed, lastError := some lastError,
        retryCount := ← incrementRetryCount increment row, updatedAt := m.now })
    (fun _ => true) (fun _ => false) t

/-- The time of the next run. The statement returns it as a bigint of Unix microseconds,
which the last years of the type do not fit. -/
def nextRunAt (now retryAfterMicroseconds : Int) : Except StatementError Int := do
  let runAtOrAfter ← sql (timestampPlusMicroseconds now retryAfterMicroseconds)
  let _ ← sql (unixMicroseconds runAtOrAfter)
  return runAtOrAfter

/-- The new count is a `u32` that the caller narrows to the column's type; it
replaces the stored count whatever that is. -/
def scheduleOwnedRunningJobRetry (m : Moment π) (id : JobId) (workerId : WorkerOwnerId)
    (newRetryCount : Nat) (retryAfterMicroseconds : Int) (errorMessage : String) (t : Tables π) :
    Except StatementError (TransitionOutcome × Tables π) := do
  let newRetryCount ← sql (int4 newRetryCount)
  let lastError ← text errorMessage
  ownedRunningJobUpdate m id workerId
    (fun row => do
      return { clearWorkerRuntime none row with
        status := .pending, retryCount := newRetryCount,
        runAtOrAfter := ← nextRunAt m.now retryAfterMicroseconds,
        lastError := some lastError, updatedAt := m.now })
    (fun _ => true) (fun _ => false) t

/-- The dead letter that replaces a job. -/
def deadLetterOf (now : Int) (id : JobId) (lastError : String) (retryCount : Int)
    (reason : DeadLetterReason) (row : JobRow π) : DeadLetterRow π where
  id := id
  originalJobId := row.id
  taskName := row.taskName
  payload := row.payload
  lastError := lastError
  retryCount := retryCount
  maxRetries := row.maxRetries
  timeoutNanos := row.timeoutNanos
  dedupeKey := row.dedupeKey
  reason := reason
  deadLetteredAt := now
  createdAt := now
  updatedAt := now

def moveOwnedRunningJobToDeadLetter (m : Moment π) (id : JobId) (workerId : WorkerOwnerId)
    (deadLetterId : JobId) (errorMessage : String) (increment : Bool) (reason : DeadLetterReason)
    (t : Tables π) : Except StatementError (TransitionOutcome × Tables π) := do
  let lastError ← text errorMessage
  let target := lockJobs m t (ownedRunning id workerId)
  let inserted ← target.mapM fun row => do
    return deadLetterOf m.now deadLetterId lastError (← incrementRetryCount increment row) reason row
  let updated ← replaceRows t (jobIds target) [] [] inserted
  return (ownedTransitionOutcome m id workerId (target ≠ []) (fun _ => false), updated)

def returnOwnedUnstartedRunningJobToPending (m : Moment π) (id : JobId) (workerId : WorkerOwnerId)
    (t : Tables π) : Except StatementError (TransitionOutcome × Tables π) :=
  ownedRunningJobUpdate m id workerId (fun row => .ok (returnToPending m.now row))
    (·.executionStartedAt.isNone) (·.executionStartedAt.isSome) t

def returnOwnedStartedRunningJobToPending (m : Moment π) (id : JobId) (workerId : WorkerOwnerId)
    (t : Tables π) : Except StatementError (TransitionOutcome × Tables π) :=
  ownedRunningJobUpdate m id workerId (fun row => .ok (returnToPending m.now row))
    (·.executionStartedAt.isSome) (·.executionStartedAt.isNone) t

def returnAvailableOwnedRunningJobsToPending (m : Moment π) (workerId : WorkerOwnerId)
    (executionStarted : JobRow π → Bool) (t : Tables π) : Except StatementError (Nat × Tables π) := do
  let candidates := jobIds (lockJobs m t fun row =>
    row.workerId = some workerId && row.status = .running && executionStarted row)
  return (candidates.length, ← updateJobs t candidates fun row => .ok (returnToPending m.now row))

def returnAvailableOwnedUnstartedRunningJobsToPending (m : Moment π) (workerId : WorkerOwnerId)
    (t : Tables π) : Except StatementError (Nat × Tables π) :=
  returnAvailableOwnedRunningJobsToPending m workerId (·.executionStartedAt.isNone) t

def returnAvailableOwnedStartedRunningJobsToPending (m : Moment π) (workerId : WorkerOwnerId)
    (t : Tables π) : Except StatementError (Nat × Tables π) :=
  returnAvailableOwnedRunningJobsToPending m workerId (·.executionStartedAt.isSome) t

end Worker

end Paranoid.QueueStatements
