import Mathlib.Data.List.Basic

namespace Paranoid.ProtocolOperations

/-- What is left of an operation on the stores: what it sends next, and how it goes on
when the server answers or refuses. `κ` names the protocol tables. Where an operation
returns early, on a failed check or a row that it cannot decode, it is dropped there. -/
inductive Body (κ : Type)
  | done
  | admission (protocol : κ) (next : Body κ)
  | component (protocol : κ) (next onError : Body κ)
  | other (next onError : Body κ)
  | savepoint (name : String) (next : Body κ)
  | rollbackTo (name : String) (next : Body κ)
  | release (name : String) (next : Body κ)
  | choose (first second : Body κ)

inductive KvOperation
  | setBytes
  | setBytesAndReturnDatabaseTimestamp
  | setBytesIfNotExists
  | setBytesIfNotExistsAndReturnDatabaseTimestamp
  | getBytes
  | getBytesAndReturnDatabaseTimestamp
  | getBytesMulti (keysAreEmpty : Bool)
  | setBytesMulti (entriesAreEmpty : Bool)
  | touchKey
  | setKeyTtl
  | expireKey
  | deleteKey
  | checkKeyExists
  | deleteExpiredKeysOnce
  | countLiveKeysWithPrefix
  | scanBytesWithPrefix
  | scanKeysWithPrefix
  | deleteKeysWithPrefixOnce
  | deleteNamespaceKeysWithPrefixOnce
  | acquireSlotBytes (candidatesAreEmpty : Bool)
  | mutateKeyAtomically
  | mutateLiveKeyAtomically
  | mutateLiveKeyOrInsertInitialValueAtomically

inductive LeaseOperation
  | tryClaimLease
  | tryRenewLease
  | releaseLease
  | fetchLiveLeaseHolder

inductive QueueOperation
  | enqueueJson (hasDedupeKey : Bool)
  | enqueueJsonBatch (jobsAreEmpty : Bool)
  | fetchJobById
  | fetchJobStatus
  | fetchStatusCounts
  | fetchPendingJobCount
  | fetchFailedJobCount
  | pauseQueue
  | resumeQueue
  | fetchQueueIsPaused
  | pauseTask
  | resumeTask
  | fetchTaskIsPaused
  | fetchPausedTaskNames
  | fetchOrphanedTaskNames
  | fetchWorkerPressure
  | listJobs
  | listDeadLetterJobs
  | requeueDeadLetterJob
  | deleteDeadLetterJob
  | cleanupAvailableCompletedJobsOlderThanOnce
  | cleanupAvailableFailedJobsOlderThanOnce
  | cleanupAvailableDeadLetterJobsOlderThanOnce
  | cleanupTargetOlderThanUntilEmpty
  | reclaimAvailableStaleRunningJobsOnce (movesToDeadLetter : Bool)
  | cancelPendingJob
  | retryFailedJob
  | retryAvailableFailedJobs
  | forceRequeueRunningJobById
  | moveFailedJobToDeadLetter
  | moveFailedJobsToDeadLetterBatch (jobIdsAreEmpty : Bool)
  | claimAvailableJobsForWorker (taskNamesAreEmpty : Bool)
  | markOwnedRunningJobStarted
  | markOwnedRunningJobCompleted
  | touchOwnedRunningJobExecutionHeartbeat
  | scheduleOwnedRunningJobRetry
  | markOwnedRunningJobFailed
  | moveOwnedRunningJobToDeadLetter
  | returnOwnedUnstartedRunningJobToPending
  | returnOwnedStartedRunningJobToPending
  | returnAvailableOwnedUnstartedRunningJobsToPending
  | returnAvailableOwnedStartedRunningJobsToPending
  | beginWorkerDatabaseOperation
  | countWorkerOwnedRunningJobs

/-- A script tells for each statement of a migration whether it is on a component table. -/
inductive SchemaOperation
  | migrateKvSchema (script : List Bool)
  | validateKvSchema (script : List Bool)
  | migrateFleetSchema (scripts : List (List Bool))
  | migrateQueueSchema (script : List Bool)
  | migrateSchemaLedgerSchema (statements : Nat)
  | prepareProtocol (statements : Nat)

/-- The operations of the fleet primitives send what the operations on values and on
leases that they are made of send, and nothing else. -/
inductive Operation
  | kv (operation : KvOperation)
  | lease (operation : LeaseOperation)
  | queue (operation : QueueOperation)
  | schema (operation : SchemaOperation)

section Bodies

variable {κ : Type} (protocol : κ)

def components : Nat → Body κ → Body κ
  | 0, next => next
  | n + 1, next => .component protocol (components n next) .done

def others : Nat → Body κ → Body κ
  | 0, next => next
  | n + 1, next => .other (others n next) .done

def script : List Bool → Body κ → Body κ
  | [], next => next
  | true :: statements, next => .component protocol (script statements next) .done
  | false :: statements, next => .other (script statements next) .done

/-- One admission and one statement. -/
def single : Body κ := .admission protocol (components protocol 1 .done)

def unlessEmpty (isEmpty : Bool) (body : Body κ) : Body κ := if isEmpty then .done else body

/-- The row is locked at the first attempt that returns one. Then it is updated, deleted
or left alone. -/
def lockKeyForAtomicMutation : Nat → Body κ
  | 0 => .done
  | attempts + 1 =>
      .component protocol
        (.choose (.choose (single protocol) .done) (lockKeyForAtomicMutation attempts)) .done

def KvOperation.body : KvOperation → Body κ
  | .setBytes | .setBytesAndReturnDatabaseTimestamp | .setBytesIfNotExists
  | .setBytesIfNotExistsAndReturnDatabaseTimestamp | .getBytes | .getBytesAndReturnDatabaseTimestamp
  | .touchKey | .setKeyTtl | .expireKey | .deleteKey | .checkKeyExists | .deleteExpiredKeysOnce
  | .countLiveKeysWithPrefix | .scanBytesWithPrefix | .scanKeysWithPrefix | .deleteKeysWithPrefixOnce
  | .deleteNamespaceKeysWithPrefixOnce => single protocol
  | .getBytesMulti isEmpty | .setBytesMulti isEmpty => unlessEmpty isEmpty (single protocol)
  | .acquireSlotBytes isEmpty => unlessEmpty isEmpty (.admission protocol (components protocol 2 .done))
  | .mutateKeyAtomically | .mutateLiveKeyAtomically | .mutateLiveKeyOrInsertInitialValueAtomically =>
      .admission protocol (lockKeyForAtomicMutation protocol 8)

def LeaseOperation.body : LeaseOperation → Body κ
  | .tryClaimLease | .tryRenewLease | .releaseLease | .fetchLiveLeaseHolder => single protocol

def maxQueueDedupeInsertAttempts : Nat := 5

def dedupeEnqueue : Nat → Body κ
  | 0 => .done
  | attempts + 1 => .component protocol (.choose .done (dedupeEnqueue attempts)) .done

def retrySavepoint : String := "__paranoid_queue_retry_available_failed_jobs"

def retryAttempts : Nat → Body κ
  | 0 => .done
  | attempts + 1 =>
      .savepoint retrySavepoint (.component protocol
        (.release retrySavepoint .done)
        (.rollbackTo retrySavepoint (.release retrySavepoint (.choose (retryAttempts attempts) .done))))

def QueueOperation.body : QueueOperation → Body κ
  | .enqueueJson hasDedupeKey =>
      .admission protocol
        (if hasDedupeKey then .admission protocol (dedupeEnqueue protocol maxQueueDedupeInsertAttempts)
        else components protocol 1 .done)
  | .fetchJobById | .fetchJobStatus | .fetchStatusCounts | .fetchPendingJobCount | .fetchFailedJobCount
  | .pauseQueue | .resumeQueue | .fetchQueueIsPaused | .pauseTask | .resumeTask | .fetchTaskIsPaused
  | .fetchPausedTaskNames | .fetchOrphanedTaskNames | .listJobs | .listDeadLetterJobs | .requeueDeadLetterJob
  | .deleteDeadLetterJob | .cleanupAvailableCompletedJobsOlderThanOnce | .cleanupAvailableFailedJobsOlderThanOnce
  | .cleanupAvailableDeadLetterJobsOlderThanOnce | .cleanupTargetOlderThanUntilEmpty | .cancelPendingJob
  | .retryFailedJob | .forceRequeueRunningJobById | .moveFailedJobToDeadLetter | .markOwnedRunningJobStarted
  | .markOwnedRunningJobCompleted | .touchOwnedRunningJobExecutionHeartbeat | .scheduleOwnedRunningJobRetry
  | .markOwnedRunningJobFailed | .moveOwnedRunningJobToDeadLetter | .returnOwnedUnstartedRunningJobToPending
  | .returnOwnedStartedRunningJobToPending | .returnAvailableOwnedUnstartedRunningJobsToPending
  | .returnAvailableOwnedStartedRunningJobsToPending | .countWorkerOwnedRunningJobs => single protocol
  | .enqueueJsonBatch isEmpty | .moveFailedJobsToDeadLetterBatch isEmpty | .claimAvailableJobsForWorker isEmpty =>
      unlessEmpty isEmpty (single protocol)
  | .fetchWorkerPressure => .admission protocol (components protocol 2 .done)
  | .reclaimAvailableStaleRunningJobsOnce movesToDeadLetter =>
      .admission protocol (components protocol 2
        (if movesToDeadLetter then .choose (components protocol 2 .done) (components protocol 1 .done)
          else components protocol 1 .done))
  | .retryAvailableFailedJobs => .admission protocol (retryAttempts protocol 5)
  | .beginWorkerDatabaseOperation => others 1 .done

def schemaLedgerCreateSavepoint : String := "__paranoid_schema_ledger_create"

/-- Every part of the fleet migration admits again. -/
def admittedScripts : List (List Bool) → Body κ
  | [] => .done
  | statements :: scripts => .admission protocol (script protocol statements (admittedScripts scripts))

def SchemaOperation.body : SchemaOperation → Body κ
  | .migrateKvSchema statements | .validateKvSchema statements | .migrateQueueSchema statements =>
      .admission protocol (script protocol statements .done)
  | .migrateFleetSchema scripts => admittedScripts protocol scripts
  | .migrateSchemaLedgerSchema statements =>
      .savepoint schemaLedgerCreateSavepoint (.other
        (.release schemaLedgerCreateSavepoint (others statements .done))
        (.rollbackTo schemaLedgerCreateSavepoint
          (.release schemaLedgerCreateSavepoint (others statements .done))))
  | .prepareProtocol statements => .admission protocol (others statements .done)

def Operation.body : Operation → Body κ
  | .kv operation => operation.body protocol
  | .lease operation => operation.body protocol
  | .queue operation => operation.body protocol
  | .schema operation => operation.body protocol

end Bodies

section Guards

variable {κ : Type} {protocol : κ}

/-- Every statement on a component table comes after an admission, no admission is made
inside a savepoint of the operation that was not made before it, and the operation
returns only to savepoints of its own. -/
def Guarded : List String → List κ → Body κ → Prop
  | _, _, .done => True
  | savepoints, known, .admission protocol next =>
      (savepoints = [] ∨ protocol ∈ known) ∧ Guarded savepoints (protocol :: known) next
  | savepoints, known, .component protocol next onError =>
      protocol ∈ known ∧ Guarded savepoints known next ∧ Guarded savepoints known onError
  | savepoints, known, .other next onError =>
      Guarded savepoints known next ∧ Guarded savepoints known onError
  | savepoints, known, .savepoint name next => Guarded (name :: savepoints) known next
  | savepoints, known, .rollbackTo name next =>
      savepoints.head? = some name ∧ Guarded savepoints known next
  | savepoints, known, .release name next =>
      savepoints.head? = some name ∧ Guarded savepoints.tail known next
  | savepoints, known, .choose first second =>
      Guarded savepoints known first ∧ Guarded savepoints known second

variable {savepoints : List String} {known : List κ} {next : Body κ}

theorem guarded_done : Guarded savepoints known .done := trivial

theorem guarded_components (hprotocol : protocol ∈ known)
    (hnext : Guarded savepoints known next) (n : Nat) :
    Guarded savepoints known (components protocol n next) := by
  induction n with
  | zero => exact hnext
  | succ n ih => exact ⟨hprotocol, ih, guarded_done⟩

theorem guarded_others (hnext : Guarded savepoints known next) (n : Nat) :
    Guarded savepoints known (others n next) := by
  induction n with
  | zero => exact hnext
  | succ n ih => exact ⟨ih, guarded_done⟩

theorem guarded_script (hprotocol : protocol ∈ known)
    (hnext : Guarded savepoints known next) (statements : List Bool) :
    Guarded savepoints known (script protocol statements next) := by
  induction statements with
  | nil => exact hnext
  | cons isComponent statements ih =>
      cases isComponent with
      | true => exact ⟨hprotocol, ih, guarded_done⟩
      | false => exact ⟨ih, guarded_done⟩

theorem guarded_single : Guarded [] known (single protocol) :=
  ⟨.inl rfl, guarded_components List.mem_cons_self guarded_done 1⟩

theorem guarded_unlessEmpty {body : Body κ} (h : Guarded [] [] body) (isEmpty : Bool) :
    Guarded [] [] (unlessEmpty isEmpty body) := by
  cases isEmpty with
  | true => exact guarded_done
  | false => exact h

theorem guarded_lockKey (hprotocol : protocol ∈ known) (attempts : Nat) :
    Guarded [] known (lockKeyForAtomicMutation protocol attempts) := by
  induction attempts with
  | zero => exact guarded_done
  | succ attempts ih => exact ⟨hprotocol, ⟨⟨guarded_single, guarded_done⟩, ih⟩, guarded_done⟩

theorem guarded_dedupeEnqueue (hprotocol : protocol ∈ known) (attempts : Nat) :
    Guarded [] known (dedupeEnqueue protocol attempts) := by
  induction attempts with
  | zero => exact guarded_done
  | succ attempts ih => exact ⟨hprotocol, ⟨guarded_done, ih⟩, guarded_done⟩

theorem guarded_retryAttempts (hprotocol : protocol ∈ known) (attempts : Nat) :
    Guarded [] known (retryAttempts protocol attempts) := by
  induction attempts with
  | zero => exact guarded_done
  | succ attempts ih => exact ⟨hprotocol, ⟨rfl, guarded_done⟩, rfl, rfl, ih, guarded_done⟩

theorem guarded_admittedScripts (scripts : List (List Bool)) :
    Guarded [] known (admittedScripts protocol scripts) := by
  induction scripts generalizing known with
  | nil => exact guarded_done
  | cons statements scripts ih => exact ⟨.inl rfl, guarded_script List.mem_cons_self ih statements⟩

theorem guarded_kv (operation : KvOperation) : Guarded [] [] (operation.body protocol) := by
  cases operation with
  | getBytesMulti isEmpty | setBytesMulti isEmpty => exact guarded_unlessEmpty guarded_single isEmpty
  | acquireSlotBytes isEmpty =>
      have hbody : Guarded [] [] (.admission protocol (components protocol 2 .done)) :=
        ⟨.inl rfl, guarded_components List.mem_cons_self guarded_done 2⟩
      exact guarded_unlessEmpty hbody isEmpty
  | mutateKeyAtomically | mutateLiveKeyAtomically | mutateLiveKeyOrInsertInitialValueAtomically =>
      exact ⟨.inl rfl, guarded_lockKey List.mem_cons_self 8⟩
  | _ => exact guarded_single

theorem guarded_lease (operation : LeaseOperation) : Guarded [] [] (operation.body protocol) := by
  cases operation <;> exact guarded_single

theorem guarded_queue (operation : QueueOperation) : Guarded [] [] (operation.body protocol) := by
  have hknown : protocol ∈ [protocol] := List.mem_cons_self
  cases operation with
  | enqueueJson hasDedupeKey =>
      refine ⟨.inl rfl, ?_⟩
      cases hasDedupeKey with
      | true => exact ⟨.inl rfl, guarded_dedupeEnqueue List.mem_cons_self _⟩
      | false => exact guarded_components hknown guarded_done 1
  | enqueueJsonBatch isEmpty | moveFailedJobsToDeadLetterBatch isEmpty | claimAvailableJobsForWorker isEmpty =>
      exact guarded_unlessEmpty guarded_single isEmpty
  | fetchWorkerPressure => exact ⟨.inl rfl, guarded_components hknown guarded_done 2⟩
  | reclaimAvailableStaleRunningJobsOnce movesToDeadLetter =>
      refine ⟨.inl rfl, guarded_components hknown ?_ 2⟩
      cases movesToDeadLetter with
      | true =>
          exact ⟨guarded_components hknown guarded_done 2, guarded_components hknown guarded_done 1⟩
      | false => exact guarded_components hknown guarded_done 1
  | retryAvailableFailedJobs => exact ⟨.inl rfl, guarded_retryAttempts hknown 5⟩
  | beginWorkerDatabaseOperation => exact guarded_others guarded_done 1
  | _ => exact guarded_single

theorem guarded_schema (operation : SchemaOperation) : Guarded [] [] (operation.body protocol) := by
  cases operation with
  | migrateKvSchema statements | validateKvSchema statements | migrateQueueSchema statements =>
      exact ⟨.inl rfl, guarded_script List.mem_cons_self guarded_done statements⟩
  | migrateFleetSchema scripts => exact guarded_admittedScripts scripts
  | migrateSchemaLedgerSchema statements =>
      exact ⟨⟨rfl, guarded_others guarded_done statements⟩,
        rfl, rfl, guarded_others guarded_done statements⟩
  | prepareProtocol statements => exact ⟨.inl rfl, guarded_others guarded_done statements⟩

theorem guarded_body (protocol : κ) (operation : Operation) :
    Guarded [] [] (operation.body protocol) := by
  cases operation with
  | kv operation => exact guarded_kv operation
  | lease operation => exact guarded_lease operation
  | queue operation => exact guarded_queue operation
  | schema operation => exact guarded_schema operation

end Guards

end Paranoid.ProtocolOperations
