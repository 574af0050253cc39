import Paranoid.QueueRows

namespace Paranoid.QueueOutcomes

open List Postgres QueueModel QueueStatements QueueOperations QueueEffects QueueChanges QueueSoundness QueueRows

variable {π : Type}

section Calls

inductive QueueError
  | jobNotFound
  | jobNotPending
  | jobNotRunning
  | jobNotFailed
  | jobLockedByConcurrentTransaction
  | deadLetterJobNotFound
  | deadLetterJobLockedByConcurrentTransaction
  | retryConflictWithActiveDedupeJob
  | unexpectedOutcome (operation outcome : String)
  | database (error : StatementError)
  deriving DecidableEq

def outcomeText : TransitionOutcome → String
  | .applied => "applied"
  | .notFound => "not_found"
  | .stateMismatch => "state_mismatch"
  | .dedupeConflict => "dedupe_conflict"
  | .locked => "locked"

def ownedRunningJobUpdateResultFromOutcome (operation : String) (stateMismatchError : QueueError) :
    TransitionOutcome → Except QueueError Unit
  | .applied => .ok ()
  | .locked => .error .jobLockedByConcurrentTransaction
  | .notFound | .stateMismatch => .error stateMismatchError
  | .dedupeConflict => .error (.unexpectedOutcome operation (outcomeText .dedupeConflict))

def scheduleOwnedRunningJobRetryResultFromOutcome (outcome : TransitionOutcome)
    (nextRunAt : Option Int) :
    Except QueueError Int :=
  match outcome with
  | .applied =>
      match nextRunAt with
      | some runAt => .ok runAt
      | none => .error (.unexpectedOutcome
          "schedule owned running job retry" "applied without next run time")
  | .locked => .error .jobLockedByConcurrentTransaction
  | .notFound | .stateMismatch => .error .jobNotRunning
  | .dedupeConflict =>
      .error (.unexpectedOutcome "schedule owned running job retry" (outcomeText .dedupeConflict))

def moveOwnedRunningJobToDeadLetterResultFromOutcome (outcome : TransitionOutcome)
    (insertedId : Option JobId) :
    Except QueueError JobId :=
  match outcome with
  | .applied =>
      match insertedId with
      | some id => .ok id
      | none =>
          .error (.unexpectedOutcome "move owned running job to dead letter"
            "applied without inserted dead-letter id")
  | .locked => .error .jobLockedByConcurrentTransaction
  | .notFound | .stateMismatch => .error .jobNotRunning
  | .dedupeConflict =>
      .error (.unexpectedOutcome "move owned running job to dead letter" (outcomeText .dedupeConflict))

def queueJobStateTransitionResultFromOutcome (operation : String) (stateMismatchError : QueueError) :
    TransitionOutcome → Except QueueError Unit
  | .applied => .ok ()
  | .notFound => .error .jobNotFound
  | .locked => .error .jobLockedByConcurrentTransaction
  | .stateMismatch => .error stateMismatchError
  | .dedupeConflict => .error (.unexpectedOutcome operation (outcomeText .dedupeConflict))

def queueRetryFailedJobResultFromOutcome : TransitionOutcome → Except QueueError Unit
  | .applied => .ok ()
  | .notFound => .error .jobNotFound
  | .locked => .error .jobLockedByConcurrentTransaction
  | .stateMismatch => .error .jobNotFailed
  | .dedupeConflict => .error .retryConflictWithActiveDedupeJob

def moveFailedJobToDeadLetterResult : MoveOutcome → Except QueueError JobId
  | .moved deadLetterId => .ok deadLetterId
  | .jobNotFound => .error .jobNotFound
  | .jobLocked => .error .jobLockedByConcurrentTransaction
  | .jobNotFailed => .error .jobNotFailed
  | .unexpected =>
      .error (.unexpectedOutcome "move failed job to dead letter"
        "failed job matched but no dead-letter row was inserted")

def requeueDeadLetterJobResultFromRowState (reply : RequeueReply) : Except QueueError JobId :=
  match reply.insertedId with
  | some id =>
      if !reply.deletedSource then
        .error (.unexpectedOutcome "requeue dead-letter job"
          "inserted replacement job without deleting dead-letter source")
      else .ok id
  | none =>
      if !reply.visibleExists then .error .deadLetterJobNotFound
      else if !reply.sourceExists then .error .deadLetterJobLockedByConcurrentTransaction
      else if reply.dedupeConflictExists then .error .retryConflictWithActiveDedupeJob
      else .error (.unexpectedOutcome "requeue dead-letter job"
        "dead-letter source matched but no replacement job was inserted")

def deleteDeadLetterJobResultFromOutcome : TransitionOutcome → Except QueueError Unit
  | .applied => .ok ()
  | .notFound => .error .deadLetterJobNotFound
  | .locked => .error .deadLetterJobLockedByConcurrentTransaction
  | outcome => .error (.unexpectedOutcome "delete dead-letter job" (outcomeText outcome))

/-- A violation of the index on active dedupe keys is reported as a conflict. -/
def mapRetryQueryError : StatementError → QueueError
  | .violation .dedupeActive => .retryConflictWithActiveDedupeJob
  | e => .database e

inductive Transition
  | markOwnedRunningJobCompleted (id : JobId) (workerId : WorkerOwnerId)
  | markOwnedRunningJobFailed (id : JobId) (workerId : WorkerOwnerId) (errorMessage : String) (increment : Bool)
  | scheduleOwnedRunningJobRetry (id : JobId) (workerId : WorkerOwnerId) (newRetryCount : Nat)
      (retryAfterMicroseconds : Int) (errorMessage : String)
  | moveOwnedRunningJobToDeadLetter (id : JobId) (workerId : WorkerOwnerId) (deadLetterId : JobId)
      (errorMessage : String) (increment : Bool) (reason : DeadLetterReason)
  | returnOwnedUnstartedRunningJobToPending (id : JobId) (workerId : WorkerOwnerId)
  | returnOwnedStartedRunningJobToPending (id : JobId) (workerId : WorkerOwnerId)
  | cancelPendingJob (id : JobId)
  | retryFailedJob (id : JobId) (runAtOrAfterUnixMicroseconds : Option Int)
  | forceRequeueRunningJobById (id : JobId)
  | moveFailedJobToDeadLetter (id deadLetterId : JobId) (reason : DeadLetterReason)
  | requeueDeadLetterJob (deadLetterId newJobId : JobId) (runAtOrAfterUnixMicroseconds : Option Int)
  | deleteDeadLetterJob (deadLetterId : JobId)

inductive Reply
  | done
  | runAt (unixMicroseconds : Int)
  | jobId (id : JobId)
  deriving DecidableEq

/-- The caller's result and the tables afterwards. A failed statement leaves them alone. -/
def execute {α β : Type} (t : Tables π) (statement : Except StatementError (α × Tables π))
    (mapError : StatementError → QueueError)
    (result : α → Tables π → Except QueueError β) (reply : β → Reply) :
    Except QueueError Reply × Tables π :=
  match statement with
  | .error e => (.error (mapError e), t)
  | .ok (outcome, t') => ((result outcome t').map reply, t')

def done : Unit → Reply := fun _ => .done

def call (m : Moment π) (transition : Transition) (t : Tables π) : Except QueueError Reply × Tables π :=
  match transition with
  | .markOwnedRunningJobCompleted id workerId =>
      execute t (markJobCompleted m id workerId t) .database
        (fun outcome _ => ownedRunningJobUpdateResultFromOutcome
          "mark owned running job completed" .jobNotRunning outcome)
        done
  | .markOwnedRunningJobFailed id workerId errorMessage increment =>
      execute t (markJobFailed m id workerId errorMessage increment t) .database
        (fun outcome _ => ownedRunningJobUpdateResultFromOutcome
          "mark owned running job failed" .jobNotRunning outcome)
        done
  | .scheduleOwnedRunningJobRetry id workerId newRetryCount retryAfter errorMessage =>
      execute t (scheduleOwnedRunningJobRetry m id workerId
        newRetryCount retryAfter errorMessage t) .database
        -- the row as the update leaves it
        (fun outcome t' => scheduleOwnedRunningJobRetryResultFromOutcome
          outcome ((t'.job? id).map (·.runAtOrAfter)))
        .runAt
  | .moveOwnedRunningJobToDeadLetter id workerId deadLetterId errorMessage increment reason =>
      execute t (moveOwnedRunningJobToDeadLetter m id workerId
        deadLetterId errorMessage increment reason t) .database
        (fun outcome t' => moveOwnedRunningJobToDeadLetterResultFromOutcome outcome
          ((t'.deadLetter? deadLetterId).map (·.id)))
        .jobId
  | .returnOwnedUnstartedRunningJobToPending id workerId =>
      execute t (returnOwnedUnstartedRunningJobToPending m id workerId t) .database
        (fun outcome _ => ownedRunningJobUpdateResultFromOutcome
          "return owned unstarted running job to pending"
          .jobNotRunning outcome) done
  | .returnOwnedStartedRunningJobToPending id workerId =>
      execute t (returnOwnedStartedRunningJobToPending m id workerId t) .database
        (fun outcome _ => ownedRunningJobUpdateResultFromOutcome
          "return owned started running job to pending"
          .jobNotRunning outcome) done
  | .cancelPendingJob id =>
      execute t (cancelPendingJob m id t) .database
        (fun outcome _ => queueJobStateTransitionResultFromOutcome
          "cancel pending job" .jobNotPending outcome) done
  | .retryFailedJob id runAt =>
      execute t (retryFailedJobById m id runAt t) mapRetryQueryError
        (fun outcome _ => queueRetryFailedJobResultFromOutcome outcome) done
  | .forceRequeueRunningJobById id =>
      execute t (forceRequeueRunningJobById m id t) .database
        (fun outcome _ => queueJobStateTransitionResultFromOutcome
          "force requeue running job" .jobNotRunning outcome)
        done
  | .moveFailedJobToDeadLetter id deadLetterId reason =>
      execute t (moveFailedJobToDeadLetter m id deadLetterId reason t) .database
        (fun outcome _ => moveFailedJobToDeadLetterResult outcome) .jobId
  | .requeueDeadLetterJob deadLetterId newJobId runAt =>
      execute t (requeueDeadLetterJob m deadLetterId newJobId runAt t) mapRetryQueryError
        (fun reply _ => requeueDeadLetterJobResultFromRowState reply) .jobId
  | .deleteDeadLetterJob deadLetterId =>
      execute t (deleteDeadLetterJob m deadLetterId t) .database
        (fun outcome _ => deleteDeadLetterJobResultFromOutcome outcome) done

end Calls

section Specification

variable {ρ : Type}

/-- What a transition makes of a job and of a dead letter: the row that the id has
afterwards, where `none` stands for a row that is removed. -/
structure Effect (π : Type) where
  job : Option (JobId × Option (JobRow π)) := none
  deadLetter : Option (JobId × Option (DeadLetterRow π)) := none
  reply : Reply := .done

def rowsAfter (rows : JobId → Option ρ) : Option (JobId × Option ρ) → JobId → Option ρ
  | none => rows
  | some (id, row) => Function.update rows id row

/-- The effect is all that happened. -/
structure Takes (t t' : Tables π) (effect : Effect π) : Prop where
  jobs : t'.job? = rowsAfter t.job? effect.job
  deadLetters : t'.deadLetter? = rowsAfter t.deadLetter? effect.deadLetter
  pauses : t'.pauses = t.pauses

def ownedJob (t : Tables π) (id : JobId) (workerId : WorkerOwnerId) : Option (JobRow π) :=
  (t.job? id).filter (ownedRunning id workerId)

def jobIn (t : Tables π) (id : JobId) (status : JobStatus) : Option (JobRow π) :=
  (t.job? id).filter (·.status = status)

/-- What each transition is for, told by the newest rows alone. -/
def specified (m : Moment π) (t : Tables π) : Transition → Option (Effect π)
  | .markOwnedRunningJobCompleted id workerId => do
      let row ← ownedJob t id workerId
      return { job := some (id, some { clearWorkerRuntime (some m.now) row with
        status := .completed, updatedAt := m.now }) }
  | .markOwnedRunningJobFailed id workerId errorMessage increment => do
      let row ← ownedJob t id workerId
      return { job := some (id, some { clearWorkerRuntime (some m.now) row with
        status := .failed, lastError := some errorMessage,
        retryCount := row.retryCount + (if increment then 1 else 0), updatedAt := m.now }) }
  | .scheduleOwnedRunningJobRetry id workerId newRetryCount retryAfter errorMessage => do
      let row ← ownedJob t id workerId
      let runAt ← (timestampPlusMicroseconds m.now retryAfter).toOption
      return { job := some (id, some { clearWorkerRuntime none row with
        status := .pending, retryCount := newRetryCount, runAtOrAfter := runAt,
        lastError := some errorMessage, updatedAt := m.now }), reply := .runAt runAt }
  | .moveOwnedRunningJobToDeadLetter id workerId deadLetterId errorMessage increment reason => do
      let row ← ownedJob t id workerId
      return { job := some (id, none)
               deadLetter := some (deadLetterId, some (deadLetterOf m.now deadLetterId errorMessage
                 (row.retryCount + (if increment then 1 else 0)) reason row))
               reply := .jobId deadLetterId }
  | .returnOwnedUnstartedRunningJobToPending id workerId => do
      let row ← (ownedJob t id workerId).filter (·.executionStartedAt.isNone)
      return { job := some (id, some (returnToPending m.now row)) }
  | .returnOwnedStartedRunningJobToPending id workerId => do
      let row ← (ownedJob t id workerId).filter (·.executionStartedAt.isSome)
      return { job := some (id, some (returnToPending m.now row)) }
  | .cancelPendingJob id => do
      let _ ← jobIn t id .pending
      return { job := some (id, none) }
  | .retryFailedJob id runAtOrAfter => do
      let row ← jobIn t id .failed
      let runAt ← (runAtOrNow m.now runAtOrAfter).toOption
      return { job := some (id, some (retryFailedJob m.now runAt row)) }
  | .forceRequeueRunningJobById id => do
      let row ← jobIn t id .running
      return { job := some (id, some (returnToPending m.now row)) }
  | .moveFailedJobToDeadLetter id deadLetterId reason => do
      let row ← jobIn t id .failed
      return { job := some (id, none)
               deadLetter := some (deadLetterId, some (failedDeadLetter m.now deadLetterId reason row))
               reply := .jobId deadLetterId }
  | .requeueDeadLetterJob deadLetterId newJobId runAtOrAfter => do
      let source ← t.deadLetter? deadLetterId
      let runAt ← (runAtOrNow m.now runAtOrAfter).toOption
      return { job := some (newJobId, some (requeuedJob m.now runAt newJobId source))
               deadLetter := some (deadLetterId, none)
               reply := .jobId newJobId }
  | .deleteDeadLetterJob deadLetterId => do
      let _ ← t.deadLetter? deadLetterId
      return { deadLetter := some (deadLetterId, none) }

def Transition.target : Transition → JobId
  | .markOwnedRunningJobCompleted id _ | .markOwnedRunningJobFailed id _ _ _
  | .scheduleOwnedRunningJobRetry id _ _ _ _ | .moveOwnedRunningJobToDeadLetter id _ _ _ _ _
  | .returnOwnedUnstartedRunningJobToPending id _ | .returnOwnedStartedRunningJobToPending id _
  | .cancelPendingJob id | .retryFailedJob id _ | .forceRequeueRunningJobById id
  | .moveFailedJobToDeadLetter id _ _ | .requeueDeadLetterJob id _ _ | .deleteDeadLetterJob id => id

/-- What a transition of a worker demands of its job; the operator's demand a status. -/
def Transition.owned? : Transition → Option (JobRow π → Bool)
  | .markOwnedRunningJobCompleted id workerId | .markOwnedRunningJobFailed id workerId _ _
  | .scheduleOwnedRunningJobRetry id workerId _ _ _ | .moveOwnedRunningJobToDeadLetter id workerId _ _ _ _ =>
      some (ownedRunning id workerId)
  | .returnOwnedUnstartedRunningJobToPending id workerId =>
      some fun row => ownedRunning id workerId row && row.executionStartedAt.isNone
  | .returnOwnedStartedRunningJobToPending id workerId =>
      some fun row => ownedRunning id workerId row && row.executionStartedAt.isSome
  | _ => none

/-- The job as the snapshot or the newest rows have it is in another status. -/
def OtherStatus (m : Moment π) (t : Tables π) (id : JobId) (status : JobStatus) : Prop :=
  ∃ row, (m.snapshot.job? id = some row ∨ t.job? id = some row) ∧ row.status ≠ status

/-- A job of the snapshot or of the newest rows holds the dedupe key. -/
def ActiveDuplicate (m : Moment π) (t : Tables π) (taskName : TaskName) (dedupeKey : Option DedupeKey)
    (other : JobRow π → Prop) : Prop :=
  ∃ active, (active ∈ m.snapshot.jobs ∨ active ∈ t.jobs) ∧
    activeDedupeMatch taskName dedupeKey active ∧ other active

/-- What the reason of a refusal tells of the rows. -/
def Truthful (m : Moment π) (t : Tables π) (transition : Transition) : QueueError → Prop
  | .jobNotFound => m.snapshot.job? transition.target = none
  | .jobNotPending => OtherStatus m t transition.target .pending
  | .jobNotFailed => OtherStatus m t transition.target .failed
  | .jobNotRunning =>
      match transition.owned? with
      | some owned => ∀ row, m.snapshot.job? transition.target = some row → owned row = false
      | none => OtherStatus m t transition.target .running
  | .jobLockedByConcurrentTransaction =>
      m.lockedJobs transition.target = true ∨
        t.job? transition.target ≠ m.snapshot.job? transition.target
  | .deadLetterJobNotFound => m.snapshot.deadLetter? transition.target = none
  | .deadLetterJobLockedByConcurrentTransaction =>
      m.lockedDeadLetters transition.target = true ∨
        t.deadLetter? transition.target ≠ m.snapshot.deadLetter? transition.target
  | .retryConflictWithActiveDedupeJob =>
      match transition with
      | .retryFailedJob id _ => ∃ row, t.job? id = some row ∧
          ActiveDuplicate m t row.taskName row.dedupeKey (·.id ≠ id)
      | .requeueDeadLetterJob id _ _ => ∃ source, t.deadLetter? id = some source ∧
          ActiveDuplicate m t source.taskName source.dedupeKey fun _ => True
      | _ => False
  -- a duplicate that the snapshot does not show
  | .unexpectedOutcome _ _ =>
      ∃ source, t.deadLetter? transition.target = some source ∧
        ActiveDuplicate m t source.taskName source.dedupeKey (· ∈ t.jobs)
  | .database _ => True

/-- The call succeeds with the effect that is specified, or it changes nothing and
gives a reason that is true. -/
def Settled (m : Moment π) (t : Tables π) (transition : Transition)
    (outcome : Except QueueError Reply × Tables π) :
    Prop :=
  (∃ effect, specified m t transition = some effect ∧
    outcome.1 = .ok effect.reply ∧ Takes t outcome.2 effect) ∨
    ∃ e, outcome.1 = .error e ∧ outcome.2 = t ∧ Truthful m t transition e

end Specification

section Lookup

variable {ρ : Type} {key : ρ → JobId} {rows : List ρ} {m : Moment π} {t t' : Tables π} {id : JobId}

theorem filter_key_eq (hrows : (rows.map key).Nodup) (id : JobId) :
    rows.filter (fun row => decide (key row = id)) =
      (rows.find? fun row => decide (key row = id)).toList := by
  have hkey : ∀ row ∈ rows.filter (fun row => decide (key row = id)), row ∈ rows ∧ key row = id := by
    intro row hrow
    simpa using mem_filter.1 hrow
  have hnodup := (filter_sublist (p := fun row => decide (key row = id)) (l := rows)).map
    key |>.nodup hrows
  rcases eq_nil_or_singleton_of_key hnodup fun row hrow => (hkey row hrow).2 with hnil | ⟨row, hone⟩
  · have hnone : rows.find? (fun row => decide (key row = id)) = none :=
      find?_key_eq_none.2 fun row hrow hid => by
        have hmem : row ∈ rows.filter (fun row => decide (key row = id)) :=
          mem_filter.2 ⟨hrow, by simp [hid]⟩
        rw [hnil] at hmem
        cases hmem
    rw [hnil, hnone]
    rfl
  · have hsome : rows.find? (fun row => decide (key row = id)) = some row :=
      (find?_key_eq_some hrows).2 (hkey row (by rw [hone]; exact mem_singleton_self row))
    rw [hone, hsome]
    rfl

theorem visible_jobs (t : Tables π) (id : JobId) :
    t.jobs.filter (fun row => decide (row.id = id)) = (t.job? id).toList :=
  filter_key_eq (t.constraints .primaryKey) id

theorem visible_deadLetters (t : Tables π) (id : JobId) :
    t.deadLetters.filter (fun row => decide (row.id = id)) = (t.deadLetter? id).toList :=
  filter_key_eq (t.constraints .deadLetterPrimaryKey) id

/-- A row that is seen and not locked is locked by another transaction or was changed. -/
theorem lockRows_eq_nil {locked : JobId → Bool}
    {newest : JobId → Option ρ} {matching : ρ → Bool} {seen : ρ}
    (h : lockRows key locked newest matching rows = []) (hseen : seen ∈ rows) (hmatch : matching seen) :
    locked (key seen) = true ∨ newest (key seen) ≠ some seen := by
  by_contra hfree
  simp only [not_or, Bool.not_eq_true, ne_eq, not_not] at hfree
  have hmem := mem_lockRows.2 ⟨hmatch, seen, hseen, hmatch, hfree.1, hfree.2⟩
  rw [h] at hmem
  cases hmem

theorem lockJobs_eq_nil {matching : JobRow π → Bool} {seen : JobRow π} (h : lockJobs m t matching = [])
    (hseen : m.snapshot.job? id = some seen) (hmatch : matching seen) :
    m.lockedJobs id = true ∨ t.job? id ≠ m.snapshot.job? id := by
  obtain ⟨hmem, rfl⟩ := Tables.job?_eq_some.1 hseen
  rw [hseen]
  exact lockRows_eq_nil h hmem hmatch

theorem lockDeadLetters_eq_nil {seen : DeadLetterRow π} (h : lockDeadLetters m t (·.id = id) = [])
    (hseen : m.snapshot.deadLetter? id = some seen) :
    m.lockedDeadLetters id = true ∨ t.deadLetter? id ≠ m.snapshot.deadLetter? id := by
  obtain ⟨hmem, rfl⟩ := Tables.deadLetter?_eq_some.1 hseen
  rw [hseen]
  exact lockRows_eq_nil h hmem (by simp)

/-- A lock on one dead letter finds that row or nothing. -/
theorem lockDeadLetters_id (m : Moment π) (t : Tables π) (id : JobId) :
    lockDeadLetters m t (·.id = id) = [] ∨
      ∃ row, lockDeadLetters m t (·.id = id) = [row] ∧ t.deadLetter? id = some row := by
  have hspec : ∀ row ∈ lockDeadLetters m t (·.id = id), row ∈ t.deadLetters ∧ row.id = id := by
    intro row hrow
    simpa using mem_lockDeadLetters hrow
  rcases eq_nil_or_singleton_of_key (lockDeadLetters_nodup m t _) fun row hrow =>
    (hspec row hrow).2 with
    hnil | ⟨row, hone⟩
  · exact .inl hnil
  · exact .inr ⟨row, hone,
      Tables.deadLetter?_eq_some.2 (hspec row (by rw [hone]; exact mem_singleton_self row))⟩

/-- The row of an id after a deletion and an insertion. -/
theorem find?_replace {newest : List ρ} {deleted : List JobId} {inserted : List ρ}
    (h : newest = rows.filter (fun row => key row ∉ deleted) ++ inserted) (id : JobId) :
    newest.find? (fun row => decide (key row = id)) =
      (if id ∈ deleted then none else rows.find? fun row => decide (key row = id)).or
        (inserted.find? fun row => decide (key row = id)) := by
  rw [h, find?_append, find?_filter]
  congr 1
  by_cases hid : id ∈ deleted
  · rw [if_pos hid, find?_eq_none]
    intro row _
    by_cases hrow : key row = id <;> simp [hrow, hid]
  · rw [if_neg hid]
    congr 1
    funext row
    by_cases hrow : key row = id <;> simp [hrow, hid]

theorem find?_of_delete {newest : List ρ} (h : newest = rows.filter fun row => key row ∉ [id]) :
    (fun other => newest.find? fun row => decide (key row = other)) =
      Function.update (fun other => rows.find? fun row => decide (key row = other)) id none := by
  funext other
  rw [← append_nil (rows.filter fun row => decide (key row ∉ [id]))] at h
  rw [find?_replace h, Function.update_apply]
  simp

theorem find?_of_insert {newest : List ρ} {row : ρ}
    (h : newest = rows ++ [row]) (hnodup : (newest.map key).Nodup) :
    (fun other => newest.find? fun row => decide (key row = other)) =
      Function.update (fun other => rows.find? fun row =>
        decide (key row = other)) (key row) (some row) := by
  funext other
  have hnew : ∀ old ∈ rows, key old ≠ key row := by
    rw [h, map_append, map_singleton, nodup_append] at hnodup
    exact fun old hold => hnodup.2.2 _ (mem_map_of_mem hold) _ (mem_singleton_self _)
  rw [h, find?_append, Function.update_apply]
  by_cases hother : other = key row
  · subst hother
    rw [find?_key_eq_none.2 hnew]
    simp
  · rw [if_neg hother]
    simp [Ne.symm hother]

end Lookup

section Effects

variable {m : Moment π} {t t' : Tables π} {id : JobId}
  {set : JobRow π → Except StatementError (JobRow π)}
  {row : JobRow π} {deadLetter : DeadLetterRow π}

theorem filter_not_mem_nil {ρ : Type} (key : ρ → JobId) (rows : List ρ) :
    rows.filter (fun row => decide (key row ∉ ([] : List JobId))) = rows := by simp

theorem updateJobs_takes (h : updateJobs t [id] set = .ok t')
    (hid : ∀ row row', set row = .ok row' → row'.id = row.id)
    (hrow : t.job? id = some row) :
    ∃ row', set row = .ok row' ∧ ∀ reply, Takes t t' { job := some (id, some row'), reply } := by
  obtain ⟨row', hrow', hset⟩ := updateJobs_job? hid h hrow
  rw [if_pos (mem_singleton_self id)] at hset
  obtain ⟨-, hdead, hpauses⟩ := updateJobs_eq_ok h
  refine ⟨row', hset, fun reply => ⟨?_, ?_, hpauses⟩⟩
  · funext other
    rw [rowsAfter, Function.update_apply]
    split
    · rename_i hother
      rw [hother, hrow']
    · rename_i hother
      exact updateJobs_job?_other hid h (by simpa using hother)
  · funext other
    rw [Tables.deadLetter?, hdead]
    rfl

theorem deleteJobs_takes (h : deleteJobs t [id] = .ok t') (reply : Reply) :
    Takes t t' { job := some (id, none), reply } := by
  obtain ⟨hjobs, hdead, hpauses⟩ := replaceRows_eq_ok h
  rw [append_nil] at hjobs hdead
  rw [filter_not_mem_nil DeadLetterRow.id] at hdead
  refine ⟨find?_of_delete hjobs, ?_, hpauses⟩
  funext other
  rw [Tables.deadLetter?, hdead]
  rfl

theorem moves_takes (h : replaceRows t [id] [] [] [deadLetter] = .ok t') (reply : Reply) :
    Takes t t'
      { job := some (id, none), deadLetter := some (deadLetter.id, some deadLetter), reply } := by
  obtain ⟨hjobs, hdead, hpauses⟩ := replaceRows_eq_ok h
  rw [append_nil] at hjobs
  rw [filter_not_mem_nil DeadLetterRow.id] at hdead
  exact ⟨find?_of_delete hjobs, find?_of_insert hdead (t'.constraints .deadLetterPrimaryKey), hpauses⟩

theorem requeues_takes (h : replaceRows t [] [row] [id] [] = .ok t') (reply : Reply) :
    Takes t t' { job := some (row.id, some row), deadLetter := some (id, none), reply } := by
  obtain ⟨hjobs, hdead, hpauses⟩ := replaceRows_eq_ok h
  rw [append_nil] at hdead
  rw [filter_not_mem_nil JobRow.id] at hjobs
  exact ⟨find?_of_insert hjobs (t'.constraints .primaryKey), find?_of_delete hdead, hpauses⟩

theorem deleteDeadLetters_takes (h : deleteDeadLetters t [id] = .ok t') (reply : Reply) :
    Takes t t' { deadLetter := some (id, none), reply } := by
  obtain ⟨hjobs, hdead, hpauses⟩ := replaceRows_eq_ok h
  rw [append_nil] at hjobs hdead
  rw [filter_not_mem_nil JobRow.id] at hjobs
  refine ⟨?_, find?_of_delete hdead, hpauses⟩
  funext other
  rw [Tables.job?, hjobs]
  rfl

/-- A replacement of no rows. -/
theorem replaceRows_nil (h : replaceRows t [] [] [] [] = .ok t') : t' = t := by
  obtain ⟨hjobs, hdead, hpauses⟩ := replaceRows_eq_ok h
  rw [append_nil] at hjobs hdead
  rw [filter_not_mem_nil] at hjobs hdead
  exact tables_eq hjobs hdead hpauses

theorem ownedJob_eq_some {workerId : WorkerOwnerId} :
    ownedJob t id workerId = some row ↔ t.job? id = some row ∧ ownedRunning id workerId row :=
  Option.filter_eq_some_iff

theorem jobIn_eq_some {status : JobStatus} :
    jobIn t id status = some row ↔ t.job? id = some row ∧ row.status = status := by
  rw [jobIn, Option.filter_eq_some_iff, decide_eq_true_eq]

theorem not_takes_job {after : Option (JobRow π)}
    {effect : Effect π} (hjob : effect.job = some (id, after))
    (hne : t.job? id ≠ after) : ¬Takes t t effect := by
  intro h
  have hsame := congrFun h.jobs id
  rw [hjob, rowsAfter, Function.update_self] at hsame
  exact hne hsame

theorem not_takes_deadLetter {effect : Effect π} (hdead : effect.deadLetter = some (id, none))
    (hrow : t.deadLetter? id = some deadLetter) : ¬Takes t t effect := by
  intro h
  have hsame := congrFun h.deadLetters id
  rw [hdead, rowsAfter, Function.update_self, hrow] at hsame
  cases hsame

/-- A rewrite of the row to another status. -/
theorem not_takes_status {row' : JobRow π} {effect : Effect π}
    (hjob : effect.job = some (id, some row'))
    (hrow : t.job? id = some row) (hstatus : row'.status ≠ row.status) : ¬Takes t t effect := by
  refine not_takes_job hjob fun hsame => hstatus ?_
  rw [hrow, Option.some.injEq] at hsame
  rw [hsame]

/-- No transition is specified to leave the tables as they are. -/
theorem specified_changes {transition : Transition}
    {effect : Effect π} (h : specified m t transition = some effect) :
    ¬Takes t t effect := by
  cases transition with
  | markOwnedRunningJobCompleted | markOwnedRunningJobFailed =>
      obtain ⟨row, howned, h⟩ := Option.bind_eq_some_iff.1 h
      obtain rfl := Option.some.inj h
      obtain ⟨hrow, howned⟩ := ownedJob_eq_some.1 howned
      exact not_takes_status rfl hrow (by simp [ownedRunning_status howned])
  | scheduleOwnedRunningJobRetry =>
      obtain ⟨row, howned, h⟩ := Option.bind_eq_some_iff.1 h
      obtain ⟨runAt, -, h⟩ := Option.bind_eq_some_iff.1 h
      obtain rfl := Option.some.inj h
      obtain ⟨hrow, howned⟩ := ownedJob_eq_some.1 howned
      exact not_takes_status rfl hrow (by simp [ownedRunning_status howned])
  | moveOwnedRunningJobToDeadLetter =>
      obtain ⟨row, howned, h⟩ := Option.bind_eq_some_iff.1 h
      obtain rfl := Option.some.inj h
      exact not_takes_job rfl (by simp [(ownedJob_eq_some.1 howned).1])
  | returnOwnedUnstartedRunningJobToPending | returnOwnedStartedRunningJobToPending =>
      obtain ⟨row, howned, h⟩ := Option.bind_eq_some_iff.1 h
      obtain rfl := Option.some.inj h
      obtain ⟨hrow, howned⟩ := ownedJob_eq_some.1 (Option.filter_eq_some_iff.1 howned).1
      exact not_takes_status rfl hrow (by simp [returnToPending, ownedRunning_status howned])
  | cancelPendingJob | moveFailedJobToDeadLetter =>
      obtain ⟨row, hrow, h⟩ := Option.bind_eq_some_iff.1 h
      obtain rfl := Option.some.inj h
      exact not_takes_job rfl (by simp [(jobIn_eq_some.1 hrow).1])
  | retryFailedJob =>
      obtain ⟨row, hrow, h⟩ := Option.bind_eq_some_iff.1 h
      obtain ⟨runAt, -, h⟩ := Option.bind_eq_some_iff.1 h
      obtain rfl := Option.some.inj h
      obtain ⟨hrow, hstatus⟩ := jobIn_eq_some.1 hrow
      exact not_takes_status rfl hrow (by simp [retryFailedJob, hstatus])
  | forceRequeueRunningJobById =>
      obtain ⟨row, hrow, h⟩ := Option.bind_eq_some_iff.1 h
      obtain rfl := Option.some.inj h
      obtain ⟨hrow, hstatus⟩ := jobIn_eq_some.1 hrow
      exact not_takes_status rfl hrow (by simp [returnToPending, hstatus])
  | requeueDeadLetterJob =>
      obtain ⟨source, hsource, h⟩ := Option.bind_eq_some_iff.1 h
      obtain ⟨runAt, -, h⟩ := Option.bind_eq_some_iff.1 h
      obtain rfl := Option.some.inj h
      exact not_takes_deadLetter rfl hsource
  | deleteDeadLetterJob =>
      obtain ⟨source, hsource, h⟩ := Option.bind_eq_some_iff.1 h
      obtain rfl := Option.some.inj h
      exact not_takes_deadLetter rfl hsource

end Effects

section Owned

variable {m : Moment π} {t t' : Tables π} {id : JobId}
  {workerId : WorkerOwnerId} {outcome : TransitionOutcome}
  {set : JobRow π → Except StatementError (JobRow π)} {row : JobRow π}
  {targetExtra visibleExtraMismatch : JobRow π → Bool}
  {transition : Transition}

/-- What the outcome of a worker's transition tells where it did not apply. -/
def Refused (m : Moment π) (t : Tables π) (id : JobId)
    (demanded : JobRow π → Bool) (outcome : TransitionOutcome) :
    Prop :=
  outcome = .locked ∧ (m.lockedJobs id = true ∨ t.job? id ≠ m.snapshot.job? id) ∨
    (outcome = .notFound ∨ outcome = .stateMismatch) ∧ ∀ row, m.snapshot.job? id = some row →
      demanded row = false

theorem ownedTransitionOutcome_refused (hextra : ∀ row, visibleExtraMismatch row = !targetExtra row)
    (hnil : lockJobs m t (fun row => ownedRunning id workerId row && targetExtra row) = []) :
    Refused m t id (fun row => ownedRunning id workerId row && targetExtra row)
      (ownedTransitionOutcome m id workerId false visibleExtraMismatch) := by
  simp only [ownedTransitionOutcome, visible_jobs, Bool.false_eq_true, if_false]
  cases hseen : m.snapshot.job? id with
  | none =>
      refine .inr ⟨.inl rfl, fun row hrow => ?_⟩
      rw [hseen] at hrow
      cases hrow
  | some seen =>
      have hid := (Tables.job?_eq_some.1 hseen).2
      have hmismatch : (Option.some seen).toList.any (fun row =>
          row.status ≠ .running || row.workerId ≠ some workerId || visibleExtraMismatch row) =
          !(ownedRunning id workerId seen && targetExtra seen) := by
        simp [ownedRunning, hid, hextra, Bool.not_and]
      rw [hmismatch]
      cases hdemanded : ownedRunning id workerId seen && targetExtra seen with
      | true => exact .inl ⟨rfl, lockJobs_eq_nil hnil hseen hdemanded⟩
      | false =>
          refine .inr ⟨.inr rfl, fun row hrow => ?_⟩
          rw [hseen, Option.some.injEq] at hrow
          rwa [← hrow]

theorem ownedRunningJobUpdate_cases
    (h : ownedRunningJobUpdate m id workerId set targetExtra visibleExtraMismatch t = .ok (outcome, t'))
    (hid : ∀ row row', set row = .ok row' → row'.id = row.id)
    (hextra : ∀ row, visibleExtraMismatch row = !targetExtra row) :
    (outcome = .applied ∧ ∃ row row',
      t.job? id = some row ∧ ownedRunning id workerId row ∧ targetExtra row ∧
        set row = .ok row' ∧ ∀ reply, Takes t t' { job := some (id, some row'), reply }) ∨
      t' = t ∧ Refused m t id (fun row => ownedRunning id workerId row && targetExtra row) outcome := by
  obtain ⟨updated, hupdated, hreply⟩ := bind_eq_ok.1 h
  obtain ⟨rfl, rfl⟩ := Prod.mk.inj (Except.ok.inj hreply)
  have hmatch : ∀ row : JobRow π, (ownedRunning id workerId row && targetExtra row) → row.id = id := by
    intro row hrow
    simp only [ownedRunning, Bool.and_eq_true, decide_eq_true_eq] at hrow
    exact hrow.1.1.1
  rcases lockJobs_id (m := m) (t := t) hmatch with hnil | ⟨row, hone, hrow, hdemanded⟩
  · have hrefused := ownedTransitionOutcome_refused hextra hnil
    rw [hnil] at hupdated ⊢
    exact .inr ⟨updateJobs_nil hupdated, by simpa [jobIds] using hrefused⟩
  · rw [Bool.and_eq_true] at hdemanded
    have hids : jobIds [row] = [id] := by rw [jobIds, map_singleton, (Tables.job?_eq_some.1 hrow).2]
    rw [hone, hids] at hupdated
    rw [hone, hids]
    obtain ⟨row', hset, htakes⟩ := updateJobs_takes hupdated hid hrow
    exact .inl ⟨by simp [ownedTransitionOutcome], row, row', hrow, hdemanded.1, hdemanded.2, hset, htakes⟩

/-- The reasons of a worker's transition. -/
theorem truthful_of_refused {β : Type} {demanded : JobRow π → Bool}
    {result : TransitionOutcome → Except QueueError β}
    (howned : transition.owned? = some demanded) (htarget : transition.target = id)
    (hlocked : result .locked = .error .jobLockedByConcurrentTransaction)
    (hnotFound : result .notFound = .error .jobNotRunning)
    (hmismatch : result .stateMismatch = .error .jobNotRunning)
    (h : Refused m t id demanded outcome) :
    ∃ e, result outcome = .error e ∧ Truthful m t transition e := by
  subst htarget
  rcases h with ⟨rfl, hwhy⟩ | ⟨rfl | rfl, hwhy⟩
  · exact ⟨_, hlocked, hwhy⟩
  · refine ⟨_, hnotFound, ?_⟩
    simp only [Truthful, howned]
    exact hwhy
  · refine ⟨_, hmismatch, ?_⟩
    simp only [Truthful, howned]
    exact hwhy

/-- A worker's transition takes its effect or is refused. -/
theorem settled_owned {mapError : StatementError → QueueError} {β : Type} {demanded : JobRow π → Bool}
    {statement : Except StatementError (TransitionOutcome × Tables π)}
    {result : TransitionOutcome → Tables π → Except QueueError β} {reply : β → Reply}
    (hmap : ∀ e, Truthful m t transition (mapError e))
    (howned : transition.owned? = some demanded) (htarget : transition.target = id)
    (hlocked : ∀ t', result .locked t' = .error .jobLockedByConcurrentTransaction)
    (hnotFound : ∀ t', result .notFound t' = .error .jobNotRunning)
    (hmismatch : ∀ t', result .stateMismatch t' = .error .jobNotRunning)
    (hcases : ∀ outcome t', statement = .ok (outcome, t') →
      (∃ effect, specified m t transition = some effect ∧
        (result outcome t').map reply = .ok effect.reply ∧
        Takes t t' effect) ∨ t' = t ∧ Refused m t id demanded outcome) :
    Settled m t transition (execute t statement mapError result reply) := by
  cases hs : statement with
  | error e => exact .inr ⟨_, rfl, rfl, hmap e⟩
  | ok reply' =>
      obtain ⟨outcome, t'⟩ := reply'
      rcases hcases outcome t' hs with happlied | ⟨rfl, hrefused⟩
      · exact .inl happlied
      · have htruthful : ∃ e, result outcome t' = .error e ∧ Truthful m t' transition e :=
          @truthful_of_refused _ _ _ _ _ _ _ _ (fun outcome => result outcome t')
            howned htarget (hlocked _)
            (hnotFound _) (hmismatch _) hrefused
        obtain ⟨e, he, htrue⟩ := htruthful
        refine .inr ⟨e, ?_, rfl, htrue⟩
        simp only [execute, he]
        rfl

theorem text_eq_ok {value bound : String} (h : text value = .ok bound) : bound = value := by
  unfold text at h
  split at h
  · cases h
  · exact (Except.ok.inj h).symm

theorem toOption_of_sql {x : Except SqlError Int} {n : Int} (h : sql x = .ok n) :
    x.toOption = some n := by
  cases x with
  | error e => cases h
  | ok k => exact congrArg some (Except.ok.inj h)

theorem nextRunAt_eq_ok {now retryAfter runAt : Int} (h : nextRunAt now retryAfter = .ok runAt) :
    (timestampPlusMicroseconds now retryAfter).toOption = some runAt := by
  obtain ⟨n, hn, h⟩ := bind_eq_ok.1 h
  obtain ⟨_, -, h⟩ := bind_eq_ok.1 h
  rw [← Except.ok.inj h]
  exact toOption_of_sql hn

theorem owned_and_true (id : JobId) (workerId : WorkerOwnerId) :
    some (@ownedRunning π id workerId) = some fun row => ownedRunning id workerId row && true := by
  simp

theorem settled_markOwnedRunningJobCompleted (m : Moment π)
    (t : Tables π) (id : JobId) (workerId : WorkerOwnerId) :
    Settled m t (.markOwnedRunningJobCompleted id workerId)
      (call m (.markOwnedRunningJobCompleted id workerId) t) := by
  refine settled_owned (fun _ => trivial) (owned_and_true id workerId)
    rfl (fun _ => rfl) (fun _ => rfl) (fun _ => rfl) ?_
  intro outcome t' h
  rcases ownedRunningJobUpdate_cases h (id_of_ok fun _ => rfl) (fun _ => rfl) with
    ⟨rfl, row, row', hrow, hrunning, -, hset, htakes⟩ | hrefused
  · obtain rfl := Except.ok.inj hset
    refine .inl ⟨_, ?_, rfl, htakes .done⟩
    rw [specified, ownedJob_eq_some.2 ⟨hrow, hrunning⟩]
    rfl
  · exact .inr hrefused

theorem settled_markOwnedRunningJobFailed (m : Moment π)
    (t : Tables π) (id : JobId) (workerId : WorkerOwnerId)
    (errorMessage : String) (increment : Bool) :
    Settled m t (.markOwnedRunningJobFailed id workerId errorMessage increment)
      (call m (.markOwnedRunningJobFailed id workerId errorMessage increment) t) := by
  refine settled_owned (fun _ => trivial) (owned_and_true id workerId)
    rfl (fun _ => rfl) (fun _ => rfl) (fun _ => rfl) ?_
  intro outcome t' h
  obtain ⟨lastError, htext, hupdate⟩ := bind_eq_ok.1 h
  obtain rfl := text_eq_ok htext
  rcases ownedRunningJobUpdate_cases hupdate (id_of_bind fun _ _ => rfl) (fun _ => rfl) with
    ⟨rfl, row, row', hrow, hrunning, -, hset, htakes⟩ | hrefused
  · obtain ⟨count, hcount, hset⟩ := bind_eq_ok.1 hset
    obtain rfl := Except.ok.inj hset
    refine .inl ⟨_, ?_, rfl, htakes .done⟩
    rw [specified, ownedJob_eq_some.2 ⟨hrow, hrunning⟩, incrementRetryCount_eq_ok hcount]
    rfl
  · exact .inr hrefused

theorem settled_scheduleOwnedRunningJobRetry (m : Moment π)
    (t : Tables π) (id : JobId) (workerId : WorkerOwnerId)
    (newRetryCount : Nat) (retryAfter : Int) (errorMessage : String) :
    Settled m t (.scheduleOwnedRunningJobRetry id workerId newRetryCount retryAfter errorMessage)
      (call m (.scheduleOwnedRunningJobRetry id workerId newRetryCount retryAfter errorMessage) t) := by
  rw [call]
  refine settled_owned (fun _ => trivial) (owned_and_true id workerId)
    rfl (fun _ => rfl) (fun _ => rfl) (fun _ => rfl) ?_
  intro outcome t' h
  obtain ⟨count, hcount, h⟩ := bind_eq_ok.1 h
  obtain ⟨lastError, htext, hupdate⟩ := bind_eq_ok.1 h
  obtain rfl := text_eq_ok htext
  rcases ownedRunningJobUpdate_cases hupdate (id_of_bind fun _ _ => rfl) (fun _ => rfl) with
    ⟨rfl, row, row', hrow, hrunning, -, hset, htakes⟩ | hrefused
  · obtain ⟨runAt, hrunAt, hset⟩ := bind_eq_ok.1 hset
    obtain rfl := Except.ok.inj hset
    refine .inl ⟨_, ?_, ?_, htakes (.runAt runAt)⟩
    · rw [specified, ownedJob_eq_some.2 ⟨hrow, hrunning⟩, nextRunAt_eq_ok hrunAt, sql_int4_eq_ok hcount]
      rfl
    · rw [congrFun (htakes .done).jobs id, rowsAfter, Function.update_self]
      rfl
  · exact .inr hrefused

theorem settled_moveOwnedRunningJobToDeadLetter (m : Moment π)
    (t : Tables π) (id : JobId) (workerId : WorkerOwnerId)
    (deadLetterId : JobId) (errorMessage : String) (increment : Bool) (reason : DeadLetterReason) :
    Settled m t (.moveOwnedRunningJobToDeadLetter id
      workerId deadLetterId errorMessage increment reason)
      (call m (.moveOwnedRunningJobToDeadLetter id workerId
        deadLetterId errorMessage increment reason) t) := by
  refine settled_owned (fun _ => trivial) (owned_and_true id workerId)
    rfl (fun _ => rfl) (fun _ => rfl) (fun _ => rfl) ?_
  intro outcome t' h
  obtain ⟨lastError, htext, h⟩ := bind_eq_ok.1 h
  obtain ⟨inserted, hinserted, h⟩ := bind_eq_ok.1 h
  obtain ⟨updated, hupdated, hreply⟩ := bind_eq_ok.1 h
  obtain ⟨rfl, rfl⟩ := Prod.mk.inj (Except.ok.inj hreply)
  obtain rfl := text_eq_ok htext
  have hmatch : ∀ row : JobRow π, ownedRunning id workerId row → row.id = id := by
    intro row hrow
    simp only [ownedRunning, Bool.and_eq_true, decide_eq_true_eq] at hrow
    exact hrow.1.1
  rcases lockJobs_id (m := m) (t := t) hmatch with hnil | ⟨row, hone, hrow, hrunning⟩
  · have hrefused : Refused m t id (fun row => ownedRunning id workerId row && true)
        (ownedTransitionOutcome m id workerId false fun _ => false) :=
      ownedTransitionOutcome_refused (fun _ => rfl) (by simpa using hnil)
    rw [hnil] at hinserted hupdated ⊢
    obtain rfl : inserted = [] := by simpa using (mapM_eq_ok hinserted).length_eq.symm
    exact .inr ⟨replaceRows_nil hupdated, hrefused⟩
  · obtain ⟨deadLetter, hdead, rfl⟩ := forall₂_singleton_left (hone ▸ mapM_eq_ok hinserted)
    obtain ⟨count, hcount, hdead⟩ := bind_eq_ok.1 hdead
    obtain rfl := Except.ok.inj hdead
    have hids : jobIds [row] = [id] := by rw [jobIds, map_singleton, (Tables.job?_eq_some.1 hrow).2]
    rw [hone, hids] at hupdated
    have htakes := moves_takes hupdated (.jobId deadLetterId)
    refine .inl ⟨_, ?_, ?_, htakes⟩
    · rw [specified, ownedJob_eq_some.2 ⟨hrow, hrunning⟩, incrementRetryCount_eq_ok hcount]
      rfl
    · have happlied : ownedTransitionOutcome m id workerId
        (decide ([row] ≠ [])) (fun _ => false) = .applied := by
        simp [ownedTransitionOutcome]
      have hfound := congrFun htakes.deadLetters deadLetterId
      rw [rowsAfter, show (deadLetterOf m.now deadLetterId lastError count reason row).id =
        deadLetterId from rfl,
        Function.update_self] at hfound
      rw [hone, happlied, hfound]
      rfl

/-- A return to pending, which looks at the start of the execution as well. -/
theorem returned_cases {executionStarted : JobRow π → Bool}
    {outcome : TransitionOutcome} {t' : Tables π}
    (hextra : ∀ row, visibleExtraMismatch row = !executionStarted row)
    (h : ownedRunningJobUpdate m id workerId
      (fun row => .ok (returnToPending m.now row)) executionStarted
      visibleExtraMismatch t = .ok (outcome, t')) :
    (outcome = .applied ∧ ∃ row, (ownedJob t id workerId).filter executionStarted = some row ∧
      Takes t t' { job := some (id, some (returnToPending m.now row)) }) ∨
      t' = t ∧ Refused m t id (fun row => ownedRunning id workerId row &&
        executionStarted row) outcome := by
  rcases ownedRunningJobUpdate_cases h (id_of_ok fun _ => rfl) hextra with
    ⟨rfl, row, row', hrow, hrunning, hstarted, hset, htakes⟩ | hrefused
  · obtain rfl := Except.ok.inj hset
    exact .inl ⟨rfl, row,
      Option.filter_eq_some_iff.2 ⟨ownedJob_eq_some.2 ⟨hrow, hrunning⟩, hstarted⟩, htakes .done⟩
  · exact .inr hrefused

theorem settled_returnOwnedUnstartedRunningJobToPending (m : Moment π) (t : Tables π) (id : JobId)
    (workerId : WorkerOwnerId) : Settled m t (.returnOwnedUnstartedRunningJobToPending id workerId)
      (call m (.returnOwnedUnstartedRunningJobToPending id workerId) t) := by
  refine settled_owned (fun _ => trivial) rfl rfl (fun _ => rfl) (fun _ => rfl) (fun _ => rfl) ?_
  intro outcome t' h
  have hextra (row : JobRow π) : row.executionStartedAt.isSome = !row.executionStartedAt.isNone :=
    (Option.not_isNone _).symm
  rcases returned_cases hextra h with ⟨rfl, row, hrow, htakes⟩ | hrefused
  · refine .inl ⟨_, ?_, rfl, htakes⟩
    rw [specified, hrow]
    rfl
  · exact .inr hrefused

theorem settled_returnOwnedStartedRunningJobToPending (m : Moment π) (t : Tables π) (id : JobId)
    (workerId : WorkerOwnerId) : Settled m t (.returnOwnedStartedRunningJobToPending id workerId)
      (call m (.returnOwnedStartedRunningJobToPending id workerId) t) := by
  refine settled_owned (fun _ => trivial) rfl rfl (fun _ => rfl) (fun _ => rfl) (fun _ => rfl) ?_
  intro outcome t' h
  have hextra (row : JobRow π) : row.executionStartedAt.isNone = !row.executionStartedAt.isSome :=
    (Option.not_isSome _).symm
  rcases returned_cases hextra h with ⟨rfl, row, hrow, htakes⟩ | hrefused
  · refine .inl ⟨_, ?_, rfl, htakes⟩
    rw [specified, hrow]
    rfl
  · exact .inr hrefused

end Owned

section Operator

variable {m : Moment π} {t t' : Tables π} {id : JobId}
  {status : JobStatus} {outcome : TransitionOutcome}
  {row : JobRow π} {transition : Transition}

/-- What the outcome of an operator's transition tells where it did not apply. -/
def OperatorRefused (m : Moment π) (t : Tables π) (id : JobId)
    (status : JobStatus) (outcome : TransitionOutcome) :
    Prop :=
  outcome = .notFound ∧ m.snapshot.job? id = none ∨
    outcome = .stateMismatch ∧ OtherStatus m t id status ∨
    outcome = .locked ∧ (m.lockedJobs id = true ∨ t.job? id ≠ m.snapshot.job? id)

theorem lockTarget_cases (m : Moment π) (t : Tables π) (id : JobId) :
    lockJobs m t (·.id = id) = [] ∨ ∃ row, lockJobs m t (·.id = id) = [row] ∧ t.job? id = some row := by
  have hmatch : ∀ row : JobRow π, (fun row : JobRow π => decide (row.id = id)) row →
    row.id = id := by simp
  rcases lockJobs_id (m := m) (t := t) hmatch with hnil | ⟨row, hone, hrow, -⟩
  · exact .inl hnil
  · exact .inr ⟨row, hone, hrow⟩

theorem operatorRefused_of_nil (hnil : lockJobs m t (·.id = id) = []) (status : JobStatus) :
    OperatorRefused m t id status (operatorTransitionOutcome m id status false false) := by
  simp only [operatorTransitionOutcome, visible_jobs, Bool.false_eq_true, if_false]
  cases hseen : m.snapshot.job? id with
  | none => exact .inl ⟨rfl, hseen⟩
  | some seen =>
      by_cases hstatus : seen.status = status
      · refine .inr (.inr ⟨by simp [hstatus], lockJobs_eq_nil hnil hseen ?_⟩)
        simpa using (Tables.job?_eq_some.1 hseen).2
      · exact .inr (.inl ⟨by simp [hstatus], seen, .inl hseen, hstatus⟩)

theorem operatorRefused_of_status (hrow : t.job? id = some row) (hstatus : row.status ≠ status) :
    OperatorRefused m t id status (operatorTransitionOutcome m id status false true) :=
  .inr (.inl ⟨rfl, row, .inr hrow, hstatus⟩)

/-- An operator's transition takes its effect or is refused. -/
theorem settled_operator {mapError : StatementError → QueueError} {β : Type}
    {statement : Except StatementError (TransitionOutcome × Tables π)}
    {result : TransitionOutcome → Tables π → Except QueueError β}
    {reply : β → Reply} {mismatch : QueueError}
    (status : JobStatus) (htarget : transition.target = id)
    (hmap : ∀ e, statement = .error e → Truthful m t transition (mapError e))
    (hnotFound : ∀ t', result .notFound t' = .error .jobNotFound)
    (hlocked : ∀ t', result .locked t' = .error .jobLockedByConcurrentTransaction)
    (hmismatch : ∀ t', result .stateMismatch t' = .error mismatch)
    (htruthful : OtherStatus m t id status → Truthful m t transition mismatch)
    (hcases : ∀ outcome t', statement = .ok (outcome, t') →
      Settled m t transition ((result outcome t').map reply, t') ∨
        t' = t ∧ OperatorRefused m t id status outcome) :
    Settled m t transition (execute t statement mapError result reply) := by
  subst htarget
  cases hs : statement with
  | error e => exact .inr ⟨_, rfl, rfl, hmap e hs⟩
  | ok reply' =>
      obtain ⟨outcome, t'⟩ := reply'
      rcases hcases outcome t' hs with hsettled | ⟨rfl, ⟨rfl, hwhy⟩ | ⟨rfl, hwhy⟩ | ⟨rfl, hwhy⟩⟩
      · exact hsettled
      · exact .inr ⟨.jobNotFound, congrArg (Except.map reply) (hnotFound t'), rfl, hwhy⟩
      · exact .inr ⟨mismatch, congrArg (Except.map reply) (hmismatch t'), rfl, htruthful hwhy⟩
      · exact .inr ⟨.jobLockedByConcurrentTransaction,
          congrArg (Except.map reply) (hlocked t'), rfl, hwhy⟩

theorem jobIds_filter_status (hrow : t.job? id = some row) (status : JobStatus) :
    jobIds ([row].filter (·.status = status)) = if row.status = status then [id] else [] := by
  by_cases hstatus : row.status = status <;> simp [jobIds, hstatus, (Tables.job?_eq_some.1 hrow).2]

theorem settled_cancelPendingJob (m : Moment π) (t : Tables π) (id : JobId) :
    Settled m t (.cancelPendingJob id) (call m (.cancelPendingJob id) t) := by
  refine settled_operator .pending rfl (fun _ _ => trivial) (fun _ => rfl) (fun _ => rfl) (fun _ => rfl)
    (fun h => h) ?_
  intro outcome t' h
  obtain ⟨updated, hupdated, hreply⟩ := bind_eq_ok.1 h
  obtain ⟨rfl, rfl⟩ := Prod.mk.inj (Except.ok.inj hreply)
  rcases lockTarget_cases m t id with hnil | ⟨row, hone, hrow⟩
  · rw [hnil] at hupdated ⊢
    exact .inr ⟨replaceRows_nil hupdated, operatorRefused_of_nil hnil .pending⟩
  · rw [hone, jobIds_filter_status hrow] at hupdated ⊢
    by_cases hstatus : row.status = .pending
    · rw [if_pos hstatus] at hupdated ⊢
      refine .inl (.inl ⟨_, ?_, rfl, deleteJobs_takes hupdated .done⟩)
      rw [specified, jobIn_eq_some.2 ⟨hrow, hstatus⟩]
      rfl
    · rw [if_neg hstatus] at hupdated ⊢
      exact .inr ⟨replaceRows_nil hupdated, operatorRefused_of_status hrow hstatus⟩

theorem settled_forceRequeueRunningJobById (m : Moment π) (t : Tables π) (id : JobId) :
    Settled m t (.forceRequeueRunningJobById id) (call m (.forceRequeueRunningJobById id) t) := by
  refine settled_operator .running rfl (fun _ _ => trivial) (fun _ => rfl) (fun _ => rfl) (fun _ => rfl)
    (fun h => h) ?_
  intro outcome t' h
  obtain ⟨updated, hupdated, hreply⟩ := bind_eq_ok.1 h
  obtain ⟨rfl, rfl⟩ := Prod.mk.inj (Except.ok.inj hreply)
  rcases lockTarget_cases m t id with hnil | ⟨row, hone, hrow⟩
  · rw [hnil] at hupdated ⊢
    exact .inr ⟨updateJobs_nil hupdated, operatorRefused_of_nil hnil .running⟩
  · rw [hone, jobIds_filter_status hrow] at hupdated ⊢
    by_cases hstatus : row.status = .running
    · rw [if_pos hstatus] at hupdated ⊢
      obtain ⟨row', hset, htakes⟩ := updateJobs_takes hupdated (id_of_ok fun _ => rfl) hrow
      obtain rfl := Except.ok.inj hset
      refine .inl (.inl ⟨_, ?_, rfl, htakes .done⟩)
      rw [specified, jobIn_eq_some.2 ⟨hrow, hstatus⟩]
      rfl
    · rw [if_neg hstatus] at hupdated ⊢
      exact .inr ⟨updateJobs_nil hupdated, operatorRefused_of_status hrow hstatus⟩

theorem pairwise_of_forall₂ {α β : Type} {R : α → α → Prop}
    {S : β → β → Prop} {T : α → β → Prop} {xs : List α}
    {ys : List β} (h : Forall₂ T xs ys) (hxs : Pairwise R xs)
    (hstep : ∀ x x' y y', R x x' → T x y → T x' y' → S y y') : Pairwise S ys := by
  induction h with
  | nil => exact Pairwise.nil
  | cons hhead htail ih =>
      obtain ⟨hfirst, hrest⟩ := pairwise_cons.1 hxs
      refine pairwise_cons.2 ⟨fun y' hy' => ?_, ih hrest⟩
      obtain ⟨x', hx', hrelated⟩ := forall₂_mem_right htail hy'
      exact hstep _ x' _ y' (hfirst x' hx') hhead hrelated

/-- Only the index on active dedupe keys tells a row that becomes active from the
others: one of them holds its key. -/
theorem duplicate_of_violation {set : JobRow π → Except StatementError (JobRow π)}
    (hrow : t.job? id = some row)
    (hset : Rewrites set row)
    (hkey : ∀ row', set row = .ok row' → row'.taskName = row.taskName ∧ row'.dedupeKey = row.dedupeKey)
    (h : updateJobs t [id] set = .error (.violation .dedupeActive)) :
    ∃ active ∈ t.jobs, activeDedupeMatch row.taskName row.dedupeKey active ∧ active.id ≠ id := by
  obtain ⟨hmem, rfl⟩ := Tables.job?_eq_some.1 hrow
  have hone : ∀ other ∈ t.jobs, other.id ∈ [row.id] → other = row := by
    intro other hother hid
    exact inj_on_of_nodup_map (t.constraints .primaryKey) hother hmem (mem_singleton.1 hid)
  have hrewrites : ∀ other ∈ t.jobs, other.id ∈ [row.id] → Rewrites set other := by
    intro other hother hid
    rwa [hone other hother hid]
  obtain ⟨-, jobs, hjobs, hbroken⟩ := updateJobs_violation hrewrites h
  by_contra hfree
  push Not at hfree
  -- the key of the changed row meets the key of no other
  have hmeets : ∀ row' other key, set row = .ok row' → other ∈ t.jobs → other.id ≠ row.id →
      row'.activeDedupeKey = some key → other.activeDedupeKey ≠ some key := by
    intro row' other key hset' hother hid hrowKey hotherKey
    obtain ⟨htask, hdedupe⟩ := hkey row' hset'
    simp only [JobRow.activeDedupeKey] at hrowKey hotherKey
    split at hrowKey
    · split at hotherKey
      · rename_i hactive
        obtain ⟨k, hk, rfl⟩ := Option.map_eq_some_iff.1 hrowKey
        obtain ⟨k', hk', heq⟩ := Option.map_eq_some_iff.1 hotherKey
        obtain ⟨hsame, rfl⟩ := Prod.mk.inj heq
        refine hid (hfree other hother ?_)
        simp [activeDedupeMatch, hsame, htask, ← hdedupe, hk, hk', hactive]
      · cases hotherKey
    · cases hrowKey
  have hids : t.jobs.Pairwise fun a b => a.id ≠ b.id := pairwise_map.1 (t.constraints .primaryKey)
  have hkeys := pairwise_filterMap.1 (t.constraints .dedupeActive)
  refine hbroken (pairwise_filterMap.2
    (pairwise_of_forall₂ hjobs (Pairwise.and_mem.1 (hids.and hkeys)) ?_))
  rintro a b a' b' ⟨ha, hb, hid, hdistinct⟩ haRow hbRow key hkeyA key' hkeyB rfl
  split at haRow
  · rename_i hchanged
    rw [hone a ha hchanged] at haRow hid
    rw [if_neg (by simpa using Ne.symm hid)] at hbRow
    subst hbRow
    exact hmeets a' b' key haRow hb (Ne.symm hid) hkeyA hkeyB
  · subst haRow
    split at hbRow
    · rename_i hchanged
      rw [hone b hb hchanged] at hbRow hid
      exact hmeets b' a' key hbRow ha hid hkeyB hkeyA
    · subst hbRow
      exact hdistinct key hkeyA key hkeyB rfl

theorem toOption_runAtOrNow {now runAt : Int} {unixMicroseconds : Option Int}
    (h : runAtOrNow now unixMicroseconds = .ok runAt) :
    (runAtOrNow now unixMicroseconds).toOption = some runAt := by
  rw [h]
  rfl

theorem updateJobs_nil_ne_violation {set : JobRow π → Except StatementError (JobRow π)}
    {c : Constraint} :
    updateJobs t [] set ≠ .error (.violation c) :=
  updateJobs_ne_violation (fun _ _ h => absurd h not_mem_nil) fun _ _ h => absurd h not_mem_nil

def dedupeConflict (m : Moment π) (target : List (JobRow π)) : Bool :=
  target.any fun row => row.status = .failed && activeDuplicate m row

/-- What a retry takes of its locked row. -/
def retried (m : Moment π) (target : List (JobRow π)) : List JobId :=
  jobIds (target.filter fun row => row.status = .failed && !dedupeConflict m target)

theorem retryFailedJobById_eq (m : Moment π) (t : Tables π) (id : JobId) (runAt : Option Int) :
    retryFailedJobById m id runAt t = do
      let target := lockJobs m t (·.id = id)
      let updated ← updateJobs t (retried m target) fun row => do
        return retryFailedJob m.now (← runAtOrNow m.now runAt) row
      return (if retried m target = [] && dedupeConflict m target then .dedupeConflict
        else operatorTransitionOutcome m id .failed (retried m target ≠ []) (target ≠ []),
          updated) := rfl

theorem retried_singleton (hrow : t.job? id = some row) :
    retried m [row] = if row.status = .failed ∧ activeDuplicate m row = false then [id] else [] := by
  have hid := (Tables.job?_eq_some.1 hrow).2
  by_cases hstatus : row.status = .failed <;> cases hduplicate : activeDuplicate m row <;>
    simp [retried, dedupeConflict, jobIds, hstatus, hduplicate, hid]

/-- The error of a retry that loses its dedupe key to a job that became active since. -/
theorem truthful_retryError {runAt : Option Int} {e : StatementError}
    (h : retryFailedJobById m id runAt t = .error e) :
    Truthful m t (.retryFailedJob id runAt) (mapRetryQueryError e) := by
  by_cases hconflict : e = .violation .dedupeActive
  · subst hconflict
    rw [retryFailedJobById_eq] at h
    rcases bind_eq_error.1 h with hupdate | ⟨updated, -, h⟩
    · rcases lockTarget_cases m t id with hnil | ⟨row, hone, hrow⟩
      · rw [hnil] at hupdate
        exact absurd hupdate updateJobs_nil_ne_violation
      · rw [hone, retried_singleton hrow] at hupdate
        split at hupdate
        · obtain ⟨active, hactive, hmatch, hother⟩ := duplicate_of_violation hrow
            (rewritesOwned_retryFailedJob m.now runAt (Tables.job?_eq_some.1 hrow).1).toRewrites
            (fun row' hset => by
              obtain ⟨n, -, hset⟩ := bind_eq_ok.1 hset
              obtain rfl := Except.ok.inj hset
              exact ⟨rfl, rfl⟩) hupdate
          exact ⟨row, hrow, active, .inr hactive, hmatch, hother⟩
        · exact absurd hupdate updateJobs_nil_ne_violation
    · cases h
  · have hdatabase : mapRetryQueryError e = .database e := by
      cases e with
      | violation c => cases c <;> first | rfl | exact absurd rfl hconflict
      | outOfRange => rfl
      | characterNotInRepertoire => rfl
    rw [hdatabase]
    trivial

theorem activeDuplicate_iff (m : Moment π) (row : JobRow π) : activeDuplicate m row = true ↔
    ∃ active ∈ m.snapshot.jobs, activeDedupeMatch row.taskName row.dedupeKey active ∧
      active.id ≠ row.id := by
  simp [activeDuplicate]

theorem settled_retryFailedJob (m : Moment π) (t : Tables π) (id : JobId) (runAt : Option Int) :
    Settled m t (.retryFailedJob id runAt) (call m (.retryFailedJob id runAt) t) := by
  refine settled_operator .failed rfl (fun _ => truthful_retryError)
    (fun _ => rfl) (fun _ => rfl) (fun _ => rfl)
    (fun h => h) ?_
  intro outcome t' h
  rw [retryFailedJobById_eq] at h
  obtain ⟨updated, hupdated, hreply⟩ := bind_eq_ok.1 h
  obtain ⟨rfl, rfl⟩ := Prod.mk.inj (Except.ok.inj hreply)
  rcases lockTarget_cases m t id with hnil | ⟨row, hone, hrow⟩
  · rw [hnil] at hupdated ⊢
    exact .inr ⟨updateJobs_nil hupdated, operatorRefused_of_nil hnil .failed⟩
  · rw [hone, retried_singleton hrow] at hupdated ⊢
    by_cases hstatus : row.status = .failed
    · cases hduplicate : activeDuplicate m row with
      | true =>
          have hconflict : dedupeConflict m [row] = true := by
            simp [dedupeConflict, hstatus, hduplicate]
          rw [if_neg (by simp [hduplicate])] at hupdated
          obtain ⟨active, hactive, hmatch, hother⟩ := (activeDuplicate_iff m row).1 hduplicate
          rw [(Tables.job?_eq_some.1 hrow).2] at hother
          refine .inl (.inr ⟨.retryConflictWithActiveDedupeJob,
            ?_, updateJobs_nil hupdated, row, hrow, active,
            .inl hactive, hmatch, hother⟩)
          simp only [hstatus, hconflict, true_and, Bool.true_eq_false, if_false]
          rfl
      | false =>
          rw [if_pos ⟨hstatus, hduplicate⟩] at hupdated
          obtain ⟨row', hset, htakes⟩ := updateJobs_takes hupdated (id_of_bind fun _ _ => rfl) hrow
          obtain ⟨n, hn, hset⟩ := bind_eq_ok.1 hset
          obtain rfl := Except.ok.inj hset
          refine .inl (.inl ⟨_, ?_, ?_, htakes .done⟩)
          · rw [specified, jobIn_eq_some.2 ⟨hrow, hstatus⟩, toOption_runAtOrNow hn]
            rfl
          · simp only [hstatus, and_self, if_true]
            rfl
    · have hconflict : dedupeConflict m [row] = false := by simp [dedupeConflict, hstatus]
      rw [if_neg (fun hboth => hstatus hboth.1)] at hupdated
      refine .inr ⟨updateJobs_nil hupdated, ?_⟩
      simp only [hstatus, hconflict, false_and, if_false, Bool.and_false, Bool.false_eq_true]
      exact operatorRefused_of_status hrow hstatus

theorem snapshot_eq_none (m : Moment π) (id : JobId) :
    m.snapshot.jobs.filter (fun row => decide (row.id = id)) = [] ↔ m.snapshot.job? id = none := by
  rw [visible_jobs]
  cases m.snapshot.job? id <;> simp

theorem settled_moveFailedJobToDeadLetter (m : Moment π) (t : Tables π) (id deadLetterId : JobId)
    (reason : DeadLetterReason) : Settled m t (.moveFailedJobToDeadLetter id deadLetterId reason)
      (call m (.moveFailedJobToDeadLetter id deadLetterId reason) t) := by
  rw [call]
  cases hs : moveFailedJobToDeadLetter m id deadLetterId reason t with
  | error e => exact .inr ⟨_, rfl, rfl, trivial⟩
  | ok reply =>
      obtain ⟨outcome, t'⟩ := reply
      obtain ⟨updated, hupdated, hreply⟩ := bind_eq_ok.1 hs
      obtain ⟨rfl, rfl⟩ := Prod.mk.inj (Except.ok.inj hreply)
      rcases lockTarget_cases m t id with hnil | ⟨row, hone, hrow⟩
      · rw [hnil] at hupdated ⊢
        rcases hseen : m.snapshot.job? id with _ | seen
        · rw [if_neg (by simp), if_pos ((snapshot_eq_none m id).2 hseen)]
          exact .inr ⟨.jobNotFound, rfl, replaceRows_nil hupdated, hseen⟩
        · have hvisible : m.snapshot.jobs.filter (fun row => decide (row.id = id)) = [seen] := by
            rw [visible_jobs, hseen]
            rfl
          rw [if_neg (by simp), hvisible, if_neg (by simp)]
          by_cases hstatus : seen.status = .failed
          · rw [if_pos ⟨rfl, by simp [hstatus]⟩]
            refine .inr ⟨.jobLockedByConcurrentTransaction, rfl, replaceRows_nil hupdated, ?_⟩
            exact lockJobs_eq_nil hnil hseen (by simpa using (Tables.job?_eq_some.1 hseen).2)
          · rw [if_neg (by simp [hstatus]), if_pos (by simp)]
            exact .inr ⟨.jobNotFailed, rfl, replaceRows_nil hupdated, seen, .inl hseen, hstatus⟩
      · by_cases hstatus : row.status = .failed
        · have hmoved : [row].filter (·.status = .failed) = [row] := by simp [hstatus]
          have hids : jobIds [row] = [id] := by
            rw [jobIds, map_singleton, (Tables.job?_eq_some.1 hrow).2]
          rw [hone, hmoved, hids] at hupdated
          rw [hone, hmoved, if_pos (by simp)]
          refine .inl ⟨_, ?_, ?_, moves_takes hupdated (.jobId deadLetterId)⟩
          · rw [specified, jobIn_eq_some.2 ⟨hrow, hstatus⟩]
            rfl
          · rfl
        · have hmoved : [row].filter (·.status = .failed) = [] := by simp [hstatus]
          rw [hone, hmoved] at hupdated
          rw [hone, hmoved, if_neg (by simp)]
          by_cases hseen : m.snapshot.jobs.filter (fun row => decide (row.id = id)) = []
          · rw [if_pos hseen]
            exact .inr ⟨.jobNotFound, rfl, replaceRows_nil hupdated, (snapshot_eq_none m id).1 hseen⟩
          · rw [if_neg hseen, if_neg (by simp), if_pos (by simp [hstatus])]
            exact .inr ⟨.jobNotFailed, rfl, replaceRows_nil hupdated, row, .inr hrow, hstatus⟩

end Operator

section DeadLetters

variable {m : Moment π} {t t' : Tables π} {id : JobId}

theorem snapshot_deadLetter_eq_none (m : Moment π) (id : JobId) :
    m.snapshot.deadLetters.filter (fun row => decide (row.id = id)) = [] ↔
      m.snapshot.deadLetter? id = none := by
  rw [visible_deadLetters]
  cases m.snapshot.deadLetter? id <;> simp

theorem settled_deleteDeadLetterJob (m : Moment π) (t : Tables π) (id : JobId) :
    Settled m t (.deleteDeadLetterJob id) (call m (.deleteDeadLetterJob id) t) := by
  rw [call]
  cases hs : deleteDeadLetterJob m id t with
  | error e => exact .inr ⟨_, rfl, rfl, trivial⟩
  | ok reply =>
      obtain ⟨outcome, t'⟩ := reply
      obtain ⟨updated, hupdated, hreply⟩ := bind_eq_ok.1 hs
      obtain ⟨rfl, rfl⟩ := Prod.mk.inj (Except.ok.inj hreply)
      rcases lockDeadLetters_id m t id with hnil | ⟨row, hone, hrow⟩
      · rw [hnil] at hupdated ⊢
        rw [if_neg (by simp [deadLetterIds])]
        rcases hseen : m.snapshot.deadLetter? id with _ | seen
        · rw [if_neg (by simpa using (snapshot_deadLetter_eq_none m id).2 hseen)]
          exact .inr ⟨.deadLetterJobNotFound, rfl, replaceRows_nil hupdated, hseen⟩
        · rw [if_pos (by rw [Ne, snapshot_deadLetter_eq_none, hseen]; simp)]
          exact .inr ⟨.deadLetterJobLockedByConcurrentTransaction, rfl, replaceRows_nil hupdated,
            lockDeadLetters_eq_nil hnil hseen⟩
      · have hids : deadLetterIds [row] = [id] := by
          rw [deadLetterIds, map_singleton, (Tables.deadLetter?_eq_some.1 hrow).2]
        rw [hone, hids] at hupdated
        rw [hone, hids, if_pos (by simp)]
        refine .inl ⟨_, ?_, rfl, deleteDeadLetters_takes hupdated .done⟩
        rw [specified, hrow]
        rfl

/-- A requeue that fails on a constraint fails on the id of its new job. -/
theorem truthful_requeueError {newJobId : JobId} {runAt : Option Int} {e : StatementError}
    (h : requeueDeadLetterJob m id newJobId runAt t = .error e) :
    Truthful m t (.requeueDeadLetterJob id newJobId runAt) (mapRetryQueryError e) := by
  have hconflict : e ≠ .violation .dedupeActive := by
    rintro rfl
    have hviolation :=
      (@sound_requeueDeadLetterJob π m t id newJobId runAt).violation .dedupeActive (by rw [h]; rfl)
    cases hviolation
  have hdatabase : mapRetryQueryError e = .database e := by
    cases e with
    | violation c => cases c <;> first | rfl | exact absurd rfl hconflict
    | outOfRange => rfl
    | characterNotInRepertoire => rfl
  rw [hdatabase]
  trivial

/-- A requeue that inserts nothing. -/
theorem truthful_requeue {newJobId : JobId} {runAt : Option Int} {source visible conflict : Bool}
    (hvisible : visible = false → m.snapshot.deadLetter? id = none)
    (hsource : visible = true → source = false →
      m.lockedDeadLetters id = true ∨ t.deadLetter? id ≠ m.snapshot.deadLetter? id)
    (hconflict : source = true → ∃ row, t.deadLetter? id = some row ∧
      if conflict then ActiveDuplicate m t row.taskName row.dedupeKey fun _ => True
      else ActiveDuplicate m t row.taskName row.dedupeKey (· ∈ t.jobs)) :
    ∃ e, requeueDeadLetterJobResultFromRowState ⟨none, source, visible, conflict, false⟩ = .error e ∧
      Truthful m t (.requeueDeadLetterJob id newJobId runAt) e := by
  cases visible with
  | false => exact ⟨_, rfl, hvisible rfl⟩
  | true =>
      cases source with
      | false => exact ⟨_, rfl, hsource rfl rfl⟩
      | true =>
          cases conflict with
          | true => exact ⟨_, rfl, hconflict rfl⟩
          | false => exact ⟨_, rfl, hconflict rfl⟩

theorem settled_requeueDeadLetterJob (m : Moment π)
    (t : Tables π) (id newJobId : JobId) (runAt : Option Int) :
    Settled m t (.requeueDeadLetterJob id newJobId runAt)
      (call m (.requeueDeadLetterJob id newJobId runAt) t) := by
  rw [call]
  cases hs : requeueDeadLetterJob m id newJobId runAt t with
  | error e => exact .inr ⟨_, rfl, rfl, truthful_requeueError hs⟩
  | ok reply =>
      obtain ⟨outcome, t'⟩ := reply
      obtain ⟨inserted, hinserted, h⟩ := bind_eq_ok.1 hs
      obtain ⟨updated, hupdated, hreply⟩ := bind_eq_ok.1 h
      obtain ⟨rfl, rfl⟩ := Prod.mk.inj (Except.ok.inj hreply)
      have hvisible : decide (m.snapshot.deadLetters.filter (fun row => decide (row.id = id)) ≠
        []) = false →
          m.snapshot.deadLetter? id = none := by
        intro hnone
        exact (snapshot_deadLetter_eq_none m id).1 (by simpa using hnone)
      rcases lockDeadLetters_id m t id with hnil | ⟨row, hone, hrow⟩
      · rw [hnil] at hinserted hupdated ⊢
        obtain rfl : inserted = [] := by simpa using (mapM_eq_ok hinserted).length_eq.symm
        obtain ⟨e, he, htrue⟩ :=
          @truthful_requeue π m t id newJobId runAt false _ false hvisible (fun hseen _ => by
          have hsome : m.snapshot.deadLetter? id ≠ none := by
            rw [Ne, ← snapshot_deadLetter_eq_none]
            simpa using hseen
          obtain ⟨seen, hseen⟩ := Option.ne_none_iff_exists'.1 hsome
          exact lockDeadLetters_eq_nil hnil hseen) nofun
        exact .inr ⟨e, congrArg (Except.map Reply.jobId) he, replaceRows_nil hupdated, htrue⟩
      · rw [hone] at hinserted hupdated ⊢
        by_cases hconflict : m.snapshot.jobs.any (activeDedupeMatch row.taskName row.dedupeKey) = true ∨
            t.jobs.any (activeDedupeMatch row.taskName row.dedupeKey) = true
        · have hrequeued : [row].filter (fun source => !([row].any fun row =>
              m.snapshot.jobs.any (activeDedupeMatch row.taskName row.dedupeKey)) &&
              !t.jobs.any (activeDedupeMatch source.taskName source.dedupeKey)) = [] := by
            rcases hconflict with hconflict | hconflict <;> simp [hconflict]
          rw [hrequeued] at hinserted hupdated ⊢
          obtain rfl : inserted = [] := by simpa using (mapM_eq_ok hinserted).length_eq.symm
          obtain ⟨e, he, htrue⟩ :=
            @truthful_requeue π m t id newJobId runAt true _ ([row].any fun row =>
            m.snapshot.jobs.any (activeDedupeMatch row.taskName row.dedupeKey))
              hvisible nofun (fun _ => by
              refine ⟨row, hrow, ?_⟩
              cases hseen : m.snapshot.jobs.any (activeDedupeMatch row.taskName row.dedupeKey) with
              | true =>
                  obtain ⟨active, hactive, hmatch⟩ := any_eq_true.1 hseen
                  rw [if_pos (by simpa using hseen)]
                  exact ⟨active, .inl hactive, hmatch, trivial⟩
              | false =>
                  obtain ⟨active, hactive, hmatch⟩ :=
                    any_eq_true.1 (hconflict.resolve_left (by simp [hseen]))
                  rw [if_neg (by simpa using hseen)]
                  exact ⟨active, .inr hactive, hmatch, hactive⟩)
          exact .inr ⟨e, congrArg (Except.map Reply.jobId) he, replaceRows_nil hupdated, htrue⟩
        · simp only [not_or, Bool.not_eq_true] at hconflict
          have hrequeued : [row].filter (fun source => !([row].any fun row =>
              m.snapshot.jobs.any (activeDedupeMatch row.taskName row.dedupeKey)) &&
              !t.jobs.any (activeDedupeMatch source.taskName source.dedupeKey)) = [row] := by
            simp [hconflict.1, hconflict.2]
          have hids : deadLetterIds [row] = [id] := by
            rw [deadLetterIds, map_singleton, (Tables.deadLetter?_eq_some.1 hrow).2]
          rw [hrequeued] at hinserted hupdated ⊢
          obtain ⟨job, hjob, rfl⟩ := forall₂_singleton_left (mapM_eq_ok hinserted)
          obtain ⟨n, hn, hjob⟩ := bind_eq_ok.1 hjob
          obtain rfl := Except.ok.inj hjob
          rw [hids] at hupdated
          refine .inl ⟨_, ?_, ?_, requeues_takes hupdated (.jobId newJobId)⟩
          · rw [specified, hrow, toOption_runAtOrNow hn]
            rfl
          · rfl

end DeadLetters

section Claim

theorem call_settled (m : Moment π) (t : Tables π) (transition : Transition) :
    Settled m t transition (call m transition t) := by
  cases transition with
  | markOwnedRunningJobCompleted => exact settled_markOwnedRunningJobCompleted ..
  | markOwnedRunningJobFailed => exact settled_markOwnedRunningJobFailed ..
  | scheduleOwnedRunningJobRetry => exact settled_scheduleOwnedRunningJobRetry ..
  | moveOwnedRunningJobToDeadLetter => exact settled_moveOwnedRunningJobToDeadLetter ..
  | returnOwnedUnstartedRunningJobToPending => exact settled_returnOwnedUnstartedRunningJobToPending ..
  | returnOwnedStartedRunningJobToPending => exact settled_returnOwnedStartedRunningJobToPending ..
  | cancelPendingJob => exact settled_cancelPendingJob ..
  | retryFailedJob => exact settled_retryFailedJob ..
  | forceRequeueRunningJobById => exact settled_forceRequeueRunningJobById ..
  | moveFailedJobToDeadLetter => exact settled_moveFailedJobToDeadLetter ..
  | requeueDeadLetterJob => exact settled_requeueDeadLetterJob ..
  | deleteDeadLetterJob => exact settled_deleteDeadLetterJob ..

/-- A call succeeds where its transition took exactly its effect. Otherwise it changed
neither table, and the reason it gives is true. -/
theorem outcome_truthful (m : Moment π) (t : Tables π) (transition : Transition) :
    (∀ reply, (call m transition t).1 = .ok reply ↔ ∃ effect, specified m t transition = some effect ∧
      effect.reply = reply ∧ Takes t (call m transition t).2 effect) ∧
    ∀ e, (call m transition t).1 = .error e →
      (call m transition t).2 = t ∧ Truthful m t transition e := by
  rcases call_settled m t transition with ⟨effect, hspecified, hreply, htakes⟩ |
    ⟨e, he, hsame, htruthful⟩
  · refine ⟨fun reply => ⟨fun h => ?_, ?_⟩, fun e h => ?_⟩
    · rw [hreply, Except.ok.injEq] at h
      exact ⟨effect, hspecified, h, htakes⟩
    · rintro ⟨effect', hspecified', rfl, -⟩
      rw [hspecified, Option.some.injEq] at hspecified'
      rw [hreply, hspecified']
    · rw [hreply] at h
      cases h
  · refine ⟨fun reply => ⟨fun h => ?_, ?_⟩, fun e' h => ?_⟩
    · rw [he] at h
      cases h
    · rintro ⟨effect, hspecified, -, htakes⟩
      rw [hsame] at htakes
      exact absurd htakes (specified_changes hspecified)
    · rw [he, Except.error.injEq] at h
      exact ⟨hsame, h ▸ htruthful⟩

end Claim

end Paranoid.QueueOutcomes
