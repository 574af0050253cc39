import Paranoid.QueueRows
import Paranoid.TimeBounds

namespace Paranoid.QueueReclaim

open List QueueModel QueueStatements QueueOperations QueueEffects QueueChanges QueueRows QueueSoundness
open Postgres (bind_eq_error bind_eq_ok float8OfInt8 guard_eq_ok mapError_eq_error mapError_eq_ok
  mapM_eq_error mapM_eq_ok timestampMinusMicroseconds_eq_ok)
open TimeBounds (AdmissionError staleThresholdToMicroseconds)

variable {π : Type}

section Model

def maxQueueDeadLetterMoveBatchSize : Nat := 2048

def maxQueueReclaimBatchSize : Nat := maxQueueDeadLetterMoveBatchSize

inductive ReclaimError
  | threshold (error : AdmissionError)
  | reclaimBatchSizeIsZero
  | reclaimBatchSizeTooLarge (actual max : Nat)
  | deadLetterMoveBatchSizeTooLarge (actual max : Nat)
  | duplicateJobIdInDeadLetterMoveBatch (jobId : JobId)
  | randomId
  | statement (error : StatementError)

/-- What a transaction has changed so far: jobs, and dead letters that it has inserted. -/
structure Own where
  jobs : List JobId
  deadLetters : List JobId

/-- What stands before a statement of a transaction: other transactions commit changes, but none to the
jobs that it has changed, which it holds locked, nor to its dead letters, which they do not see yet; and
the statement is shown these jobs as they are. -/
structure Turn (π : Type) where
  others : Own → Tables π → Tables π
  moment : Own → Tables π → Moment π
  leaves : ∀ own t, ∀ id ∈ own.jobs, (others own t).job? id = t.job? id
  keeps : ∀ own t, ∀ row ∈ t.deadLetters, row.id ∈ own.deadLetters → row ∈ (others own t).deadLetters
  shows : ∀ own t, ∀ id ∈ own.jobs, (moment own t).snapshot.job? id = t.job? id
  holds : ∀ own t, ∀ id ∈ own.jobs, (moment own t).lockedJobs id = false

/-- A turn in which nobody else does anything. -/
def Turn.alone (now : Int) : Turn π where
  others := fun _ t => t
  moment := fun _ t => ⟨now, t, fun _ => false, fun _ => false⟩
  leaves := fun _ _ _ _ => rfl
  keeps := fun _ _ _ hrow _ => hrow
  shows := fun _ _ _ _ => rfl
  holds := fun _ _ _ _ => rfl

def Turn.run {α : Type} (turn : Turn π) (own : Own)
    (statement : Moment π → Tables π → Except StatementError (α × Tables π)) (t : Tables π) :
    Except ReclaimError (α × Tables π) :=
  (statement (turn.moment own (turn.others own t)) (turn.others own t)).mapError .statement

def validateReclaimBatchSize (batchSize : Nat) : Except ReclaimError Unit := do
  if batchSize = 0 then throw .reclaimBatchSizeIsZero
  if maxQueueReclaimBatchSize < batchSize then
    throw (.reclaimBatchSizeTooLarge batchSize maxQueueReclaimBatchSize)

/-- The first id that has come before. -/
def firstRepeated (seen : List JobId) : List JobId → Option JobId
  | [] => none
  | id :: ids => if id ∈ seen then some id else firstRepeated (id :: seen) ids

/-- The dead letters get new ids, which the `n`-th call of the generator draws. -/
def moveFailedJobsToDeadLetterBatch (newJobId : Nat → Option JobId) (turn : Turn π)
    (own : Own) (jobIds : List JobId) (reason : DeadLetterReason) (t : Tables π) :
    Except ReclaimError (List (DeadLetterRow π) × Tables π) := do
  if jobIds = [] then return ([], t)
  if maxQueueDeadLetterMoveBatchSize < jobIds.length then
    throw (.deadLetterMoveBatchSizeTooLarge jobIds.length maxQueueDeadLetterMoveBatchSize)
  match firstRepeated [] jobIds with
  | some id => throw (.duplicateJobIdInDeadLetterMoveBatch id)
  | none => do
      let deadLetterIds ← (range jobIds.length).mapM fun n => (newJobId n).elim (.error .randomId) .ok
      turn.run own (fun m t => QueueOperations.moveFailedJobsToDeadLetterBatch m (jobIds.zip deadLetterIds)
        reason t) t

structure ReclaimStaleRunningJobsResult (π : Type) where
  neverStartedJobsReturnedToPending : List JobId
  expiredJobsMovedToFailed : List JobId
  expiredJobsMovedToDeadLetter : List (DeadLetterRow π)
  expiredJobsReturnedToPendingForRetry : List JobId

/-- What stands before each statement of the pass. -/
structure Turns (π : Type) where
  neverStarted : Turn π
  toFailed : Turn π
  toDeadLetter : Turn π
  toPending : Turn π

/-- One transaction of four statements. -/
def reclaimAvailableStaleRunningJobsOnceInCurrentTransaction (turns : Turns π)
    (newJobId : Nat → Option JobId) (staleThreshold reclaimBatchSize : Nat)
    (moveExpiredMaxRetryJobsToDeadLetter : Bool) (t : Tables π) :
    Except ReclaimError (ReclaimStaleRunningJobsResult π × Tables π) := do
  let staleThresholdMicroseconds ← (staleThresholdToMicroseconds staleThreshold).mapError .threshold
  validateReclaimBatchSize reclaimBatchSize
  let (neverStarted, t) ← turns.neverStarted.run ⟨[], []⟩ (fun m t =>
    reclaimNeverStartedRunningJobs m staleThresholdMicroseconds reclaimBatchSize t) t
  let (failed, t) ← turns.toFailed.run ⟨neverStarted, []⟩ (fun m t =>
    reclaimExpiredRunningJobsToFailed m staleThresholdMicroseconds reclaimBatchSize t) t
  let (moved, t) ← (if moveExpiredMaxRetryJobsToDeadLetter then
      moveFailedJobsToDeadLetterBatch newJobId turns.toDeadLetter ⟨neverStarted ++ failed, []⟩
        failed .executionExpired t
    else .ok ([], t))
  let (retried, t) ← turns.toPending.run ⟨neverStarted ++ failed, deadLetterIds moved⟩ (fun m t =>
    reclaimExpiredRunningJobsToPendingForRetry m staleThresholdMicroseconds reclaimBatchSize t) t
  return (⟨neverStarted, failed, moved, retried⟩, t)

end Model

section Statements

variable {m : Moment π} {t t' : Tables π} {matching : JobRow π → Bool} {ids : List JobId} {batchSize : Nat}
  {after : JobRow π → JobRow π}

/-- What a statement of the pass does: it takes rows that match, each once and at most so many, leaves
each as `after` says and all others as they were, and takes all that it is shown where it takes fewer. -/
structure Takes (m : Moment π) (matching : JobRow π → Bool) (after : JobRow π → JobRow π) (batchSize : Nat)
    (t t' : Tables π) (ids : List JobId) : Prop where
  nodup : ids.Nodup
  bounded : ids.length ≤ batchSize
  taken : ∀ id ∈ ids, ∃ row, t.job? id = some row ∧ matching row ∧ t'.job? id = some (after row)
  others : ∀ id ∉ ids, t'.job? id = t.job? id
  deadLetters : t'.deadLetters = t.deadLetters
  all : ids.length < batchSize → ∀ id row, t.job? id = some row → m.snapshot.job? id = some row →
    matching row → m.lockedJobs id = false → id ∈ ids

theorem lockFirstJobs_nodup {κ : Type} [LinearOrder κ] (m : Moment π) (t : Tables π)
    (matching : JobRow π → Bool) (sortKey : JobRow π → κ) (limit : Nat) :
    (jobIds (lockFirstJobs m t matching sortKey limit)).Nodup := by
  have hkeys := ((perm_insertionSort (fun a b => sortKey a ≤ sortKey b) m.snapshot.jobs).map
    JobRow.id).nodup_iff.2 (m.snapshot.constraints .primaryKey)
  refine ((take_sublist limit _).map JobRow.id).nodup (lockRows_nodup ?_ hkeys)
  intro id row hrow
  exact (Tables.job?_eq_some.1 hrow).2

theorem takes_update {set : JobRow π → Except StatementError (JobRow π)}
    (hset : ∀ row row', set row = .ok row' → row' = after row) (hid : ∀ row, (after row).id = row.id)
    (h : updateJobs t (jobIds (lockFirstJobs m t matching heartbeatOrder batchSize)) set = .ok t') :
    Takes m matching after batchSize t t'
      (jobIds (lockFirstJobs m t matching heartbeatOrder batchSize)) := by
  have hid' : ∀ row row', set row = .ok row' → row'.id = row.id := by
    intro row row' hrow
    rw [hset row row' hrow, hid]
  refine ⟨lockFirstJobs_nodup m t matching heartbeatOrder batchSize, ?_, ?_,
    fun id hother => updateJobs_job?_other hid' h hother, ?_, ?_⟩
  · rw [jobIds, length_map, lockFirstJobs]
    exact length_take_le _ _
  · intro id hmem
    obtain ⟨row, hrow, rfl⟩ := mem_map.1 hmem
    obtain ⟨hin, hmatch, -⟩ := mem_lockFirstJobs hrow
    obtain ⟨row', hrow', hupdated⟩ := updateJobs_job? hid' h (Tables.job?_of_mem hin)
    rw [if_pos hmem] at hupdated
    rw [hset row row' hupdated] at hrow'
    exact ⟨row, Tables.job?_of_mem hin, hmatch, hrow'⟩
  · exact (updateJobs_eq_ok h).2.1
  · intro hshort id row hrow hshown hmatch hfree
    obtain ⟨hseen, rfl⟩ := Tables.job?_eq_some.1 hshown
    have hsorted : row ∈ m.snapshot.jobs.insertionSort fun a b => heartbeatOrder a ≤ heartbeatOrder b :=
      (mem_insertionSort _).2 hseen
    have hlock := mem_lockRows.2 ⟨hmatch, row, hsorted, hmatch, hfree, hrow⟩
    -- a batch that is not full holds all rows that were locked
    have hall : row ∈ lockFirstJobs m t matching heartbeatOrder batchSize := by
      rw [lockFirstJobs, take_of_length_le]
      · exact hlock
      · rw [jobIds, length_map, lockFirstJobs, length_take] at hshort
        omega
    exact mem_map_of_mem hall

/-- A job that has been reclaimed after it started, with its retry counted and its error noted. -/
def expired (now : Int) (status : JobStatus) (finishedAt : Option Int) (row : JobRow π) : JobRow π :=
  { clearWorkerRuntime finishedAt row with
    status, retryCount := row.retryCount + 1, lastError := some (appendStaleExecutionError row.lastError),
    updatedAt := now }

def neverStarted (cutoff : Int) (row : JobRow π) : Bool := stale cutoff row && row.executionStartedAt.isNone

def exhausted (cutoff : Int) (row : JobRow π) : Bool :=
  stale cutoff row && row.executionStartedAt.isSome && row.maxRetries ≤ row.retryCount

def retryable (cutoff : Int) (row : JobRow π) : Bool :=
  stale cutoff row && row.executionStartedAt.isSome && row.retryCount < row.maxRetries

variable {threshold : Int}

/-- The heartbeat that a job must have had since. -/
def cutoffOf (m : Moment π) (threshold : Int) : Int := m.now - float8OfInt8 threshold

theorem sql_cutoff {cutoff : Int}
    (h : sql (Postgres.timestampMinusMicroseconds m.now threshold) = .ok cutoff) :
    cutoff = cutoffOf m threshold :=
  timestampMinusMicroseconds_eq_ok (mapError_eq_ok.1 h)

theorem takes_neverStarted (h : reclaimNeverStartedRunningJobs m threshold batchSize t = .ok (ids, t')) :
    Takes m (neverStarted (cutoffOf m threshold)) (returnToPending m.now) batchSize t t' ids := by
  obtain ⟨cutoff, hcutoff, h⟩ := bind_eq_ok.1 h
  obtain rfl := sql_cutoff hcutoff
  obtain ⟨updated, hupdate, h⟩ := bind_eq_ok.1 h
  cases h
  exact takes_update (fun row row' hrow => (Except.ok.inj hrow).symm) (fun _ => rfl) hupdate

/-- What both reclaims of a started job write. -/
theorem expired_of_reclaimed {status : JobStatus} {finishedAt : Option Int} {row row' : JobRow π}
    (h : (do
      return { clearWorkerRuntime finishedAt row with
        status, retryCount := ← incrementRetryCount true row,
        lastError := some (appendStaleExecutionError row.lastError), updatedAt := m.now } :
          Except StatementError (JobRow π)) = .ok row') :
    row' = expired m.now status finishedAt row := by
  obtain ⟨count, hcount, h⟩ := bind_eq_ok.1 h
  cases h
  rw [incrementRetryCount_eq_ok hcount]
  rfl

theorem takes_toFailed (h : reclaimExpiredRunningJobsToFailed m threshold batchSize t = .ok (ids, t')) :
    Takes m (exhausted (cutoffOf m threshold)) (expired m.now .failed (some m.now)) batchSize t t' ids := by
  obtain ⟨cutoff, hcutoff, h⟩ := bind_eq_ok.1 h
  obtain rfl := sql_cutoff hcutoff
  obtain ⟨updated, hupdate, h⟩ := bind_eq_ok.1 h
  cases h
  exact takes_update (fun _ _ => expired_of_reclaimed) (fun _ => rfl) hupdate

theorem takes_toPending
    (h : reclaimExpiredRunningJobsToPendingForRetry m threshold batchSize t = .ok (ids, t')) :
    Takes m (retryable (cutoffOf m threshold)) (expired m.now .pending none) batchSize t t' ids := by
  obtain ⟨cutoff, hcutoff, h⟩ := bind_eq_ok.1 h
  obtain rfl := sql_cutoff hcutoff
  obtain ⟨updated, hupdate, h⟩ := bind_eq_ok.1 h
  cases h
  exact takes_update (fun _ _ => expired_of_reclaimed) (fun _ => rfl) hupdate

/-- Rows that the statement does not match stay. -/
theorem Takes.unmatched (h : Takes m matching after batchSize t t' ids) {id : JobId}
    (hid : ∀ row, t.job? id = some row → matching row = false) : id ∉ ids ∧ t'.job? id = t.job? id := by
  have hnot : id ∉ ids := by
    intro hmem
    obtain ⟨row, hrow, hmatch, -⟩ := h.taken id hmem
    rw [hid row hrow] at hmatch
    cases hmatch
  exact ⟨hnot, h.others id hnot⟩

end Statements

section Settled

variable {m : Moment π} {t t' : Tables π} {matching : JobRow π → Bool} {ids : List JobId} {batchSize : Nat}
  {after : JobRow π → JobRow π} {own : Own} {id : JobId}

/-- The job is not running, or there is none. -/
def Settled (t : Tables π) (id : JobId) : Prop := ∀ row, t.job? id = some row → row.status ≠ .running

theorem Settled.congr (h : Settled t id) (heq : t'.job? id = t.job? id) : Settled t' id := by
  intro row hrow
  exact h row (heq.symm.trans hrow)

theorem settled_some {row : JobRow π} (h : t.job? id = some row) (hstatus : row.status ≠ .running) :
    Settled t id := by
  intro other hother
  rw [h] at hother
  cases hother
  exact hstatus

theorem running_exhausted {cutoff : Int} {row : JobRow π} (h : exhausted cutoff row) :
    row.status = .running := by
  rw [exhausted, Bool.and_eq_true, Bool.and_eq_true] at h
  exact running_of_stale h.1.1

theorem running_retryable {cutoff : Int} {row : JobRow π} (h : retryable cutoff row) :
    row.status = .running := by
  rw [retryable, Bool.and_eq_true, Bool.and_eq_true] at h
  exact running_of_stale h.1.1

/-- A statement that takes running jobs leaves what is settled, and settles what it takes. -/
theorem Takes.settled (h : Takes m matching after batchSize t t' ids)
    (hmatching : ∀ row, matching row → row.status = .running) (hid : Settled t id) :
    id ∉ ids ∧ t'.job? id = t.job? id :=
  h.unmatched fun row hrow => Bool.eq_false_iff.2 fun hmatch => hid row hrow (hmatching row hmatch)

theorem Takes.settles (h : Takes m matching after batchSize t t' ids)
    (hafter : ∀ row, (after row).status ≠ .running) (hid : id ∈ ids) : Settled t' id := by
  obtain ⟨row, -, -, hrow⟩ := h.taken id hid
  exact settled_some hrow (hafter row)

end Settled

section DeadLetters

variable {m : Moment π} {t t' : Tables π} {ids : List JobId}

theorem firstRepeated_eq_none {seen ids : List JobId} (hnodup : ids.Nodup) (hseen : ∀ id ∈ ids, id ∉ seen) :
    firstRepeated seen ids = none := by
  induction ids generalizing seen with
  | nil => rfl
  | cons id ids ih =>
      rw [nodup_cons] at hnodup
      rw [firstRepeated, if_neg (hseen id mem_cons_self)]
      apply ih hnodup.2
      intro other hother hmem
      rcases mem_cons.1 hmem with rfl | hmem
      · exact hnodup.1 hother
      · exact hseen other (mem_cons_of_mem _ hother) hmem

theorem lookup_zip_isSome {ids newIds : List JobId} (hlength : ids.length ≤ newIds.length) (id : JobId) :
    ((ids.zip newIds).lookup id).isSome = decide (id ∈ ids) := by
  induction ids generalizing newIds with
  | nil => rfl
  | cons other ids ih =>
      cases newIds with
      | nil => simp at hlength
      | cons newId newIds =>
          rw [zip_cons_cons, lookup_cons]
          by_cases hid : id = other
          · simp [hid]
          · rw [beq_false_of_ne hid]
            dsimp only
            rw [ih (by simpa using hlength)]
            simp [hid]

/-- What the batch moves: the jobs that it is given, if they have failed, are shown and are not held by
others. -/
structure Moves (t t' : Tables π) (ids : List JobId) (reason : DeadLetterReason)
    (moved : List (DeadLetterRow π)) : Prop where
  perm : (moved.map DeadLetterRow.originalJobId).Perm ids
  gone : ∀ id ∈ ids, t'.job? id = none
  others : ∀ id ∉ ids, t'.job? id = t.job? id
  letters : ∀ deadLetter ∈ moved, deadLetter ∈ t'.deadLetters ∧ ∃ row now newId,
    t.job? deadLetter.originalJobId = some row ∧ deadLetter = failedDeadLetter now newId reason row

theorem moves_batch {newIds : List JobId} {reason : DeadLetterReason} {moved : List (DeadLetterRow π)}
    (hnodup : ids.Nodup) (hlength : newIds.length = ids.length)
    (hfailed : ∀ id ∈ ids, ∃ row, t.job? id = some row ∧ row.status = .failed)
    (hshown : ∀ id ∈ ids, m.snapshot.job? id = t.job? id) (hfree : ∀ id ∈ ids, m.lockedJobs id = false)
    (h : QueueOperations.moveFailedJobsToDeadLetterBatch m (ids.zip newIds) reason t = .ok (moved, t')) :
    Moves t t' ids reason moved := by
  obtain ⟨updated, hreplace, h⟩ := bind_eq_ok.1 h
  cases h
  obtain ⟨hjobs, hdead, -⟩ := replaceRows_eq_ok hreplace
  let matching : JobRow π → Bool := fun row =>
    ((ids.zip newIds).lookup row.id).isSome && row.status = .failed
  have hmem : ∀ id, id ∈ jobIds (lockJobs m t matching) ↔ id ∈ ids := by
    intro id
    constructor
    · intro hmem
      obtain ⟨row, hrow, rfl⟩ := mem_map.1 hmem
      obtain ⟨-, hmatch, -⟩ := mem_lockJobs hrow
      simp only [matching, lookup_zip_isSome hlength.ge, Bool.and_eq_true, decide_eq_true_eq] at hmatch
      exact hmatch.1
    · intro hmem
      obtain ⟨row, hrow, hstatus⟩ := hfailed id hmem
      obtain ⟨-, rfl⟩ := Tables.job?_eq_some.1 hrow
      have hmatch : matching row := by
        simp only [matching, lookup_zip_isSome hlength.ge, Bool.and_eq_true, decide_eq_true_eq]
        exact ⟨hmem, hstatus⟩
      have hseen : row ∈ m.snapshot.jobs := by
        have hshow := hshown row.id hmem
        rw [hrow] at hshow
        exact (Tables.job?_eq_some.1 hshow).1
      exact mem_map_of_mem (mem_lockRows.2 ⟨hmatch, row, hseen, hmatch, hfree row.id hmem, hrow⟩)
  have hperm : (jobIds (lockJobs m t matching)).Perm ids :=
    (perm_ext_iff_of_nodup (lockJobs_nodup m t matching) hnodup).2 hmem
  have hother : ∀ id ∉ ids, t'.job? id = t.job? id := by
    intro id hid
    apply Option.ext
    intro row
    rw [Tables.job?_eq_some, Tables.job?_eq_some, hjobs, append_nil, mem_filter]
    apply and_congr_left
    rintro rfl
    exact and_iff_left (decide_eq_true ((hmem row.id).not.2 hid))
  refine ⟨?_, ?_, hother, ?_⟩
  · rw [map_map]
    exact hperm
  · intro id hid
    rw [Tables.job?_eq_none, hjobs, append_nil]
    intro row hrow hrowId
    have hkept := (mem_filter.1 hrow).2
    rw [hrowId] at hkept
    exact of_decide_eq_true hkept ((hmem id).2 hid)
  · intro deadLetter hmoved
    refine ⟨?_, ?_⟩
    · rw [hdead]
      exact mem_append_right _ hmoved
    · obtain ⟨row, hrow, rfl⟩ := mem_map.1 hmoved
      exact ⟨row, m.now, _, Tables.job?_of_mem (mem_lockJobs hrow).1, rfl⟩

end DeadLetters

section Turns

variable {turn : Turn π} {own : Own} {threshold cutoff : Int} {matching : Int → JobRow π → Bool}
  {after : Int → JobRow π → JobRow π} {batchSize : Nat} {t t' : Tables π} {ids : List JobId} {id : JobId}
  {row : JobRow π}

/-- Where the job stands when a statement runs, and when that is. -/
def Turn.Finds (turn : Turn π) (own : Own) (t : Tables π) (id : JobId) (row : JobRow π) (now : Int) :
    Prop :=
  (turn.others own t).job? id = some row ∧ (turn.moment own (turn.others own t)).now = now

/-- The turn leaves the job to the pass: it does not change it, is shown it, finds it free, and stands at
a time that makes the cutoff at least this. -/
structure Turn.LetsAlone (turn : Turn π) (threshold cutoff : Int) (id : JobId) : Prop where
  leaves : ∀ own t, (turn.others own t).job? id = t.job? id
  shows : ∀ own t, (turn.moment own t).snapshot.job? id = t.job? id
  free : ∀ own t, (turn.moment own t).lockedJobs id = false
  late : ∀ own t, cutoff ≤ cutoffOf (turn.moment own t) threshold

/-- What a turn and its statement do. -/
def Turn.Took (turn : Turn π) (own : Own) (threshold : Int) (matching : Int → JobRow π → Bool)
    (after : Int → JobRow π → JobRow π) (batchSize : Nat) (t t' : Tables π) (ids : List JobId) : Prop :=
  let before := turn.others own t
  let m := turn.moment own before
  Takes m (matching (cutoffOf m threshold)) (after m.now) batchSize before t' ids

theorem Turn.Took.keepsOwn (h : turn.Took own threshold matching after batchSize t t' ids)
    (hmatching : ∀ cutoff row, matching cutoff row → row.status = .running) (hown : id ∈ own.jobs)
    (hid : Settled t id) : id ∉ ids ∧ t'.job? id = t.job? id := by
  have hleaves := turn.leaves own t id hown
  obtain ⟨hnot, hsame⟩ := Takes.settled h (hmatching _) (hid.congr hleaves)
  exact ⟨hnot, hsame.trans hleaves⟩

theorem Turn.Took.settles (h : turn.Took own threshold matching after batchSize t t' ids)
    (hafter : ∀ now row, (after now row).status ≠ .running) (hid : id ∈ ids) : Settled t' id :=
  Takes.settles h (hafter _) hid

theorem Turn.Took.finds (h : turn.Took own threshold matching after batchSize t t' ids) (hid : id ∈ ids) :
    ∃ row now, turn.Finds own t id row now ∧ matching (now - float8OfInt8 threshold) row ∧
      t'.job? id = some (after now row) := by
  obtain ⟨row, hrow, hmatch, hafter⟩ := Takes.taken h id hid
  exact ⟨row, _, ⟨hrow, rfl⟩, hmatch, hafter⟩

theorem Turn.Took.alone (h : turn.Took own threshold matching after batchSize t t' ids)
    (halone : turn.LetsAlone threshold cutoff id) : id ∉ ids → t'.job? id = t.job? id := by
  intro hid
  exact (Takes.others h id hid).trans (halone.leaves own t)

theorem Turn.Took.all (h : turn.Took own threshold matching after batchSize t t' ids)
    (hshort : ids.length < batchSize) (halone : turn.LetsAlone threshold cutoff id)
    (hrow : t.job? id = some row) (hmatch : ∀ later, cutoff ≤ later → matching later row) : id ∈ ids := by
  have hbefore := (halone.leaves own t).trans hrow
  exact Takes.all h hshort id row hbefore ((halone.shows _ _).trans hbefore) (hmatch _ (halone.late _ _))
    (halone.free _ _)

end Turns

section Account

/-- The tables that each of the first three statements leaves. -/
structure Stages (π : Type) where
  returned : Tables π
  failed : Tables π
  moved : Tables π

def Own.afterFirst (result : ReclaimStaleRunningJobsResult π) : Own :=
  ⟨result.neverStartedJobsReturnedToPending, []⟩

def Own.afterSecond (result : ReclaimStaleRunningJobsResult π) : Own :=
  ⟨result.neverStartedJobsReturnedToPending ++ result.expiredJobsMovedToFailed, []⟩

def Own.afterThird (result : ReclaimStaleRunningJobsResult π) : Own :=
  ⟨result.neverStartedJobsReturnedToPending ++ result.expiredJobsMovedToFailed,
    deadLetterIds result.expiredJobsMovedToDeadLetter⟩

/-- What a pass has done that began with the tables `t` and ends with the tables `t'`. -/
structure Account (turns : Turns π) (threshold : Int) (batchSize : Nat) (move : Bool) (t : Tables π)
    (stages : Stages π) (result : ReclaimStaleRunningJobsResult π) (t' : Tables π) : Prop where
  once : (result.neverStartedJobsReturnedToPending ++ result.expiredJobsMovedToFailed ++
    result.expiredJobsReturnedToPendingForRetry).Nodup
  neverStarted : ∀ id ∈ result.neverStartedJobsReturnedToPending, ∃ row now,
    turns.neverStarted.Finds ⟨[], []⟩ t id row now ∧ neverStarted (now - float8OfInt8 threshold) row ∧
      t'.job? id = some (returnToPending now row)
  failed : ∀ id ∈ result.expiredJobsMovedToFailed, ∃ row now,
    turns.toFailed.Finds (.afterFirst result) stages.returned id row now ∧
      exhausted (now - float8OfInt8 threshold) row ∧
      if move then
        t'.job? id = none ∧ ∃ moved newId, failedDeadLetter moved newId .executionExpired
          (expired now .failed (some now) row) ∈ t'.deadLetters
      else t'.job? id = some (expired now .failed (some now) row)
  retried : ∀ id ∈ result.expiredJobsReturnedToPendingForRetry, ∃ row now,
    turns.toPending.Finds (.afterThird result) stages.moved id row now ∧
      retryable (now - float8OfInt8 threshold) row ∧ t'.job? id = some (expired now .pending none row)
  deadLetters : (result.expiredJobsMovedToDeadLetter.map DeadLetterRow.originalJobId).Perm
    (if move then result.expiredJobsMovedToFailed else [])
  inserted : ∀ deadLetter ∈ result.expiredJobsMovedToDeadLetter, deadLetter ∈ t'.deadLetters
  all : result.neverStartedJobsReturnedToPending.length < batchSize →
    result.expiredJobsMovedToFailed.length < batchSize →
    result.expiredJobsReturnedToPendingForRetry.length < batchSize →
    ∀ id row cutoff, turns.neverStarted.LetsAlone threshold cutoff id →
      turns.toFailed.LetsAlone threshold cutoff id → turns.toDeadLetter.LetsAlone threshold cutoff id →
      turns.toPending.LetsAlone threshold cutoff id → t.job? id = some row → stale cutoff row →
      id ∈ result.neverStartedJobsReturnedToPending ++ result.expiredJobsMovedToFailed ++
        result.expiredJobsReturnedToPendingForRetry

/-- The errors of a pass: its own batch of dead letters is never refused. -/
def Rejected (staleThreshold batchSize : Nat) (move : Bool) : ReclaimError → Prop
  | .threshold error => staleThresholdToMicroseconds staleThreshold = .error error
  | .reclaimBatchSizeIsZero => batchSize = 0
  | .reclaimBatchSizeTooLarge actual max =>
      actual = batchSize ∧ max = maxQueueReclaimBatchSize ∧ maxQueueReclaimBatchSize < batchSize
  | .deadLetterMoveBatchSizeTooLarge .. => False
  | .duplicateJobIdInDeadLetterMoveBatch _ => False
  | .randomId => move
  | .statement _ => True

/-- What each statement of a pass does. -/
structure Passed (turns : Turns π) (threshold : Int) (batchSize : Nat) (move : Bool) (t : Tables π)
    (stages : Stages π) (result : ReclaimStaleRunningJobsResult π) (t' : Tables π) : Prop where
  first : turns.neverStarted.Took ⟨[], []⟩ threshold neverStarted returnToPending batchSize t
    stages.returned result.neverStartedJobsReturnedToPending
  second : turns.toFailed.Took (.afterFirst result) threshold exhausted
    (fun now => expired now .failed (some now)) batchSize stages.returned stages.failed
    result.expiredJobsMovedToFailed
  -- there is no statement where there is nothing to move
  third : if move then
      ∃ before ∈ [stages.failed, turns.toDeadLetter.others (.afterSecond result) stages.failed],
        Moves before stages.moved result.expiredJobsMovedToFailed .executionExpired
          result.expiredJobsMovedToDeadLetter
    else stages.moved = stages.failed ∧ result.expiredJobsMovedToDeadLetter = []
  fourth : turns.toPending.Took (.afterThird result) threshold retryable
    (fun now => expired now .pending none) batchSize stages.moved t'
    result.expiredJobsReturnedToPendingForRetry

end Account

section Pass

variable {turns : Turns π} {threshold : Int} {batchSize : Nat} {move : Bool} {t t' : Tables π}
  {stages : Stages π} {result : ReclaimStaleRunningJobsResult π} {id : JobId}

/-- What the third statement is not given stays. -/
theorem third_other (h : Passed turns threshold batchSize move t stages result t')
    (hid : id ∉ result.expiredJobsMovedToFailed)
    (hleaves : (turns.toDeadLetter.others (.afterSecond result) stages.failed).job? id =
      stages.failed.job? id) : stages.moved.job? id = stages.failed.job? id := by
  have hthird := h.third
  split at hthird
  · obtain ⟨before, hbefore, hmoves⟩ := hthird
    rw [hmoves.others id hid]
    rcases mem_pair.1 hbefore with rfl | rfl
    · rfl
    · exact hleaves
  · rw [hthird.1]

theorem never_kept (h : Passed turns threshold batchSize move t stages result t')
    (hid : id ∈ result.neverStartedJobsReturnedToPending) :
    id ∉ result.expiredJobsMovedToFailed ∧ id ∉ result.expiredJobsReturnedToPendingForRetry ∧
      t'.job? id = stages.returned.job? id := by
  have hsettled := h.first.settles (fun _ _ => by simp [returnToPending]) hid
  obtain ⟨hfailed, hsecond⟩ := h.second.keepsOwn (fun _ _ => running_exhausted) hid hsettled
  have hown : id ∈ (Own.afterSecond result).jobs := mem_append_left _ hid
  have hthird := third_other h hfailed (turns.toDeadLetter.leaves _ _ id hown)
  have hmoved := hthird.trans hsecond
  obtain ⟨hretried, hfourth⟩ :=
    h.fourth.keepsOwn (fun _ _ => running_retryable) hown (hsettled.congr hmoved)
  exact ⟨hfailed, hretried, hfourth.trans hmoved⟩

theorem failed_kept (h : Passed turns threshold batchSize move t stages result t')
    (hid : id ∈ result.expiredJobsMovedToFailed) :
    id ∉ result.expiredJobsReturnedToPendingForRetry ∧
      t'.job? id = if move then none else stages.failed.job? id := by
  have hown : id ∈ (Own.afterThird result).jobs := mem_append_right _ hid
  have hmoved : stages.moved.job? id = if move then none else stages.failed.job? id := by
    have hthird := h.third
    split at hthird
    · obtain ⟨before, -, hmoves⟩ := hthird
      rw [if_pos ‹_›, hmoves.gone id hid]
    · rw [if_neg ‹_›, hthird.1]
  have hsettled : Settled stages.moved id := by
    split at hmoved
    · intro row hrow
      rw [hmoved] at hrow
      cases hrow
    · exact (h.second.settles (fun _ _ => by simp [expired]) hid).congr hmoved
  obtain ⟨hretried, hfourth⟩ := h.fourth.keepsOwn (fun _ _ => running_retryable) hown hsettled
  exact ⟨hretried, hfourth.trans hmoved⟩

theorem once (h : Passed turns threshold batchSize move t stages result t') :
    (result.neverStartedJobsReturnedToPending ++ result.expiredJobsMovedToFailed ++
      result.expiredJobsReturnedToPendingForRetry).Nodup := by
  rw [nodup_append', nodup_append', disjoint_append_left]
  refine ⟨⟨Takes.nodup h.first, Takes.nodup h.second, ?_⟩, Takes.nodup h.fourth, ?_, ?_⟩
  · intro id hnever hfailed
    exact (never_kept h hnever).1 hfailed
  · intro id hnever hretried
    exact (never_kept h hnever).2.1 hretried
  · intro id hfailed hretried
    exact (failed_kept h hfailed).1 hretried

theorem inserted (h : Passed turns threshold batchSize move t stages result t')
    {deadLetter : DeadLetterRow π} (hmem : deadLetter ∈ result.expiredJobsMovedToDeadLetter) :
    deadLetter ∈ t'.deadLetters := by
  have hmoved : deadLetter ∈ stages.moved.deadLetters := by
    have hthird := h.third
    split at hthird
    · obtain ⟨before, -, hmoves⟩ := hthird
      exact (hmoves.letters deadLetter hmem).1
    · rw [hthird.2] at hmem
      cases hmem
  rw [Takes.deadLetters h.fourth]
  exact turns.toPending.keeps _ _ _ hmoved (mem_map_of_mem hmem)

theorem failed_account (h : Passed turns threshold batchSize move t stages result t')
    (hid : id ∈ result.expiredJobsMovedToFailed) : ∃ row now,
    turns.toFailed.Finds (.afterFirst result) stages.returned id row now ∧
      exhausted (now - float8OfInt8 threshold) row ∧
      if move then
        t'.job? id = none ∧ ∃ moved newId, failedDeadLetter moved newId .executionExpired
          (expired now .failed (some now) row) ∈ t'.deadLetters
      else t'.job? id = some (expired now .failed (some now) row) := by
  obtain ⟨row, now, hfinds, hmatch, hfailed⟩ := h.second.finds hid
  refine ⟨row, now, hfinds, hmatch, ?_⟩
  obtain ⟨-, hafter⟩ := failed_kept h hid
  have hthird := h.third
  split at hthird
  · rename_i hmove
    rw [if_pos hmove] at hafter ⊢
    refine ⟨hafter, ?_⟩
    obtain ⟨before, hbefore, hmoves⟩ := hthird
    -- the dead letter holds the row that the second statement has left
    have hstands : before.job? id = some (expired now .failed (some now) row) := by
      rcases mem_pair.1 hbefore with rfl | rfl
      · exact hfailed
      · exact (turns.toDeadLetter.leaves _ _ id (mem_append_right _ hid)).trans hfailed
    obtain ⟨deadLetter, hmem, hletter⟩ := mem_map.1 (hmoves.perm.mem_iff.2 hid)
    obtain ⟨-, source, moved, newId, hsource, rfl⟩ := hmoves.letters deadLetter hmem
    rw [hletter, hstands] at hsource
    cases hsource
    exact ⟨moved, newId, inserted h hmem⟩
  · rename_i hmove
    rw [if_neg hmove] at hafter ⊢
    exact hafter.trans hfailed

theorem deadLetters_account (h : Passed turns threshold batchSize move t stages result t') :
    (result.expiredJobsMovedToDeadLetter.map DeadLetterRow.originalJobId).Perm
      (if move then result.expiredJobsMovedToFailed else []) := by
  have hthird := h.third
  split at hthird
  · obtain ⟨before, -, hmoves⟩ := hthird
    rw [if_pos ‹_›]
    exact hmoves.perm
  · rw [if_neg ‹_›, hthird.2]
    rfl

theorem stale_mono {cutoff later : Int} {row : JobRow π} (hlater : cutoff ≤ later) (h : stale cutoff row) :
    stale later row := by
  rw [stale, Bool.and_eq_true, Option.any_eq_true] at h ⊢
  obtain ⟨hrunning, heartbeat, hsome, hbefore⟩ := h
  exact ⟨hrunning, heartbeat, hsome, decide_eq_true ((of_decide_eq_true hbefore).trans_le hlater)⟩

/-- A job that nobody else touches is taken by the statement that it is for. -/
theorem all (h : Passed turns threshold batchSize move t stages result t')
    (hnever : result.neverStartedJobsReturnedToPending.length < batchSize)
    (hfailed : result.expiredJobsMovedToFailed.length < batchSize)
    (hretried : result.expiredJobsReturnedToPendingForRetry.length < batchSize) {row : JobRow π}
    {cutoff : Int} (hfirst : turns.neverStarted.LetsAlone threshold cutoff id)
    (hsecond : turns.toFailed.LetsAlone threshold cutoff id)
    (hthird : turns.toDeadLetter.LetsAlone threshold cutoff id)
    (hfourth : turns.toPending.LetsAlone threshold cutoff id) (hrow : t.job? id = some row)
    (hstale : stale cutoff row) :
    id ∈ result.neverStartedJobsReturnedToPending ++ result.expiredJobsMovedToFailed ++
      result.expiredJobsReturnedToPendingForRetry := by
  by_contra hmem
  rw [mem_append, mem_append, not_or, not_or] at hmem
  obtain ⟨⟨hnotNever, hnotFailed⟩, hnotRetried⟩ := hmem
  have hreturned := (h.first.alone hfirst hnotNever).trans hrow
  have hsecondRow := (h.second.alone hsecond hnotFailed).trans hreturned
  have hmoved := (third_other h hnotFailed (hthird.leaves _ _)).trans hsecondRow
  by_cases hstarted : row.executionStartedAt.isSome
  · by_cases hexhausted : row.maxRetries ≤ row.retryCount
    · apply hnotFailed
      apply h.second.all hfailed hsecond hreturned
      intro later hlater
      simp [exhausted, stale_mono hlater hstale, hstarted, hexhausted]
    · apply hnotRetried
      apply h.fourth.all hretried hfourth hmoved
      intro later hlater
      simp [retryable, stale_mono hlater hstale, hstarted, not_le.1 hexhausted]
  · apply hnotNever
    apply h.first.all hnever hfirst hrow
    intro later hlater
    simpa [neverStarted, stale_mono hlater hstale] using hstarted

theorem account (h : Passed turns threshold batchSize move t stages result t') :
    Account turns threshold batchSize move t stages result t' where
  once := once h
  neverStarted := by
    intro id hid
    obtain ⟨row, now, hfinds, hmatch, hreturned⟩ := h.first.finds hid
    exact ⟨row, now, hfinds, hmatch, (never_kept h hid).2.2.trans hreturned⟩
  failed := fun _ hid => failed_account h hid
  retried := fun _ hid => h.fourth.finds hid
  deadLetters := deadLetters_account h
  inserted := fun _ hmem => inserted h hmem
  all := fun hnever hfailed hretried _ _ _ hfirst hsecond hthird hfourth hrow hstale =>
    all h hnever hfailed hretried hfirst hsecond hthird hfourth hrow hstale

end Pass

section Batch

variable {newJobId : Nat → Option JobId} {turn : Turn π} {own : Own} {ids : List JobId}
  {reason : DeadLetterReason} {t t' : Tables π} {moved : List (DeadLetterRow π)}

theorem run_eq_ok {α : Type} {a : α}
    {statement : Moment π → Tables π → Except StatementError (α × Tables π)} :
    turn.run own statement t = .ok (a, t') ↔
      statement (turn.moment own (turn.others own t)) (turn.others own t) = .ok (a, t') :=
  mapError_eq_ok

theorem length_newIds {newIds : List JobId}
    (h : ((range ids.length).mapM fun n => (newJobId n).elim (.error .randomId) .ok) =
      (.ok newIds : Except ReclaimError _)) : newIds.length = ids.length := by
  rw [← (mapM_eq_ok h).length_eq, length_range]

/-- The empty batch sends no statement. -/
theorem batch_eq_ok (hnodup : ids.Nodup) (hown : ids ⊆ own.jobs)
    (hfailed : ∀ id ∈ ids, ∃ row, t.job? id = some row ∧ row.status = .failed)
    (h : moveFailedJobsToDeadLetterBatch newJobId turn own ids reason t = .ok (moved, t')) :
    ∃ before ∈ [t, turn.others own t], Moves before t' ids reason moved := by
  rw [moveFailedJobsToDeadLetterBatch] at h
  split at h
  · rename_i hnil
    subst hnil
    cases h
    exact ⟨t, mem_cons_self, .refl _, by simp, fun _ _ => rfl, by simp⟩
  · obtain ⟨-, h⟩ := guard_eq_ok.1 h
    rw [firstRepeated_eq_none hnodup (by simp)] at h
    obtain ⟨newIds, hnewIds, h⟩ := bind_eq_ok.1 h
    refine ⟨turn.others own t, by simp, moves_batch hnodup (length_newIds hnewIds) ?_ ?_ ?_ (run_eq_ok.1 h)⟩
    · intro id hid
      rw [turn.leaves own t id (hown hid)]
      exact hfailed id hid
    · exact fun id hid => turn.shows _ _ id (hown hid)
    · exact fun id hid => turn.holds _ _ id (hown hid)

theorem batch_error (hnodup : ids.Nodup) (hlength : ids.length ≤ maxQueueDeadLetterMoveBatchSize)
    {error : ReclaimError}
    (h : moveFailedJobsToDeadLetterBatch newJobId turn own ids reason t = .error error) :
    error = .randomId ∨ ∃ cause, error = .statement cause := by
  rw [moveFailedJobsToDeadLetterBatch] at h
  split at h
  · cases h
  · rw [if_neg (not_lt.2 hlength), firstRepeated_eq_none hnodup (by simp)] at h
    rcases bind_eq_error.1 h with hids | ⟨newIds, -, hrun⟩
    · obtain ⟨n, -, hid⟩ := mapM_eq_error hids
      cases hnew : newJobId n with
      | none =>
          rw [hnew] at hid
          cases hid
          exact .inl rfl
      | some newId =>
          rw [hnew] at hid
          cases hid
    · obtain ⟨cause, -, rfl⟩ := mapError_eq_error.1 hrun
      exact .inr ⟨cause, rfl⟩

end Batch

section Reclaim

variable {turns : Turns π} {newJobId : Nat → Option JobId} {staleThreshold batchSize : Nat} {move : Bool}
  {t t' : Tables π} {result : ReclaimStaleRunningJobsResult π}

theorem validateReclaimBatchSize_eq_ok (h : validateReclaimBatchSize batchSize = .ok ()) :
    batchSize ≤ maxQueueReclaimBatchSize := by
  rw [validateReclaimBatchSize] at h
  obtain ⟨-, h⟩ := guard_eq_ok.1 h
  split at h
  · cases h
  · exact not_lt.1 ‹_›

theorem validateReclaimBatchSize_error {error : ReclaimError}
    (h : validateReclaimBatchSize batchSize = .error error) :
    Rejected staleThreshold batchSize move error := by
  rw [validateReclaimBatchSize] at h
  split at h
  · cases h
    assumption
  · dsimp only at h
    split at h
    · cases h
      exact ⟨rfl, rfl, ‹_›⟩
    · cases h

theorem passed_of_ok (h : reclaimAvailableStaleRunningJobsOnceInCurrentTransaction turns newJobId
    staleThreshold batchSize move t = .ok (result, t')) : ∃ threshold stages,
    staleThresholdToMicroseconds staleThreshold = .ok threshold ∧
      Passed turns threshold batchSize move t stages result t' := by
  obtain ⟨threshold, hthreshold, h⟩ := bind_eq_ok.1 h
  obtain ⟨-, -, h⟩ := bind_eq_ok.1 h
  obtain ⟨⟨never, returned⟩, hfirst, h⟩ := bind_eq_ok.1 h
  obtain ⟨⟨failed, failedTables⟩, hsecond, h⟩ := bind_eq_ok.1 h
  obtain ⟨⟨moved, movedTables⟩, hthird, h⟩ := bind_eq_ok.1 h
  obtain ⟨⟨retried, after⟩, hfourth, h⟩ := bind_eq_ok.1 h
  cases h
  have htoFailed := takes_toFailed (run_eq_ok.1 hsecond)
  refine ⟨threshold, ⟨returned, failedTables, movedTables⟩, mapError_eq_ok.1 hthreshold,
    takes_neverStarted (run_eq_ok.1 hfirst), htoFailed, ?_, takes_toPending (run_eq_ok.1 hfourth)⟩
  split at hthird
  · rw [if_pos ‹_›]
    apply batch_eq_ok htoFailed.nodup (subset_append_right _ _) _ hthird
    intro id hid
    obtain ⟨row, -, -, hrow⟩ := htoFailed.taken id hid
    exact ⟨_, hrow, rfl⟩
  · rw [if_neg ‹_›]
    cases hthird
    exact ⟨rfl, rfl⟩

theorem pass_error {error : ReclaimError}
    (h : reclaimAvailableStaleRunningJobsOnceInCurrentTransaction turns newJobId staleThreshold batchSize
      move t = .error error) :
    Rejected staleThreshold batchSize move error := by
  have hrun : ∀ {α : Type} {turn : Turn π} {own : Own} {t : Tables π}
      {statement : Moment π → Tables π → Except StatementError (α × Tables π)},
      turn.run own statement t = .error error → Rejected staleThreshold batchSize move error := by
    intro α turn own t statement h
    obtain ⟨cause, -, rfl⟩ := mapError_eq_error.1 h
    trivial
  rcases bind_eq_error.1 h with hthreshold | ⟨threshold, -, h⟩
  · obtain ⟨cause, hcause, rfl⟩ := mapError_eq_error.1 hthreshold
    exact hcause
  rcases bind_eq_error.1 h with hsize | ⟨⟨⟩, hsize, h⟩
  · exact validateReclaimBatchSize_error hsize
  rcases bind_eq_error.1 h with hfirst | ⟨⟨never, returned⟩, -, h⟩
  · exact hrun hfirst
  rcases bind_eq_error.1 h with hsecond | ⟨⟨failed, failedTables⟩, hsecond, h⟩
  · exact hrun hsecond
  have htoFailed := takes_toFailed (run_eq_ok.1 hsecond)
  rcases bind_eq_error.1 h with hthird | ⟨⟨moved, movedTables⟩, -, h⟩
  · split at hthird
    · have hlength := htoFailed.bounded.trans (validateReclaimBatchSize_eq_ok hsize)
      rcases batch_error htoFailed.nodup hlength hthird with rfl | ⟨cause, rfl⟩
      · assumption
      · trivial
    · cases hthird
  rcases bind_eq_error.1 h with hfourth | ⟨⟨retried, after⟩, -, h⟩
  · exact hrun hfourth
  · cases h

end Reclaim

theorem reclaim_pass_accounted (turns : Turns π) (newJobId : Nat → Option JobId)
    (staleThreshold batchSize : Nat) (move : Bool) (t : Tables π) :
    match reclaimAvailableStaleRunningJobsOnceInCurrentTransaction turns newJobId staleThreshold batchSize
      move t with
    | .error error => Rejected staleThreshold batchSize move error
    | .ok (result, t') => ∃ threshold stages, staleThresholdToMicroseconds staleThreshold = .ok threshold ∧
        Account turns threshold batchSize move t stages result t' := by
  split
  · exact pass_error ‹_›
  · obtain ⟨threshold, stages, hthreshold, hpassed⟩ := passed_of_ok ‹_›
    exact ⟨threshold, stages, hthreshold, account hpassed⟩

end Paranoid.QueueReclaim
