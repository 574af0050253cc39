import Paranoid.QueueBudget

namespace Paranoid.QueueCounters

open List Postgres QueueModel QueueStatements QueueOperations QueueEffects QueueChanges QueueSoundness
open QueueBudget QueueOwnership QueueRows QueueWorker Transitions

variable {π : Type}

/-- The greatest count that can still be counted up in an `int4` column. -/
def maxCount : Int := 2 ^ 31 - 2

/-- The count of a row that may still fail can be counted up, now and after every retry. -/
structure RowFits (row : JobRow π) : Prop where
  maxRetries : row.maxRetries ≤ maxCount
  retryCount : row.status.active → row.retryCount ≤ maxCount

structure Fits (t : Tables π) : Prop where
  jobs : ∀ row ∈ t.jobs, RowFits row
  deadLetters : ∀ row ∈ t.deadLetters, row.maxRetries ≤ maxCount

section Statements

variable {α : Type} {m : Moment π} {t t' : Tables π} {set : JobRow π → Except StatementError (JobRow π)}

theorem rowFits_ended {row : JobRow π} (hmax : row.maxRetries ≤ maxCount)
    (hended : row.status.active = false) : RowFits row where
  maxRetries := hmax
  retryCount hactive := by
    rw [hended] at hactive
    cases hactive

def KeepsFits (result : Except StatementError (Tables π)) : Prop := ∀ t', result = .ok t' → Fits t'

theorem keepsFits_ok (h : Fits t) : KeepsFits (.ok t) := by
  rintro _ ⟨⟩
  exact h

theorem keepsFits_same (h : Fits t) (hjobs : t'.jobs = t.jobs)
    (hdead : t'.deadLetters = t.deadLetters) :
    KeepsFits (.ok t') :=
  keepsFits_ok ⟨hjobs ▸ h.jobs, hdead ▸ h.deadLetters⟩

theorem keepsFits_bind {x : Except StatementError α} {f : α → Except StatementError (Tables π)}
    (h : ∀ a, x = .ok a → KeepsFits (f a)) : KeepsFits (x >>= f) := by
  intro t' hok
  obtain ⟨a, ha, hf⟩ := bind_eq_ok.1 hok
  exact h a ha t' hf

theorem keepsFits_update (h : Fits t) {rows : List (JobRow π)} {P : JobRow π → Prop}
    (hrows : ∀ row ∈ rows, row ∈ t.jobs ∧ P row)
    (hset : ∀ row row', P row → RowFits row → set row = .ok row' → RowFits row') :
    KeepsFits (updateJobs t (jobIds rows) set) := by
  intro t' hok
  obtain ⟨hjobs, hdead, -⟩ := updateJobs_eq_ok hok
  constructor
  · intro row' hrow'
    obtain ⟨row, hrow, hupdated⟩ := forall₂_mem_right hjobs hrow'
    split at hupdated
    · exact hset row row' (target_spec hrows hrow ‹_›) (h.jobs row hrow) hupdated
    · rw [hupdated]
      exact h.jobs row hrow
  · rw [hdead]
    exact h.deadLetters

theorem keepsFits_replace (h : Fits t)
    {deletedJobs deletedDeadLetters : List JobId} {insertedJobs : List (JobRow π)}
    {insertedDeadLetters : List (DeadLetterRow π)} (hjobs : ∀ row ∈ insertedJobs, RowFits row)
    (hdead : ∀ row ∈ insertedDeadLetters, row.maxRetries ≤ maxCount) :
    KeepsFits (replaceRows t deletedJobs insertedJobs deletedDeadLetters insertedDeadLetters) := by
  intro t' hok
  obtain ⟨hjobs', hdead', -⟩ := replaceRows_eq_ok hok
  constructor
  · intro row hrow
    rw [hjobs'] at hrow
    rcases mem_append.1 hrow with hrow | hrow
    · exact h.jobs row (mem_of_mem_filter hrow)
    · exact hjobs row hrow
  · intro row hrow
    rw [hdead'] at hrow
    rcases mem_append.1 hrow with hrow | hrow
    · exact h.deadLetters row (mem_of_mem_filter hrow)
    · exact hdead row hrow

theorem mem_lockJobs_fits (h : Fits t) {matching : JobRow π → Bool}
    {row : JobRow π} (hrow : row ∈ lockJobs m t matching) :
    RowFits row :=
  h.jobs row (mem_lockJobs hrow).1

/-- A transition of a running job of the worker's own. -/
theorem keepsFits_owned (h : Fits t) {id : JobId} {workerId : WorkerOwnerId}
    {targetExtra visibleExtraMismatch : JobRow π → Bool}
    (hset : ∀ row row', row.status = .running → RowFits row → set row = .ok row' → RowFits row') :
    KeepsFits ((ownedRunningJobUpdate m id workerId set targetExtra visibleExtraMismatch t).map
      Prod.snd) := by
  simp only [ownedRunningJobUpdate, pure_eq_ok, map_snd_bind, map_snd_ok, bind_ok_self]
  apply keepsFits_update h (P := fun row => row.status = .running)
  · intro row hrow
    obtain ⟨hmem, hmatch, -⟩ := mem_lockJobs hrow
    simp only [ownedRunning, Bool.and_eq_true, decide_eq_true_eq] at hmatch
    exact ⟨hmem, hmatch.1.1.2⟩
  · exact hset

theorem rowFits_returnToPending {now : Int} {row : JobRow π}
    (hrunning : row.status = .running) (h : RowFits row) :
    RowFits (returnToPending now row) :=
  ⟨h.maxRetries, fun _ => h.retryCount (active_of_running hrunning)⟩

theorem rowFits_retryFailedJob {now runAt : Int} {row : JobRow π} (h : RowFits row) :
    RowFits (retryFailedJob now runAt row) :=
  ⟨h.maxRetries, fun _ => by simp [retryFailedJob, clearWorkerRuntime, maxCount]⟩

/-- The counts that a statement brings into the tables are within a limit. -/
def Bounded (limit : Int) : Statement π → Prop
  | .singleEnqueue _ options _ _ | .batchEnqueue _ options _ | .dedupeEnqueue _ options _ _ _ =>
      options.maxRetries ≤ limit
  | .scheduleOwnedRunningJobRetry _ _ newRetryCount _ _ => (newRetryCount : Int) ≤ limit
  | _ => True

theorem rowFits_enqueuedJob {now runAt : Int} {taskName : TaskName}
    {options : PreparedOptions} {dedupeKey : Option DedupeKey}
    {id : JobId} {payload : π} (h : options.maxRetries ≤ maxCount) :
    RowFits (enqueuedJob now runAt taskName options dedupeKey id payload) :=
  ⟨h, fun _ => by simp [enqueuedJob, maxCount]⟩

theorem keepsFits_batchEnqueue (h : Fits t) {taskName : TaskName}
    {options : PreparedOptions} {jobs : List (JobId × π)}
    (hbound : options.maxRetries ≤ maxCount) :
    KeepsFits ((batchEnqueue m taskName options jobs t).map Prod.snd) := by
  dsimp only [batchEnqueue]
  split
  · exact keepsFits_ok h
  split
  · exact keepsFits_ok h
  split
  · exact keepsFits_ok h
  simp only [pure_eq_ok, map_snd_bind, map_snd_ok, bind_ok_self]
  refine keepsFits_bind fun runAt _ => keepsFits_replace h ?_ (forall_mem_nil _)
  intro row hrow
  obtain ⟨job, -, rfl⟩ := mem_map.1 hrow
  exact rowFits_enqueuedJob hbound

theorem keepsFits_dedupeEnqueue (h : Fits t) {taskName : TaskName}
    {options : PreparedOptions} {dedupeKey : DedupeKey}
    {id : JobId} {payload : π} (hbound : options.maxRetries ≤ maxCount) :
    KeepsFits ((dedupeEnqueue m taskName options dedupeKey id payload t).map Prod.snd) := by
  dsimp only [dedupeEnqueue]
  split
  · exact keepsFits_ok h
  split
  · exact keepsFits_ok h
  simp only [pure_eq_ok, map_snd_bind]
  refine keepsFits_bind fun runAt _ => ?_
  split
  · exact keepsFits_ok h
  · simp only [map_snd_bind, map_snd_ok, bind_ok_self]
    refine keepsFits_replace h ?_ (forall_mem_nil _)
    intro row hrow
    rw [mem_singleton.1 hrow]
    exact rowFits_enqueuedJob hbound

theorem keepsFits_markJobFailed (h : Fits t) {id : JobId}
    {workerId : WorkerOwnerId} {errorMessage : String} {increment : Bool} :
    KeepsFits ((markJobFailed m id workerId errorMessage increment t).map Prod.snd) := by
  simp only [markJobFailed, map_snd_bind]
  refine keepsFits_bind fun _ _ => keepsFits_owned h ?_
  intro row row' _ hrow hset
  obtain ⟨count, -, hrow'⟩ := bind_eq_ok.1 hset
  cases hrow'
  exact rowFits_ended hrow.maxRetries rfl

theorem keepsFits_scheduleOwnedRunningJobRetry (h : Fits t)
    {id : JobId} {workerId : WorkerOwnerId} {newRetryCount : Nat}
    {retryAfter : Int} {errorMessage : String} (hbound : (newRetryCount : Int) ≤ maxCount) :
    KeepsFits ((scheduleOwnedRunningJobRetry m id workerId
      newRetryCount retryAfter errorMessage t).map Prod.snd) := by
  simp only [scheduleOwnedRunningJobRetry, map_snd_bind]
  refine keepsFits_bind fun count hcount => keepsFits_bind fun _ _ => keepsFits_owned h ?_
  intro row row' _ hrow hset
  obtain ⟨runAt, -, hrow'⟩ := bind_eq_ok.1 hset
  cases hrow'
  refine ⟨hrow.maxRetries, fun _ => ?_⟩
  rw [← sql_int4_eq_ok hcount] at hbound
  exact hbound

theorem keepsFits_moveOwnedRunningJobToDeadLetter (h : Fits t)
    {id deadLetterId : JobId} {workerId : WorkerOwnerId}
    {errorMessage : String} {increment : Bool} {reason : DeadLetterReason} :
    KeepsFits ((moveOwnedRunningJobToDeadLetter m id workerId
      deadLetterId errorMessage increment reason t).map Prod.snd) := by
  simp only [moveOwnedRunningJobToDeadLetter, map_snd_bind, pure_eq_ok, map_snd_ok, bind_ok_self]
  refine keepsFits_bind fun _ _ => keepsFits_bind fun inserted hinserted =>
    keepsFits_replace h (forall_mem_nil _) ?_
  intro deadLetter hmem
  obtain ⟨row, hrow, hdead⟩ := forall₂_mem_right (mapM_eq_ok hinserted) hmem
  obtain ⟨count, -, hdead⟩ := bind_eq_ok.1 hdead
  cases hdead
  exact (mem_lockJobs_fits h hrow).maxRetries

theorem keepsFits_returnOwned (h : Fits t) {id : JobId} {workerId : WorkerOwnerId}
    {targetExtra visibleExtraMismatch : JobRow π → Bool} :
    KeepsFits ((ownedRunningJobUpdate m id workerId
      (fun row => .ok (returnToPending m.now row)) targetExtra
        visibleExtraMismatch t).map Prod.snd) := by
  refine keepsFits_owned h ?_
  rintro row _ hrunning hrow ⟨⟩
  exact rowFits_returnToPending hrunning hrow

/-- A statement on the newest rows that match, of which one half of the condition is given. -/
theorem keepsFits_stale (h : Fits t) {cutoff : Int} {extra : JobRow π → Bool} {batchSize : Nat}
    (hset : ∀ row row',
      row.status = .running ∧ extra row → RowFits row → set row = .ok row' → RowFits row') :
    KeepsFits
      (updateJobs t (jobIds (lockFirstJobs m t
        (fun row => stale cutoff row && extra row) heartbeatOrder batchSize)) set) := by
  refine keepsFits_update h (P := fun row => row.status = .running ∧ extra row) ?_ hset
  intro row hrow
  obtain ⟨hmem, hmatch, -⟩ := mem_lockFirstJobs hrow
  rw [Bool.and_eq_true] at hmatch
  exact ⟨hmem, running_of_stale hmatch.1, hmatch.2⟩

/-- What every statement keeps. -/
theorem keepsFits_run (s : Statement π) (hbound : Bounded maxCount s) (h : Fits t) :
    KeepsFits (run m s t) := by
  cases s with
  | singleEnqueue => exact keepsFits_batchEnqueue h hbound
  | batchEnqueue => exact keepsFits_batchEnqueue h hbound
  | dedupeEnqueue => exact keepsFits_dedupeEnqueue h hbound
  | claimAvailableJobs taskNames claimLimit workerId =>
      dsimp only [run, claimAvailableJobs]
      split
      · exact keepsFits_ok h
      · simp only [pure_eq_ok, map_snd_bind, map_snd_ok, bind_ok_self]
        refine keepsFits_update h (P := fun row => row.status = .pending) ?_ ?_
        · intro row hrow
          obtain ⟨hmem, hmatch, -⟩ := mem_lockFirstJobs hrow
          simp only [claimable, Bool.and_eq_true, decide_eq_true_eq] at hmatch
          exact ⟨hmem, hmatch.1.1.1.1⟩
        · rintro row _ hpending hrow ⟨⟩
          have hactive : row.status.active = true := by
            rw [hpending]
            rfl
          exact ⟨hrow.maxRetries, fun _ => hrow.retryCount hactive⟩
  | markJobStarted | touchExecutionHeartbeat =>
      refine keepsFits_owned h ?_
      rintro row _ _ hrow ⟨⟩
      exact ⟨hrow.maxRetries, hrow.retryCount⟩
  | markJobCompleted =>
      refine keepsFits_owned h ?_
      rintro row _ _ hrow ⟨⟩
      exact rowFits_ended hrow.maxRetries rfl
  | markJobFailed => exact keepsFits_markJobFailed h
  | scheduleOwnedRunningJobRetry =>
      simp only [Bounded] at hbound
      simp only [run]
      exact keepsFits_scheduleOwnedRunningJobRetry h hbound
  | moveOwnedRunningJobToDeadLetter => exact keepsFits_moveOwnedRunningJobToDeadLetter h
  | returnOwnedUnstartedRunningJobToPending => exact keepsFits_returnOwned h
  | returnOwnedStartedRunningJobToPending => exact keepsFits_returnOwned h
  | returnAvailableOwnedUnstartedRunningJobsToPending | returnAvailableOwnedStartedRunningJobsToPending =>
      simp only [run, returnAvailableOwnedUnstartedRunningJobsToPending,
        returnAvailableOwnedStartedRunningJobsToPending,
        returnAvailableOwnedRunningJobsToPending, pure_eq_ok, map_snd_bind, map_snd_ok, bind_ok_self]
      refine keepsFits_update h (P := fun row => row.status = .running) ?_ ?_
      · intro row hrow
        obtain ⟨hmem, hmatch, -⟩ := mem_lockJobs hrow
        simp only [Bool.and_eq_true, decide_eq_true_eq] at hmatch
        exact ⟨hmem, hmatch.1.2⟩
      · rintro row _ hrunning hrow ⟨⟩
        exact rowFits_returnToPending hrunning hrow
  | cancelPendingJob =>
      simp only [run, cancelPendingJob, pure_eq_ok, map_snd_bind, map_snd_ok, bind_ok_self]
      exact keepsFits_replace h (forall_mem_nil _) (forall_mem_nil _)
  | forceRequeueRunningJobById =>
      simp only [run, forceRequeueRunningJobById, pure_eq_ok, map_snd_bind, map_snd_ok, bind_ok_self]
      refine keepsFits_update h (P := fun row => row.status = .running) ?_ ?_
      · intro row hrow
        obtain ⟨hrow, hrunning⟩ := mem_filter.1 hrow
        exact ⟨(mem_lockJobs hrow).1, of_decide_eq_true hrunning⟩
      · rintro row _ hrunning hrow ⟨⟩
        exact rowFits_returnToPending hrunning hrow
  | retryFailedJobById =>
      simp only [run, retryFailedJobById, pure_eq_ok, map_snd_bind, map_snd_ok, bind_ok_self]
      refine keepsFits_update h (P := fun _ => True) ?_ ?_
      · intro row hrow
        exact ⟨(mem_lockJobs (mem_of_mem_filter hrow)).1, trivial⟩
      · intro row row' _ hrow hset
        obtain ⟨runAt, -, hrow'⟩ := bind_eq_ok.1 hset
        cases hrow'
        exact rowFits_retryFailedJob hrow
  | retryAvailableFailedJobs =>
      simp only [run, retryAvailableFailedJobs, pure_eq_ok, map_snd_bind, map_snd_ok, bind_ok_self]
      refine keepsFits_update h (P := fun _ => True) ?_ ?_
      · intro row hrow
        exact ⟨(mem_lockFirstJobs (mem_of_mem_filter hrow)).1, trivial⟩
      · intro row row' _ hrow hset
        obtain ⟨runAt, -, hrow'⟩ := bind_eq_ok.1 hset
        cases hrow'
        exact rowFits_retryFailedJob hrow
  | moveFailedJobToDeadLetter =>
      simp only [run, moveFailedJobToDeadLetter, pure_eq_ok, map_snd_bind, map_snd_ok, bind_ok_self]
      refine keepsFits_replace h (forall_mem_nil _) ?_
      intro deadLetter hmem
      obtain ⟨row, hrow, rfl⟩ := mem_map.1 hmem
      exact (mem_lockJobs_fits h (mem_of_mem_filter hrow)).maxRetries
  | moveFailedJobsToDeadLetterBatch =>
      simp only [run, moveFailedJobsToDeadLetterBatch,
        pure_eq_ok, map_snd_bind, map_snd_ok, bind_ok_self]
      refine keepsFits_replace h (forall_mem_nil _) ?_
      intro deadLetter hmem
      obtain ⟨row, hrow, rfl⟩ := mem_map.1 hmem
      exact (mem_lockJobs_fits h hrow).maxRetries
  | requeueDeadLetterJob =>
      simp only [run, requeueDeadLetterJob, pure_eq_ok, map_snd_bind, map_snd_ok, bind_ok_self]
      refine keepsFits_bind fun inserted hinserted => keepsFits_replace h ?_ (forall_mem_nil _)
      intro row hmem
      obtain ⟨source, hsource, hrow⟩ := forall₂_mem_right (mapM_eq_ok hinserted) hmem
      obtain ⟨runAt, -, hrow⟩ := bind_eq_ok.1 hrow
      cases hrow
      refine ⟨h.deadLetters source (mem_lockDeadLetters (mem_of_mem_filter hsource)).1, fun _ => ?_⟩
      simp [requeuedJob, maxCount]
  | deleteDeadLetterJob =>
      simp only [run, deleteDeadLetterJob, pure_eq_ok, map_snd_bind, map_snd_ok, bind_ok_self]
      exact keepsFits_replace h (forall_mem_nil _) (forall_mem_nil _)
  | cleanupJobsOlderThanOnce =>
      simp only [run, cleanupJobsOlderThanOnce, pure_eq_ok, map_snd_bind, map_snd_ok, bind_ok_self]
      exact keepsFits_bind fun _ _ => keepsFits_replace h (forall_mem_nil _) (forall_mem_nil _)
  | cleanupAvailableDeadLetterJobsOlderThanOnce =>
      simp only [run, cleanupAvailableDeadLetterJobsOlderThanOnce,
        pure_eq_ok, map_snd_bind, map_snd_ok, bind_ok_self]
      exact keepsFits_bind fun _ _ => keepsFits_replace h (forall_mem_nil _) (forall_mem_nil _)
  | reclaimNeverStartedRunningJobs =>
      simp only [run, reclaimNeverStartedRunningJobs,
        pure_eq_ok, map_snd_bind, map_snd_ok, bind_ok_self]
      refine keepsFits_bind fun _ _ => keepsFits_stale h ?_
      rintro row _ hstale hrow ⟨⟩
      exact rowFits_returnToPending hstale.1 hrow
  | reclaimExpiredRunningJobsToFailed =>
      simp only [run, reclaimExpiredRunningJobsToFailed, Bool.and_assoc,
        pure_eq_ok, map_snd_bind, map_snd_ok, bind_ok_self]
      refine keepsFits_bind fun _ _ => keepsFits_stale h ?_
      intro row row' _ hrow hset
      obtain ⟨count, -, hrow'⟩ := bind_eq_ok.1 hset
      cases hrow'
      exact rowFits_ended hrow.maxRetries rfl
  | reclaimExpiredRunningJobsToPendingForRetry =>
      simp only [run, reclaimExpiredRunningJobsToPendingForRetry,
        Bool.and_assoc, pure_eq_ok, map_snd_bind, map_snd_ok,
        bind_ok_self]
      refine keepsFits_bind fun _ _ => keepsFits_stale h ?_
      intro row row' hstale hrow hset
      obtain ⟨count, hcount, hrow'⟩ := bind_eq_ok.1 hset
      cases hrow'
      -- there are retries left, so that the count stays within them
      have hless : row.retryCount < row.maxRetries := by
        simpa using (Bool.and_eq_true_iff.1 hstale.2).2
      have hcount' : count = row.retryCount + 1 := incrementRetryCount_eq_ok hcount
      have hmax := hrow.maxRetries
      refine ⟨hmax, fun _ => ?_⟩
      change count ≤ maxCount
      omega
  | upsertPauseKey pauseKey => exact keepsFits_same h rfl rfl
  | deletePauseKey pauseKey => exact keepsFits_same h rfl rfl

end Statements

section Runs

variable {m : Moment π} {t t' : Tables π} {s : System π} {e : Execution π}

/-- What an execution is about to store leaves room for one more. -/
structure ExecutionFits (e : Execution π) : Prop where
  nonneg : 0 ≤ e.job.retryCount
  maxRetries : e.job.maxRetries ≤ maxCount
  retries : ∀ n retryAfter message, e.phase = .finalizing (.scheduleRetry n retryAfter message) →
    (n : Int) ≤ maxCount

structure SystemFits (s : System π) : Prop where
  tables : Fits s.tables
  executions : ∀ e ∈ s.executions, ExecutionFits e

theorem executionFits_act (event : Event π) (h : ExecutionFits e) :
    ExecutionFits (e.act t event).1 := by
  obtain ⟨-, -, hjob, -⟩ := act_keeps (t := t) e event
  refine ⟨?_, ?_, ?_⟩
  · rw [hjob]
    exact h.nonneg
  · rw [hjob]
    exact h.maxRetries
  · intro n retryAfter message hphase
    rcases act_retries h.nonneg hphase with hold | ⟨-, hmax⟩
    · exact h.retries n retryAfter message hold
    · exact hmax.trans h.maxRetries

theorem fits_issue (hfits : Fits t) (h : ExecutionFits e) {deadLetterId : JobId}
    {result : Except StatementError (TransitionOutcome × Tables π)}
    (hissue : e.issue m deadLetterId t = some result) :
    KeepsFits (result.map Prod.snd) := by
  unfold Execution.issue at hissue
  split at hissue
  · cases hissue
    exact keepsFits_run (.markJobStarted e.job.id e.workerId) trivial hfits
  · rename_i finalization hphase
    cases hissue
    cases finalization with
    | complete => exact keepsFits_run (.markJobCompleted e.job.id e.workerId) trivial hfits
    | scheduleRetry n retryAfter message =>
        exact keepsFits_scheduleOwnedRunningJobRetry hfits (h.retries n retryAfter message hphase)
    | moveToDeadLetterOrFail message increment reason =>
        simp only [Execution.finalize]
        split
        · exact keepsFits_moveOwnedRunningJobToDeadLetter hfits
        · exact keepsFits_markJobFailed hfits
  · cases hissue
    exact keepsFits_returnOwned hfits
  · cases hissue
  · cases hissue
  · cases hissue

theorem fits_act (hfits : Fits t) (h : ExecutionFits e) (event : Event π) :
    Fits (e.act t event).2.1 := by
  cases event with
  | begin handlerRegistered =>
      dsimp only [Execution.act]
      split <;> exact hfits
  | statement m deadLetterId acknowledged =>
      dsimp only [Execution.act]
      split
      · exact hfits
      · exact hfits
      · rename_i outcome t' hissue
        exact fits_issue hfits h hissue t' rfl
  | heartbeat m =>
      dsimp only [Execution.act]
      split
      · split
        · exact hfits
        · rename_i outcome t' htouched
          have hkeeps : KeepsFits ((touchExecutionHeartbeat m e.job.id e.workerId t).map Prod.snd) :=
            keepsFits_run (.touchExecutionHeartbeat e.job.id e.workerId) trivial hfits
          rw [htouched] at hkeeps
          exact hkeeps t' rfl
      · exact hfits
  | handlerDone outcome retryAfter =>
      dsimp only [Execution.act]
      split
      · split <;> exact hfits
      · exact hfits
  | abort | dropContext => exact hfits

def InputBounded (limit : Int) : Input π → Prop
  | .statement _ statement => Bounded limit statement
  | .claim .. | .execution .. => True

theorem systemFits_claim {taskNames : List TaskName} {claimLimit : Nat} {workerId : WorkerOwnerId}
    {deadLetterEnabled acknowledged : Bool} (h : SystemFits s) :
    SystemFits (step (.claim m taskNames claimLimit workerId deadLetterEnabled acknowledged) s).1 := by
  dsimp only [step]
  split
  · exact h
  · rename_i jobs tables hclaimed
    have hkeeps : KeepsFits
      ((claimAvailableJobs m taskNames claimLimit workerId s.tables).map Prod.snd) :=
      keepsFits_run (.claimAvailableJobs taskNames claimLimit workerId) trivial h.tables
    rw [hclaimed] at hkeeps
    have htables : Fits tables := hkeeps tables rfl
    obtain ⟨-, hjobs, -⟩ := claimAvailableJobs_eq_ok hclaimed
    refine ⟨htables, fun e he => ?_⟩
    rcases mem_append.1 he with he | he
    · exact h.executions e he
    · cases acknowledged with
      | false => cases he
      | true =>
          obtain ⟨job, hjob, rfl⟩ := mem_map.1 he
          rw [hjobs] at hjob
          have hmem := mem_of_mem_filter hjob
          exact ⟨(tables.constraints .numericDomains job hmem).1,
            (htables.jobs job hmem).maxRetries, nofun⟩

theorem systemFits_step (i : Input π) (s : System π)
    (hbound : InputBounded maxCount i) (h : SystemFits s) :
    SystemFits (step i s).1 := by
  cases i with
  | claim => exact systemFits_claim h
  | execution k event =>
      dsimp only [step]
      split
      · exact h
      · rename_i e he
        have hfits := h.executions e (mem_of_getElem? he)
        refine ⟨fits_act h.tables hfits event, fun e' he' => ?_⟩
        rcases mem_or_eq_of_mem_set he' with hold | rfl
        · exact h.executions e' hold
        · exact executionFits_act event hfits
  | statement m statement =>
      dsimp only [step]
      split
      · exact h
      · split
        · exact h
        · rename_i tables hrun
          exact ⟨keepsFits_run statement hbound h.tables tables hrun, h.executions⟩

theorem systemFits_exec {inputs : List (Input π)} (hbound : ∀ i ∈ inputs, InputBounded maxCount i) :
    SystemFits (exec step inputs System.empty) := by
  have hempty : SystemFits (System.empty : System π) :=
    ⟨⟨forall_mem_nil _, forall_mem_nil _⟩, forall_mem_nil _⟩
  exact exec_preserves systemFits_step (meets_of_forall hbound System.empty) hempty

end Runs

section Counting

variable {m : Moment π} {t t' : Tables π} {row : JobRow π}

theorem incrementRetryCount_ok (hfits : Fits t) (hrow : row ∈ t.jobs)
    (hactive : row.status.active) (increment : Bool) :
    incrementRetryCount increment row = .ok (row.retryCount + if increment then 1 else 0) := by
  have hnonneg := (t.constraints .numericDomains row hrow).1
  have hmax := (hfits.jobs row hrow).retryCount hactive
  have hrange : -2 ^ 31 ≤ row.retryCount + (if increment then 1 else 0) ∧
      row.retryCount + (if increment then 1 else 0) < 2 ^ 31 := by
    unfold maxCount at hmax
    split <;> omega
  rw [incrementRetryCount, int4, if_pos hrange]
  rfl

theorem updateJobs_eq_error {targets : List JobId}
    {set : JobRow π → Except StatementError (JobRow π)} {e : StatementError}
    (h : updateJobs t targets set = .error e) :
    (∃ c, e = .violation c) ∨ ∃ row ∈ t.jobs, row.id ∈ targets ∧ set row = .error e := by
  rcases bind_eq_error.1 h with h | ⟨jobs, -, hstore⟩
  · obtain ⟨row, hrow, hfail⟩ := mapM_eq_error h
    split at hfail
    · exact .inr ⟨row, hrow, ‹_›, hfail⟩
    · cases hfail
  · obtain ⟨c, hc, -⟩ := Tables.store_eq_error hstore
    exact .inl ⟨c, hc⟩

theorem lockJobs_ownedRunning {id : JobId} {workerId : WorkerOwnerId} {extra : JobRow π → Bool}
    (h : row ∈ lockJobs m t fun row => ownedRunning id workerId row && extra row) :
    row ∈ t.jobs ∧ row.status = .running := by
  obtain ⟨hmem, hmatch, -⟩ := mem_lockJobs h
  simp only [ownedRunning, Bool.and_eq_true, decide_eq_true_eq] at hmatch
  exact ⟨hmem, hmatch.1.1.2⟩

/-- The count of a job that is marked failed fits its column. -/
theorem markJobFailed_ne_outOfRange (hfits : Fits t) (id : JobId)
    (workerId : WorkerOwnerId) (errorMessage : String)
    (increment : Bool) (e : SqlError) :
    markJobFailed m id workerId errorMessage increment t ≠ .error (.outOfRange e) := by
  intro h
  rcases bind_eq_error.1 h with htext | ⟨lastError, -, h⟩
  · unfold text at htext
    split at htext <;> cases htext
  · rcases bind_eq_error.1 h with h | ⟨_, -, h⟩
    · rcases updateJobs_eq_error h with ⟨c, hc⟩ | ⟨row, hrow, hid, hset⟩
      · cases hc
      · have hrunning :=
          (lockJobs_ownedRunning (row_of_target (fun _ h => (mem_lockJobs h).1) hrow hid)).2
        rw [incrementRetryCount_ok hfits hrow (active_of_running hrunning)] at hset
        cases hset
    · cases h

/-- The count of a job that is moved to the dead letters fits its column. -/
theorem moveOwnedRunningJobToDeadLetter_ne_outOfRange (hfits : Fits t)
    (id deadLetterId : JobId) (workerId : WorkerOwnerId)
    (errorMessage : String) (increment : Bool) (reason : DeadLetterReason) (e : SqlError) :
    moveOwnedRunningJobToDeadLetter m id workerId deadLetterId errorMessage increment reason t ≠
      .error (.outOfRange e) := by
  intro h
  rcases bind_eq_error.1 h with htext | ⟨lastError, -, h⟩
  · unfold text at htext
    split at htext <;> cases htext
  · rcases bind_eq_error.1 h with h | ⟨inserted, -, h⟩
    · obtain ⟨row, hrow, hfail⟩ := mapM_eq_error h
      obtain ⟨hmem, hmatch, -⟩ := mem_lockJobs hrow
      have hrunning := ownedRunning_status hmatch
      rw [incrementRetryCount_ok hfits hmem (active_of_running hrunning)] at hfail
      cases hfail
    · rcases bind_eq_error.1 h with h | ⟨_, -, h⟩
      · obtain ⟨c, hc, -⟩ := Tables.store_eq_error h
        cases hc
      · cases h

/-- A statement of the reclaim takes these jobs: each of them is stale, is not running any
more and has the count that is due, and no stale job is left out that is not locked, unless
the batch is full. -/
structure Reclaims (m : Moment π) (t t' : Tables π)
    (matching : JobRow π → Bool) (counted : Int) (batchSize : Nat)
    (ids : List JobId) : Prop where
  taken : ∀ id ∈ ids, ∃ row row', t.job? id = some row ∧ matching row ∧ t'.job? id = some row' ∧
    row'.status ≠ .running ∧ row'.retryCount = row.retryCount + counted
  all : ids.length < batchSize → ∀ seen ∈ m.snapshot.jobs, matching seen →
    m.lockedJobs seen.id = false →
    ∀ row, t.job? seen.id = some row → matching row → seen.id ∈ ids

theorem reclaims {matching : JobRow π → Bool}
    {set : JobRow π → Except StatementError (JobRow π)} {batchSize : Nat}
    (counted : Int)
    (hsound : Sound .rewrites t
      (updateJobs t (jobIds (lockFirstJobs m t matching heartbeatOrder batchSize)) set))
    (hset : ∀ row ∈ t.jobs, matching row → ∃ row',
      set row = .ok row' ∧ row'.id = row.id ∧ row'.status ≠ .running ∧
      row'.retryCount = row.retryCount + counted) :
    ∃ t', updateJobs t (jobIds (lockFirstJobs m t matching heartbeatOrder batchSize)) set = .ok t' ∧
      Reclaims m t t' matching counted batchSize
        (jobIds (lockFirstJobs m t matching heartbeatOrder batchSize)) := by
  have htarget : ∀ row ∈ t.jobs,
    row.id ∈ jobIds (lockFirstJobs m t matching heartbeatOrder batchSize) → matching row := by
    intro row hrow hid
    exact (mem_lockFirstJobs (row_of_target (fun _ h => (mem_lockFirstJobs h).1) hrow hid)).2.1
  cases hupdate : updateJobs t (jobIds (lockFirstJobs m t matching heartbeatOrder batchSize)) set with
  | error e =>
      exfalso
      rcases updateJobs_eq_error hupdate with ⟨c, rfl⟩ | ⟨row, hrow, hid, hfail⟩
      · exact hsound.violation c hupdate
      · obtain ⟨row', hok, -⟩ := hset row hrow (htarget row hrow hid)
        rw [hok] at hfail
        cases hfail
  | ok t' =>
      refine ⟨t', rfl, ?_, ?_⟩
      · intro id hid
        obtain ⟨row, hrow, rfl⟩ := mem_map.1 hid
        obtain ⟨hmem, hmatch, -⟩ := mem_lockFirstJobs hrow
        obtain ⟨row', hrow', hupdated⟩ := forall₂_mem_left (updateJobs_eq_ok hupdate).1 hmem
        rw [if_pos hid] at hupdated
        obtain ⟨row'', hok, hsame, hstatus, hcount⟩ := hset row hmem hmatch
        cases hupdated.symm.trans hok
        exact ⟨row, row', Tables.job?_of_mem hmem, hmatch,
          Tables.job?_eq_some.2 ⟨hrow', hsame⟩, hstatus, hcount⟩
      · intro hlength seen hseen hmatch hlocked row hrow hmatch'
        have hsorted : seen ∈ m.snapshot.jobs.insertionSort fun a b =>
          heartbeatOrder a ≤ heartbeatOrder b :=
          (mem_insertionSort _).2 hseen
        have hlock := mem_lockRows.2 ⟨hmatch', seen, hsorted, hmatch, hlocked, hrow⟩
        -- a batch that is not full holds all rows that were locked
        have hall : row ∈ lockFirstJobs m t matching heartbeatOrder batchSize := by
          rw [lockFirstJobs, take_of_length_le]
          · exact hlock
          · rw [jobIds, length_map, lockFirstJobs, length_take] at hlength
            omega
        rw [← (Tables.job?_eq_some.1 hrow).2]
        exact mem_map.2 ⟨row, hall, rfl⟩

section Passes

variable {threshold cutoff : Int}
  (hcutoff : sql (timestampMinusMicroseconds m.now threshold) = .ok cutoff) (batchSize : Nat)

include hcutoff

theorem reclaimNeverStartedRunningJobs_ok :
    ∃ ids t', reclaimNeverStartedRunningJobs m threshold batchSize t = .ok (ids, t') ∧
    Reclaims m t t' (fun row => stale cutoff row && row.executionStartedAt.isNone) 0 batchSize ids := by
  have hsound := @sound_reclaimNeverStartedRunningJobs π m t threshold batchSize
  simp only [reclaimNeverStartedRunningJobs, hcutoff, ok_bind,
    pure_eq_ok, map_snd_bind, map_snd_ok, bind_ok_self] at hsound
  have hreclaims := reclaims 0 hsound
  obtain ⟨t', hok, htaken⟩ := hreclaims fun row _ _ =>
    ⟨_, rfl, rfl, by simp [returnToPending, clearWorkerRuntime], (Int.add_zero _).symm⟩
  refine ⟨_, t', ?_, htaken⟩
  simp only [reclaimNeverStartedRunningJobs, hcutoff, ok_bind, hok, pure_eq_ok]

theorem reclaimExpiredRunningJobsToFailed_ok (hfits : Fits t) : ∃ ids t',
    reclaimExpiredRunningJobsToFailed m threshold batchSize t = .ok (ids, t') ∧
    Reclaims m t t' (fun row => stale cutoff row &&
      row.executionStartedAt.isSome && row.maxRetries ≤ row.retryCount) 1
      batchSize ids := by
  have hsound := @sound_reclaimExpiredRunningJobsToFailed π m t threshold batchSize
  simp only [reclaimExpiredRunningJobsToFailed, hcutoff, ok_bind,
    pure_eq_ok, map_snd_bind, map_snd_ok, bind_ok_self] at hsound
  have hreclaims := reclaims 1 hsound
  obtain ⟨t', hok, htaken⟩ := hreclaims fun row hrow hmatch => by
    simp only [Bool.and_eq_true] at hmatch
    have hactive := active_of_running (running_of_stale hmatch.1.1)
    rw [incrementRetryCount_ok hfits hrow hactive]
    exact ⟨_, rfl, rfl, by simp, rfl⟩
  refine ⟨_, t', ?_, htaken⟩
  simp only [reclaimExpiredRunningJobsToFailed, hcutoff, ok_bind, hok, pure_eq_ok]

theorem reclaimExpiredRunningJobsToPendingForRetry_ok (hfits : Fits t) : ∃ ids t',
    reclaimExpiredRunningJobsToPendingForRetry m threshold batchSize t = .ok (ids, t') ∧
    Reclaims m t t' (fun row => stale cutoff row &&
      row.executionStartedAt.isSome && row.retryCount < row.maxRetries) 1
      batchSize ids := by
  have hsound := @sound_reclaimExpiredRunningJobsToPendingForRetry π m t threshold batchSize
  simp only [reclaimExpiredRunningJobsToPendingForRetry,
    hcutoff, ok_bind, pure_eq_ok, map_snd_bind, map_snd_ok,
    bind_ok_self] at hsound
  have hreclaims := reclaims 1 hsound
  obtain ⟨t', hok, htaken⟩ := hreclaims fun row hrow hmatch => by
    simp only [Bool.and_eq_true] at hmatch
    have hactive := active_of_running (running_of_stale hmatch.1.1)
    rw [incrementRetryCount_ok hfits hrow hactive]
    exact ⟨_, rfl, rfl, by simp, rfl⟩
  refine ⟨_, t', ?_, htaken⟩
  simp only [reclaimExpiredRunningJobsToPendingForRetry, hcutoff, ok_bind, hok, pure_eq_ok]

end Passes

end Counting

section Claim

/-- No statement that counts up fails on the range of the count, and no statement of a
reclaim pass fails or leaves a stale job out. -/
structure CountersFit (t : Tables π) : Prop where
  markJobFailed : ∀ (m : Moment π) id workerId errorMessage increment e,
    markJobFailed m id workerId errorMessage increment t ≠ .error (.outOfRange e)
  moveToDeadLetter : ∀ (m : Moment π) id workerId deadLetterId errorMessage increment reason e,
    moveOwnedRunningJobToDeadLetter m id workerId deadLetterId errorMessage increment reason t ≠
      .error (.outOfRange e)
  neverStarted : ∀ (m : Moment π) threshold cutoff batchSize,
    sql (timestampMinusMicroseconds m.now threshold) = .ok cutoff →
    ∃ ids t', reclaimNeverStartedRunningJobs m threshold batchSize t = .ok (ids, t') ∧
      Reclaims m t t' (fun row => stale cutoff row && row.executionStartedAt.isNone) 0 batchSize ids
  toFailed : ∀ (m : Moment π) threshold cutoff batchSize,
    sql (timestampMinusMicroseconds m.now threshold) = .ok cutoff →
    ∃ ids t', reclaimExpiredRunningJobsToFailed m threshold batchSize t = .ok (ids, t') ∧
      Reclaims m t t' (fun row => stale cutoff row &&
        row.executionStartedAt.isSome && row.maxRetries ≤ row.retryCount) 1
        batchSize ids
  toPending : ∀ (m : Moment π) threshold cutoff batchSize,
    sql (timestampMinusMicroseconds m.now threshold) = .ok cutoff →
    ∃ ids t', reclaimExpiredRunningJobsToPendingForRetry m threshold batchSize t = .ok (ids, t') ∧
      Reclaims m t t' (fun row => stale cutoff row &&
        row.executionStartedAt.isSome && row.retryCount < row.maxRetries) 1
        batchSize ids

/-- Where every limit of retries and every count that is set by hand is below the greatest
`int4`, no count ever overflows. -/
theorem counters_fit (inputs : List (Input π)) (hbound : ∀ i ∈ inputs, InputBounded maxCount i) :
    CountersFit (exec step inputs System.empty).tables := by
  have hfits := (systemFits_exec hbound).tables
  refine ⟨?_, ?_, ?_, ?_, ?_⟩
  · intro m id workerId errorMessage increment e
    exact markJobFailed_ne_outOfRange hfits id workerId errorMessage increment e
  · intro m id workerId deadLetterId errorMessage increment reason e
    exact moveOwnedRunningJobToDeadLetter_ne_outOfRange hfits
      id deadLetterId workerId errorMessage increment reason e
  · intro m threshold cutoff batchSize hcutoff
    exact reclaimNeverStartedRunningJobs_ok hcutoff batchSize
  · intro m threshold cutoff batchSize hcutoff
    exact reclaimExpiredRunningJobsToFailed_ok hcutoff batchSize hfits
  · intro m threshold cutoff batchSize hcutoff
    exact reclaimExpiredRunningJobsToPendingForRetry_ok hcutoff batchSize hfits

theorem counters_fit_reclaimed : CountersFit (exec step reclaimed System.empty).tables := by
  apply counters_fit reclaimed
  have hretries : InputBounded maxCount (enqueueReport ⟨0,
    Tables.empty, fun _ => false, fun _ => false⟩) := by
    simp only [enqueueReport, InputBounded, Bounded, maxCount]
    decide
  intro i hi
  simp only [reclaimed, plain, mem_cons, not_mem_nil, or_false] at hi
  obtain rfl | rfl | rfl | rfl | rfl := hi
  · exact hretries
  · trivial
  · trivial
  · trivial
  · trivial

/-- The retry of a claimed job is scheduled with the greatest count, and then the job is
claimed and started again. -/
def counted : List (Input Unit) :=
  plain [(0, enqueueReport), (10, claimReport worker),
    (20, fun m => .statement m (.scheduleOwnedRunningJobRetry 1 worker 2147483647 0 "failed")),
    (30, claimReport worker),
    (40, fun m => .statement m (.markJobStarted 1 worker))] System.empty

/-- Once that job is stale, it fails the reclaim of all others. -/
theorem counted_never_reclaimed : ¬∀ inputs :
    List (Input Unit), (∀ i ∈ inputs, InputBounded (2 ^ 31 - 1) i) →
    CountersFit (exec step inputs System.empty).tables := by
  intro h
  have hbound : ∀ i ∈ counted, InputBounded (2 ^ 31 - 1) i := by
    intro i hi
    simp only [counted, plain, mem_cons, not_mem_nil, or_false] at hi
    obtain rfl | rfl | rfl | rfl | rfl := hi
    · simp only [enqueueReport, InputBounded, Bounded]
      decide
    · trivial
    · simp only [InputBounded, Bounded]
      decide
    · trivial
    · trivial
  have hfit := h counted hbound
  obtain ⟨ids, t', hok, -⟩ :=
    hfit.toFailed ⟨100000000, (exec step counted System.empty).tables, fun _ => false, fun _ => false⟩
    60000000 40000000 10 rfl
  have hfail : (reclaimExpiredRunningJobsToFailed
      ⟨100000000, (exec step counted System.empty).tables, fun _ => false, fun _ => false⟩ 60000000 10
      (exec step counted System.empty).tables).toOption.isNone = true := by
    decide +kernel
  rw [hok] at hfail
  cases hfail

end Claim

end Paranoid.QueueCounters
