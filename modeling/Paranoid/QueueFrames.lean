import Paranoid.QueueRows

namespace Paranoid.QueueFrames

open List QueueModel QueueStatements QueueOperations QueueEffects QueueChanges QueueRows

variable {π α : Type} {m : Moment π} {t t' : Tables π} {pauses : List String}

/-- The pause keys after a statement. -/
def pausesAfter (s : Statement π) (pauses : List String) : List String :=
  match s with
  | .upsertPauseKey pauseKey => pauses.insert pauseKey
  | .deletePauseKey pauseKey => pauses.erase pauseKey
  | _ => pauses

/-- A statement leaves the rows alone that another transaction holds locked, and these
pauses. -/
structure Frames (m : Moment π) (t : Tables π) (pauses : List String)
    (result : Except StatementError (Tables π)) : Prop where
  rows : ∀ t' id row, result = .ok t' → m.lockedJobs id = true →
    t.job? id = some row → t'.job? id = some row
  pauses : ∀ t', result = .ok t' → t'.pauses = pauses

theorem frames_same (h : t'.jobs = t.jobs) : Frames m t t'.pauses (.ok t') := by
  constructor
  · intro t'' id row hok _ hrow
    rw [← Except.ok.inj hok, job?_of_jobs_eq h, hrow]
  · intro t'' hok
    rw [Except.ok.inj hok]

theorem frames_bind {x : Except StatementError α} {f : α → Except StatementError (Tables π)}
    (h : ∀ a, x = .ok a → Frames m t pauses (f a)) : Frames m t pauses (x >>= f) := by
  constructor
  · intro t' id row hok
    obtain ⟨a, ha, hf⟩ := Postgres.bind_eq_ok.1 hok
    exact (h a ha).rows t' id row hf
  · intro t' hok
    obtain ⟨a, ha, hf⟩ := Postgres.bind_eq_ok.1 hok
    exact (h a ha).pauses t' hf

theorem frames_update {rows : List (JobRow π)} {set : JobRow π → Except StatementError (JobRow π)}
    (hid : ∀ row row', set row = .ok row' → row'.id = row.id)
    (hfree : ∀ row ∈ rows, m.lockedJobs row.id = false) :
    Frames m t t.pauses (updateJobs t (jobIds rows) set) := by
  constructor
  · intro t' id row hok hlocked hrow
    rw [updateJobs_job?_other hid hok, hrow]
    intro hmem
    obtain ⟨target, htarget, rfl⟩ := mem_map.1 hmem
    rw [hfree target htarget] at hlocked
    cases hlocked
  · exact fun t' hok => (updateJobs_eq_ok hok).2.2

theorem frames_replace {deletedJobs deletedDeadLetters : List JobId} {insertedJobs : List (JobRow π)}
    {insertedDeadLetters : List (DeadLetterRow π)}
    (hfree : ∀ id ∈ deletedJobs, m.lockedJobs id = false) :
    Frames m t t.pauses
      (replaceRows t deletedJobs insertedJobs deletedDeadLetters insertedDeadLetters) := by
  constructor
  · intro t' id row hok hlocked hrow
    obtain ⟨hmem, rfl⟩ := Tables.job?_eq_some.1 hrow
    refine Tables.job?_eq_some.2 ⟨?_, rfl⟩
    rw [(replaceRows_eq_ok hok).1]
    refine mem_append_left _ (mem_filter.2 ⟨hmem, decide_eq_true fun hdeleted => ?_⟩)
    rw [hfree row.id hdeleted] at hlocked
    cases hlocked
  · exact fun t' hok => (replaceRows_eq_ok hok).2.2

theorem free_lockJobs {matching : JobRow π → Bool} :
    ∀ row ∈ lockJobs m t matching, m.lockedJobs row.id = false :=
  fun _ hrow => (mem_lockJobs hrow).2.2

theorem free_lockFirstJobs {κ : Type} [LinearOrder κ]
    {matching : JobRow π → Bool} {sortKey : JobRow π → κ}
    {limit : Nat} : ∀ row ∈ lockFirstJobs m t matching sortKey limit, m.lockedJobs row.id = false :=
  fun _ hrow => (mem_lockFirstJobs hrow).2.2

theorem free_filter {rows : List (JobRow π)} {p : JobRow π → Bool}
    (hfree : ∀ row ∈ rows, m.lockedJobs row.id = false) :
    ∀ row ∈ rows.filter p, m.lockedJobs row.id = false :=
  fun row hrow => hfree row (mem_of_mem_filter hrow)

theorem free_ids {rows : List (JobRow π)} (hfree : ∀ row ∈ rows, m.lockedJobs row.id = false) :
    ∀ id ∈ jobIds rows, m.lockedJobs id = false := by
  intro id hid
  obtain ⟨row, hrow, rfl⟩ := mem_map.1 hid
  exact hfree row hrow

theorem frames_owned {id : JobId} {workerId : WorkerOwnerId}
    {set : JobRow π → Except StatementError (JobRow π)}
    {targetExtra visibleExtraMismatch : JobRow π → Bool}
    (hid : ∀ row row', set row = .ok row' → row'.id = row.id) :
    Frames m t t.pauses
      ((ownedRunningJobUpdate m id workerId set targetExtra visibleExtraMismatch t).map Prod.snd) := by
  simp only [ownedRunningJobUpdate, Postgres.pure_eq_ok, map_snd_bind, map_snd_ok, bind_ok_self]
  exact frames_update hid free_lockJobs

theorem frames_batchEnqueue {taskName : TaskName}
    {options : PreparedOptions} {jobs : List (JobId × π)} :
    Frames m t t.pauses ((batchEnqueue m taskName options jobs t).map Prod.snd) := by
  dsimp only [batchEnqueue]
  split
  · exact frames_same rfl
  split
  · exact frames_same rfl
  split
  · exact frames_same rfl
  simp only [Postgres.pure_eq_ok, map_snd_bind, map_snd_ok, bind_ok_self]
  exact frames_bind fun _ _ => frames_replace nofun

theorem frames_dedupeEnqueue {taskName : TaskName} {options : PreparedOptions} {dedupeKey : DedupeKey}
    {id : JobId} {payload : π} :
    Frames m t t.pauses ((dedupeEnqueue m taskName options dedupeKey id payload t).map Prod.snd) := by
  dsimp only [dedupeEnqueue]
  split
  · exact frames_same rfl
  split
  · exact frames_same rfl
  simp only [Postgres.pure_eq_ok, map_snd_bind]
  refine frames_bind fun _ _ => ?_
  split
  · exact frames_same rfl
  · simp only [map_snd_bind, map_snd_ok, bind_ok_self]
    exact frames_replace nofun

/-- Whatever the statement is, it leaves locked rows alone, and the pauses unless it is
about them. -/
theorem run_frames (s : Statement π) : Frames m t (pausesAfter s t.pauses) (run m s t) := by
  cases s with
  | singleEnqueue => exact frames_batchEnqueue
  | batchEnqueue => exact frames_batchEnqueue
  | dedupeEnqueue => exact frames_dedupeEnqueue
  | claimAvailableJobs =>
      dsimp only [run, claimAvailableJobs]
      split
      · exact frames_same rfl
      · simp only [Postgres.pure_eq_ok, map_snd_bind, map_snd_ok, bind_ok_self]
        exact frames_update (id_of_ok fun _ => rfl) free_lockFirstJobs
  | markJobStarted => exact frames_owned (id_of_ok fun _ => rfl)
  | markJobCompleted => exact frames_owned (id_of_ok fun _ => rfl)
  | touchExecutionHeartbeat => exact frames_owned (id_of_ok fun _ => rfl)
  | returnOwnedUnstartedRunningJobToPending => exact frames_owned (id_of_ok fun _ => rfl)
  | returnOwnedStartedRunningJobToPending => exact frames_owned (id_of_ok fun _ => rfl)
  | markJobFailed =>
      simp only [run, markJobFailed, map_snd_bind]
      exact frames_bind fun _ _ => frames_owned (id_of_bind fun _ _ => rfl)
  | scheduleOwnedRunningJobRetry =>
      simp only [run, scheduleOwnedRunningJobRetry, map_snd_bind]
      exact frames_bind fun _ _ => frames_bind fun _ _ => frames_owned (id_of_bind fun _ _ => rfl)
  | moveOwnedRunningJobToDeadLetter =>
      simp only [run, moveOwnedRunningJobToDeadLetter,
        map_snd_bind, Postgres.pure_eq_ok, map_snd_ok, bind_ok_self]
      exact frames_bind fun _ _ => frames_bind fun _ _ => frames_replace (free_ids free_lockJobs)
  | returnAvailableOwnedUnstartedRunningJobsToPending | returnAvailableOwnedStartedRunningJobsToPending =>
      simp only [run, returnAvailableOwnedUnstartedRunningJobsToPending,
        returnAvailableOwnedStartedRunningJobsToPending, returnAvailableOwnedRunningJobsToPending,
        Postgres.pure_eq_ok, map_snd_bind, map_snd_ok, bind_ok_self]
      exact frames_update (id_of_ok fun _ => rfl) free_lockJobs
  | cancelPendingJob =>
      simp only [run, cancelPendingJob, Postgres.pure_eq_ok, map_snd_bind, map_snd_ok, bind_ok_self]
      exact frames_replace (free_ids (free_filter free_lockJobs))
  | forceRequeueRunningJobById =>
      simp only [run, forceRequeueRunningJobById,
        Postgres.pure_eq_ok, map_snd_bind, map_snd_ok, bind_ok_self]
      exact frames_update (id_of_ok fun _ => rfl) (free_filter free_lockJobs)
  | retryFailedJobById =>
      simp only [run, retryFailedJobById, Postgres.pure_eq_ok, map_snd_bind, map_snd_ok, bind_ok_self]
      exact frames_update (id_of_bind fun _ _ => rfl) (free_filter free_lockJobs)
  | retryAvailableFailedJobs =>
      simp only [run, retryAvailableFailedJobs,
        Postgres.pure_eq_ok, map_snd_bind, map_snd_ok, bind_ok_self]
      exact frames_update (id_of_bind fun _ _ => rfl) (free_filter free_lockFirstJobs)
  | moveFailedJobToDeadLetter =>
      simp only [run, moveFailedJobToDeadLetter,
        Postgres.pure_eq_ok, map_snd_bind, map_snd_ok, bind_ok_self]
      exact frames_replace (free_ids (free_filter free_lockJobs))
  | moveFailedJobsToDeadLetterBatch =>
      simp only [run, moveFailedJobsToDeadLetterBatch,
        Postgres.pure_eq_ok, map_snd_bind, map_snd_ok, bind_ok_self]
      exact frames_replace (free_ids free_lockJobs)
  | requeueDeadLetterJob =>
      simp only [run, requeueDeadLetterJob, Postgres.pure_eq_ok, map_snd_bind, map_snd_ok, bind_ok_self]
      exact frames_bind fun _ _ => frames_replace (by rintro _ ⟨⟩)
  | deleteDeadLetterJob =>
      simp only [run, deleteDeadLetterJob, Postgres.pure_eq_ok, map_snd_bind, map_snd_ok, bind_ok_self]
      exact frames_replace (by rintro _ ⟨⟩)
  | cleanupJobsOlderThanOnce =>
      simp only [run, cleanupJobsOlderThanOnce,
        Postgres.pure_eq_ok, map_snd_bind, map_snd_ok, bind_ok_self]
      exact frames_bind fun _ _ => frames_replace (free_ids free_lockFirstJobs)
  | cleanupAvailableDeadLetterJobsOlderThanOnce =>
      simp only [run, cleanupAvailableDeadLetterJobsOlderThanOnce,
        Postgres.pure_eq_ok, map_snd_bind, map_snd_ok,
        bind_ok_self]
      exact frames_bind fun _ _ => frames_replace (by rintro _ ⟨⟩)
  | reclaimNeverStartedRunningJobs =>
      simp only [run, reclaimNeverStartedRunningJobs,
        Postgres.pure_eq_ok, map_snd_bind, map_snd_ok, bind_ok_self]
      exact frames_bind fun _ _ => frames_update (id_of_ok fun _ => rfl) free_lockFirstJobs
  | reclaimExpiredRunningJobsToFailed =>
      simp only [run, reclaimExpiredRunningJobsToFailed, Postgres.pure_eq_ok, map_snd_bind, map_snd_ok,
        bind_ok_self]
      exact frames_bind fun _ _ => frames_update (id_of_bind fun _ _ => rfl) free_lockFirstJobs
  | reclaimExpiredRunningJobsToPendingForRetry =>
      simp only [run, reclaimExpiredRunningJobsToPendingForRetry,
        Postgres.pure_eq_ok, map_snd_bind, map_snd_ok,
        bind_ok_self]
      exact frames_bind fun _ _ => frames_update (id_of_bind fun _ _ => rfl) free_lockFirstJobs
  | upsertPauseKey pauseKey =>
      have hsame : Frames m t (upsertPauseKey pauseKey t).pauses
        (.ok (upsertPauseKey pauseKey t)) := frames_same rfl
      exact hsame
  | deletePauseKey pauseKey =>
      have hsame : Frames m t (deletePauseKey pauseKey t).pauses
        (.ok (deletePauseKey pauseKey t)) := frames_same rfl
      exact hsame

end Paranoid.QueueFrames
