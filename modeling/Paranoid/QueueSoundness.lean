import Paranoid.QueueChanges

namespace Paranoid.QueueSoundness

open List QueueModel QueueStatements QueueOperations QueueEffects QueueChanges
open Postgres (bind_eq_error forall₂_mem_right mapM_eq_error mapM_eq_ok)

variable {π : Type} {m : Moment π} {t : Tables π} {id : JobId} {workerId : WorkerOwnerId}

theorem active_of_running {row : JobRow π} (h : row.status = .running) : row.status.active := by
  simp [JobStatus.active, h]

/-- A statement on the pause table leaves jobs and dead letters alone. -/
theorem sound_unchanged_tables {t' : Tables π} (hjobs : t'.jobs = t.jobs)
    (hdead : t'.deadLetters = t.deadLetters) : Sound .rewrites t (.ok t') := by
  refine ⟨fun t'' h => ?_, fun _ h => nomatch h⟩
  obtain rfl := Except.ok.inj h
  rw [Change, hjobs]
  exact ⟨forall₂_same.2 fun _ hrow => keeps_self hrow, forall₂_same.2 fun _ _ h => ⟨h, rfl⟩, hdead⟩

section Worker

theorem sound_ownedRunningJobUpdate {set : JobRow π → Except StatementError (JobRow π)}
    {targetExtra visibleExtraMismatch : JobRow π → Bool}
    (hset : ∀ row ∈ t.jobs, row.status = .running → RewritesOwned set row) :
    Sound .rewrites t
      ((ownedRunningJobUpdate m id workerId set targetExtra visibleExtraMismatch t).map Prod.snd) := by
  simp only [ownedRunningJobUpdate, Postgres.pure_eq_ok, map_snd_bind, map_snd_ok, bind_ok_self]
  refine sound_rewrites (fun row hrow => ?_) hset (fun _ => active_of_running)
  obtain ⟨hmem, hmatch, -⟩ := mem_lockJobs hrow
  simp only [ownedRunning, Bool.and_eq_true, decide_eq_true_eq] at hmatch
  exact ⟨hmem, hmatch.1.1.2⟩

theorem sound_claimAvailableJobs (taskNames : List TaskName) (claimLimit : Nat) :
    Sound .claims t ((claimAvailableJobs m taskNames claimLimit workerId t).map Prod.snd) := by
  unfold claimAvailableJobs
  split
  · exact sound_unchanged (change_self_claims t)
  · simp only [Postgres.pure_eq_ok, map_snd_bind, map_snd_ok, bind_ok_self]
    refine sound_claims (P := fun row => row.status = .pending) (fun row hrow => ?_)
      (fun row hrow hstatus => rewrites_ok (keeps_claimedBy hrow hstatus))
      (fun row hrow => by simp [JobStatus.active, hrow])
    obtain ⟨hmem, hmatch, -⟩ := mem_lockFirstJobs hrow
    simp only [claimable, Bool.and_eq_true, decide_eq_true_eq] at hmatch
    exact ⟨hmem, hmatch.1.1.1.1⟩

/-- The jobs that a claim takes, and the tables that it leaves. -/
theorem claimAvailableJobs_eq_ok {taskNames : List TaskName} {claimLimit : Nat} {jobs : List (JobRow π)}
    {t' : Tables π} (h : claimAvailableJobs m taskNames claimLimit workerId t = .ok (jobs, t')) :
    let candidates := jobIds (lockFirstJobs m t (claimable m taskNames) claimOrder claimLimit)
    t'.jobs = t.jobs.map
      (fun row => if row.id ∈ candidates then claimedBy m.now workerId row else row) ∧
      jobs = t'.jobs.filter (·.id ∈ candidates) ∧
        t'.deadLetters = t.deadLetters ∧ t'.pauses = t.pauses := by
  dsimp only [claimAvailableJobs] at h
  split at h
  · rename_i hnames
    obtain ⟨rfl, rfl⟩ := Prod.mk.inj (Except.ok.inj h)
    have hnone : lockFirstJobs m t (claimable m taskNames) claimOrder claimLimit = [] := by
      rw [eq_nil_iff_forall_not_mem]
      intro row hrow
      obtain ⟨-, hmatch, -⟩ := mem_lockFirstJobs hrow
      simp [claimable, hnames] at hmatch
    simp [hnone, jobIds]
  · obtain ⟨updated, hupdated, hreply⟩ := Postgres.bind_eq_ok.1 h
    obtain ⟨rfl, rfl⟩ := Prod.mk.inj (Except.ok.inj hreply)
    obtain ⟨hjobs, hdead, hpauses⟩ := updateJobs_ok_eq_ok hupdated
    exact ⟨hjobs, rfl, hdead, hpauses⟩

/-- A row after a claim: either the claim took it, or it is as before. -/
theorem claimed_rows {taskNames : List TaskName} {claimLimit : Nat} {jobs : List (JobRow π)}
    {t' : Tables π} (h : claimAvailableJobs m taskNames claimLimit workerId t = .ok (jobs, t'))
    {row' : JobRow π} (hrow' : row' ∈ t'.jobs) :
    (row' ∈ jobs ∧ ∃ row ∈ t.jobs, row.status = .pending ∧ row' = claimedBy m.now workerId row) ∨
      (row' ∈ t.jobs ∧ row'.id ∉ jobIds jobs) := by
  obtain ⟨hjobs, hreturned, -, -⟩ := claimAvailableJobs_eq_ok h
  have hmem := hrow'
  rw [hjobs] at hmem
  obtain ⟨row, hrow, heq⟩ := mem_map.1 hmem
  by_cases htaken : row.id ∈ jobIds (lockFirstJobs m t (claimable m taskNames) claimOrder claimLimit)
  · rw [if_pos htaken] at heq
    subst heq
    refine .inl ⟨by rw [hreturned]; exact mem_filter.2 ⟨hrow', decide_eq_true htaken⟩, row, hrow, ?_, rfl⟩
    obtain ⟨other, hother, hid⟩ := mem_map.1 htaken
    obtain ⟨hmem, hmatch, -⟩ := mem_lockFirstJobs hother
    obtain rfl := inj_on_of_nodup_map (t.constraints .primaryKey) hmem hrow hid
    simp only [claimable, Bool.and_eq_true, decide_eq_true_eq] at hmatch
    exact hmatch.1.1.1.1
  · rw [if_neg htaken] at heq
    subst heq
    refine .inr ⟨hrow, fun hreturn => htaken ?_⟩
    obtain ⟨other, hother, hid⟩ := mem_map.1 hreturn
    rw [hreturned, mem_filter, decide_eq_true_eq, hid] at hother
    exact hother.2

theorem sound_markJobStarted : Sound .rewrites t ((markJobStarted m id workerId t).map Prod.snd) := by
  refine sound_ownedRunningJobUpdate fun row hrow hstatus =>
    rewritesOwned_ok ?_ fun _ => ⟨hstatus, rfl⟩
  refine ⟨rfl, rfl, t.constraints .numericDomains row hrow, .inr (.inl ?_)⟩
  obtain ⟨hworker, hclaimed, -, hfinished⟩ := running_shape hrow hstatus
  exact ⟨hstatus, hworker, hclaimed, Option.some_ne_none _, hfinished⟩

theorem sound_touchExecutionHeartbeat :
    Sound .rewrites t ((touchExecutionHeartbeat m id workerId t).map Prod.snd) := by
  refine sound_ownedRunningJobUpdate fun row hrow hstatus =>
    rewritesOwned_ok ?_ fun _ => ⟨hstatus, rfl⟩
  refine ⟨rfl, rfl, t.constraints .numericDomains row hrow, .inr (.inl ?_)⟩
  obtain ⟨hworker, hclaimed, -, hfinished⟩ := running_shape hrow hstatus
  exact ⟨hstatus, hworker, hclaimed, Option.some_ne_none _, hfinished⟩

theorem sound_markJobCompleted :
    Sound .rewrites t ((markJobCompleted m id workerId t).map Prod.snd) := by
  refine sound_ownedRunningJobUpdate fun row hrow _ => rewritesOwned_ok ?_ nofun
  exact ⟨rfl, rfl, t.constraints .numericDomains row hrow, by
    simp [JobRow.StatusLifecycleShape, clearWorkerRuntime]⟩

theorem sound_markJobFailed (errorMessage : String) (increment : Bool) :
    Sound .rewrites t ((markJobFailed m id workerId errorMessage increment t).map Prod.snd) := by
  simp only [markJobFailed, map_snd_bind]
  refine Sound.bind (text_ne_violation errorMessage) fun lastError _ => ?_
  refine sound_ownedRunningJobUpdate fun row hrow _ => ?_
  refine rewritesOwned_bind (sql_ne_violation _) (fun n hn => ?_) (fun _ => nofun)
  have hdomains := incrementRetryCount_nonneg hrow hn
  exact ⟨rfl, rfl, hdomains, by simp [JobRow.StatusLifecycleShape, clearWorkerRuntime]⟩

theorem sound_scheduleOwnedRunningJobRetry (newRetryCount : Nat) (retryAfterMicroseconds : Int)
    (errorMessage : String) :
    Sound .rewrites t ((scheduleOwnedRunningJobRetry m id workerId newRetryCount
      retryAfterMicroseconds errorMessage t).map Prod.snd) := by
  simp only [scheduleOwnedRunningJobRetry, map_snd_bind]
  refine Sound.bind (sql_ne_violation _) fun count hcount => ?_
  refine Sound.bind (text_ne_violation errorMessage) fun lastError _ => ?_
  have hnonneg : 0 ≤ count := by
    rw [sql_int4_eq_ok hcount]
    exact Int.natCast_nonneg _
  refine sound_ownedRunningJobUpdate fun row hrow _ => ?_
  refine rewritesOwned_bind (nextRunAt_ne_violation _ _) (fun runAt _ => ?_) (fun _ => nofun)
  exact ⟨rfl, rfl, ⟨hnonneg, (t.constraints .numericDomains row hrow).2⟩, by
    simp [JobRow.StatusLifecycleShape, clearWorkerRuntime]⟩

theorem sound_returnOwnedUnstartedRunningJobToPending :
    Sound .rewrites t ((returnOwnedUnstartedRunningJobToPending m id workerId t).map Prod.snd) := by
  exact sound_ownedRunningJobUpdate fun row hrow _ => rewritesOwned_returnToPending hrow

theorem sound_returnOwnedStartedRunningJobToPending :
    Sound .rewrites t ((returnOwnedStartedRunningJobToPending m id workerId t).map Prod.snd) := by
  exact sound_ownedRunningJobUpdate fun row hrow _ => rewritesOwned_returnToPending hrow

theorem sound_returnAvailableOwnedRunningJobsToPending (executionStarted : JobRow π → Bool) :
    Sound .rewrites t
      ((returnAvailableOwnedRunningJobsToPending m workerId executionStarted t).map Prod.snd) := by
  simp only [returnAvailableOwnedRunningJobsToPending, Postgres.pure_eq_ok, map_snd_bind, map_snd_ok,
    bind_ok_self]
  refine sound_rewrites (P := fun row => row.status = .running) (fun row hrow => ?_)
    (fun row hrow _ => rewritesOwned_returnToPending hrow) (fun _ => active_of_running)
  obtain ⟨hmem, hmatch, -⟩ := mem_lockJobs hrow
  simp only [Bool.and_eq_true, decide_eq_true_eq] at hmatch
  exact ⟨hmem, hmatch.1.2⟩

theorem replaces_deadLetterOf (now : Int) (deadLetterId : JobId) (lastError : String) (retryCount : Int)
    (reason : DeadLetterReason) (row : JobRow π) :
    Replaces row (deadLetterOf now deadLetterId lastError retryCount reason row) :=
  ⟨rfl, rfl⟩

theorem sound_moveOwnedRunningJobToDeadLetter (deadLetterId : JobId) (errorMessage : String)
    (increment : Bool) (reason : DeadLetterReason) :
    Sound .moves t ((moveOwnedRunningJobToDeadLetter m id workerId deadLetterId errorMessage increment
      reason t).map Prod.snd) := by
  simp only [moveOwnedRunningJobToDeadLetter,
    Postgres.pure_eq_ok, map_snd_bind, map_snd_ok, bind_ok_self]
  refine Sound.bind (text_ne_violation errorMessage) fun lastError _ => ?_
  have hmem : ∀ row ∈ lockJobs m t (ownedRunning id workerId), row ∈ t.jobs :=
    fun row hrow => (mem_lockJobs hrow).1
  refine Sound.bind (fun c hc => ?_) fun inserted hinserted => ?_
  · obtain ⟨row, -, hfail⟩ := mapM_eq_error hc
    rcases bind_eq_error.1 hfail with hfail | ⟨n, -, hfail⟩
    · exact sql_ne_violation _ c hfail
    · cases hfail
  · have hreplaced := mapM_eq_ok hinserted
    refine sound_moves hmem (lockJobs_nodup m t _) ?_ ?_
    · refine hreplaced.imp fun row deadLetter hd => ?_
      obtain ⟨n, -, hd⟩ := Postgres.bind_eq_ok.1 hd
      exact Except.ok.inj hd ▸ replaces_deadLetterOf ..
    · intro deadLetter hdead
      obtain ⟨row, hrow, hd⟩ := forall₂_mem_right hreplaced hdead
      obtain ⟨n, hn, hd⟩ := Postgres.bind_eq_ok.1 hd
      obtain rfl := Except.ok.inj hd
      exact incrementRetryCount_nonneg (hmem row hrow) hn

end Worker

section Operator

theorem sound_cancelPendingJob : Sound .deletes t ((cancelPendingJob m id t).map Prod.snd) := by
  simp only [cancelPendingJob, Postgres.pure_eq_ok, map_snd_bind, map_snd_ok, bind_ok_self]
  exact sound_deletes _ _

theorem sound_forceRequeueRunningJobById :
    Sound .rewrites t ((forceRequeueRunningJobById m id t).map Prod.snd) := by
  simp only [forceRequeueRunningJobById, Postgres.pure_eq_ok, map_snd_bind, map_snd_ok, bind_ok_self]
  refine sound_rewrites (P := fun row => row.status = .running) (fun row hrow => ?_)
    (fun row hrow _ => rewritesOwned_returnToPending hrow) (fun _ => active_of_running)
  obtain ⟨hmem, hstatus⟩ := mem_filter.1 hrow
  exact ⟨(mem_lockJobs hmem).1, by simpa using hstatus⟩

theorem rewritesOwned_retryFailedJob {row : JobRow π}
    (now : Int) (runAt : Option Int) (hrow : row ∈ t.jobs) :
    RewritesOwned (fun row => do return retryFailedJob now (← runAtOrNow now runAt) row) row :=
  rewritesOwned_bind (x := fun _ => runAtOrNow now runAt) (runAtOrNow_ne_violation now runAt)
    (fun _ _ => keeps_retryFailedJob hrow) (fun _ => nofun)

theorem sound_retryFailedJobById (runAt : Option Int) :
    Sound .activates t ((retryFailedJobById m id runAt t).map Prod.snd) := by
  simp only [retryFailedJobById, Postgres.pure_eq_ok, map_snd_bind, map_snd_ok, bind_ok_self]
  exact sound_activates (P := fun _ => True)
    (fun row hrow => ⟨(mem_lockJobs (mem_of_mem_filter hrow)).1, trivial⟩)
    (fun row hrow _ => rewritesOwned_retryFailedJob m.now runAt hrow)

theorem sound_retryAvailableFailedJobs (optionalTaskName : Option TaskName) (limit : Nat)
    (runAt : Option Int) :
    Sound .activates t ((retryAvailableFailedJobs m optionalTaskName limit runAt t).map Prod.snd) := by
  simp only [retryAvailableFailedJobs, Postgres.pure_eq_ok, map_snd_bind, map_snd_ok, bind_ok_self]
  exact sound_activates (P := fun _ => True)
    (fun row hrow => ⟨(mem_lockFirstJobs (mem_of_mem_filter hrow)).1, trivial⟩)
    (fun row hrow _ => rewritesOwned_retryFailedJob m.now runAt hrow)

theorem sound_moveFailed {moved : List (JobRow π)}
    (reason : DeadLetterReason) (newId : JobRow π → JobId)
    (hmoved : ∀ row ∈ moved, row ∈ t.jobs) (hnodup : (jobIds moved).Nodup) :
    Sound .moves t (replaceRows t (jobIds moved) [] []
      (moved.map fun row => failedDeadLetter m.now (newId row) reason row)) := by
  refine sound_moves hmoved hnodup ?_ ?_
  · rw [forall₂_map_right_iff, forall₂_same]
    exact fun row _ => replaces_deadLetterOf ..
  · intro deadLetter hdead
    obtain ⟨row, hrow, rfl⟩ := mem_map.1 hdead
    exact t.constraints .numericDomains row (hmoved row hrow)

theorem sound_moveFailedJobToDeadLetter (deadLetterId : JobId) (reason : DeadLetterReason) :
    Sound .moves t ((moveFailedJobToDeadLetter m id deadLetterId reason t).map Prod.snd) := by
  simp only [moveFailedJobToDeadLetter, Postgres.pure_eq_ok, map_snd_bind, map_snd_ok, bind_ok_self]
  exact sound_moveFailed reason (fun _ => deadLetterId)
    (fun row hrow => (mem_lockJobs (mem_of_mem_filter hrow)).1)
    ((filter_sublist.map _).nodup (lockJobs_nodup m t _))

theorem sound_moveFailedJobsToDeadLetterBatch (idMap : List (JobId × JobId))
    (reason : DeadLetterReason) :
    Sound .moves t ((moveFailedJobsToDeadLetterBatch m idMap reason t).map Prod.snd) := by
  simp only [moveFailedJobsToDeadLetterBatch,
    Postgres.pure_eq_ok, map_snd_bind, map_snd_ok, bind_ok_self]
  exact sound_moveFailed reason (fun row => (idMap.lookup row.id).getD 0)
    (fun row hrow => (mem_lockJobs hrow).1) (lockJobs_nodup m t _)

theorem sound_deleteDeadLetterJob (deadLetterId : JobId) :
    Sound .deletes t ((deleteDeadLetterJob m deadLetterId t).map Prod.snd) := by
  simp only [deleteDeadLetterJob, Postgres.pure_eq_ok, map_snd_bind, map_snd_ok, bind_ok_self]
  exact sound_deletes _ _

theorem eq_nil_or_singleton_of_key {ρ : Type} {key : ρ → JobId} {rows : List ρ} {k : JobId}
    (hnodup : (rows.map key).Nodup) (hkey : ∀ row ∈ rows, key row = k) :
    rows = [] ∨ ∃ row, rows = [row] := by
  match rows, hnodup, hkey with
  | [], _, _ => exact .inl rfl
  | [row], _, _ => exact .inr ⟨row, rfl⟩
  | row :: other :: _, hnodup, hkey =>
      rw [map_cons, map_cons, hkey row (by simp), hkey other (by simp)] at hnodup
      simp at hnodup

theorem forall₂_singleton_left {α β : Type} {R : α → β → Prop} {x : α} {ys : List β}
    (h : Forall₂ R [x] ys) : ∃ y, R x y ∧ ys = [y] := by
  cases h with
  | cons hr hrest =>
      cases hrest
      exact ⟨_, hr, rfl⟩

theorem sound_requeueDeadLetterJob (deadLetterId newJobId : JobId) (runAt : Option Int) :
    Sound .requeues t ((requeueDeadLetterJob m deadLetterId newJobId runAt t).map Prod.snd) := by
  simp only [requeueDeadLetterJob, Postgres.pure_eq_ok, map_snd_bind, map_snd_ok, bind_ok_self]
  generalize (lockDeadLetters m t (fun row => decide (row.id = deadLetterId))).any
    (fun row => m.snapshot.jobs.any (activeDedupeMatch row.taskName row.dedupeKey)) = conflict
  generalize hreq : (lockDeadLetters m t (fun row => decide (row.id = deadLetterId))).filter
    (fun row => !conflict && !t.jobs.any (activeDedupeMatch row.taskName row.dedupeKey)) = requeued
  have hmem : ∀ row ∈ requeued, row ∈ t.deadLetters ∧ row.id = deadLetterId ∧
      t.jobs.any (activeDedupeMatch row.taskName row.dedupeKey) = false := by
    intro row hrow
    obtain ⟨hlocked, hfree⟩ := mem_filter.1 (hreq ▸ hrow)
    obtain ⟨hdead, hid⟩ := mem_lockDeadLetters hlocked
    simp only [Bool.and_eq_true, Bool.not_eq_true'] at hfree
    exact ⟨hdead, by simpa using hid, hfree.2⟩
  have hnodup : (deadLetterIds requeued).Nodup :=
    hreq ▸ (filter_sublist.map _).nodup (lockDeadLetters_nodup m t _)
  refine Sound.bind (fun c hc => ?_) fun inserted hinserted => ?_
  · obtain ⟨row, -, hfail⟩ := mapM_eq_error hc
    rcases bind_eq_error.1 hfail with hfail | ⟨n, -, hfail⟩
    · exact runAtOrNow_ne_violation _ _ c hfail
    · cases hfail
  have hreplaced : Forall₂ (fun source row =>
      ∃ runAt, row = requeuedJob m.now runAt newJobId source) requeued inserted := by
    refine (mapM_eq_ok hinserted).imp fun source row hd => ?_
    obtain ⟨n, -, hd⟩ := Postgres.bind_eq_ok.1 hd
    exact ⟨n, (Except.ok.inj hd).symm⟩
  refine sound_requeues (fun row hrow => (hmem row hrow).1) hnodup ?_ ?_ ?_ ?_
  · refine hreplaced.imp fun source row hrow => ?_
    obtain ⟨runAt, rfl⟩ := hrow
    rfl
  · intro row hrow
    obtain ⟨source, hsource, runAt, rfl⟩ := forall₂_mem_right hreplaced hrow
    obtain ⟨-, hmax, htimeout⟩ := t.constraints .deadLetterNumericDomains source (hmem source hsource).1
    exact ⟨⟨le_rfl, hmax, htimeout⟩, by simp [JobRow.StatusLifecycleShape, requeuedJob]⟩
  · intro row hrow
    obtain ⟨source, -, runAt, rfl⟩ := forall₂_mem_right hreplaced hrow
    rfl
  · rcases eq_nil_or_singleton_of_key hnodup
      (fun row hrow => (hmem row hrow).2.1) with rfl | ⟨source, rfl⟩
    · cases hreplaced
      rw [filterMap_nil, append_nil]
      exact t.constraints .dedupeActive
    · obtain ⟨row, ⟨runAt, rfl⟩, rfl⟩ := forall₂_singleton_left hreplaced
      exact inactive_nodup (inactive_of_no_match (hmem source (mem_singleton_self source)).2.2)

end Operator

section Maintenance

theorem sound_cleanupJobsOlderThanOnce (status : JobStatus) (olderThan : Int) (batchSize : Nat) :
    Sound .deletes t ((cleanupJobsOlderThanOnce m status olderThan batchSize t).map Prod.snd) := by
  simp only [cleanupJobsOlderThanOnce, Postgres.pure_eq_ok, map_snd_bind, map_snd_ok, bind_ok_self]
  exact Sound.bind (sql_ne_violation _) fun cutoff _ => sound_deletes _ _

theorem sound_cleanupAvailableDeadLetterJobsOlderThanOnce (olderThan : Int) (batchSize : Nat) :
    Sound .deletes t
      ((cleanupAvailableDeadLetterJobsOlderThanOnce m olderThan batchSize t).map Prod.snd) := by
  simp only [cleanupAvailableDeadLetterJobsOlderThanOnce, Postgres.pure_eq_ok, map_snd_bind, map_snd_ok,
    bind_ok_self]
  exact Sound.bind (sql_ne_violation _) fun cutoff _ => sound_deletes _ _

theorem running_of_stale {cutoff : Int} {row : JobRow π} (h : stale cutoff row) :
    row.status = .running := by
  simp only [stale, Bool.and_eq_true, decide_eq_true_eq] at h
  exact h.1

/-- The three reclaim statements: stale running rows, whatever else they ask of a row. -/
theorem sound_reclaim {cutoff : Int} {extra : JobRow π → Bool} {batchSize : Nat}
    {set : JobRow π → Except StatementError (JobRow π)} (hset : ∀ row ∈ t.jobs, RewritesOwned set row) :
    Sound .rewrites t (updateJobs t
      (jobIds (lockFirstJobs m t (fun row => stale cutoff row && extra row)
      heartbeatOrder batchSize)) set) := by
  refine sound_rewrites (P := fun row => row.status = .running) (fun row hrow => ?_)
    (fun row hrow _ => hset row hrow) (fun _ => active_of_running)
  obtain ⟨hmem, hmatch, -⟩ := mem_lockFirstJobs hrow
  exact ⟨hmem, running_of_stale (Bool.and_eq_true _ _ ▸ hmatch).1⟩

theorem sound_reclaimNeverStartedRunningJobs (threshold : Int) (batchSize : Nat) :
    Sound .rewrites t ((reclaimNeverStartedRunningJobs m threshold batchSize t).map Prod.snd) := by
  simp only [reclaimNeverStartedRunningJobs,
    Postgres.pure_eq_ok, map_snd_bind, map_snd_ok, bind_ok_self]
  refine Sound.bind (sql_ne_violation _) fun cutoff _ => ?_
  exact sound_reclaim fun row hrow => rewritesOwned_returnToPending hrow

theorem sound_reclaimExpiredRunningJobsToFailed (threshold : Int) (batchSize : Nat) :
    Sound .rewrites t ((reclaimExpiredRunningJobsToFailed m threshold batchSize t).map Prod.snd) := by
  simp only [reclaimExpiredRunningJobsToFailed,
    Postgres.pure_eq_ok, map_snd_bind, map_snd_ok, bind_ok_self]
  refine Sound.bind (sql_ne_violation _) fun cutoff _ => ?_
  simp only [Bool.and_assoc]
  refine sound_reclaim fun row hrow => ?_
  refine rewritesOwned_bind (sql_ne_violation _) (fun n hn => ?_) (fun _ => nofun)
  have hdomains := incrementRetryCount_nonneg hrow hn
  exact ⟨rfl, rfl, hdomains, by simp [JobRow.StatusLifecycleShape, clearWorkerRuntime]⟩

theorem sound_reclaimExpiredRunningJobsToPendingForRetry (threshold : Int) (batchSize : Nat) :
    Sound .rewrites t
      ((reclaimExpiredRunningJobsToPendingForRetry m threshold batchSize t).map Prod.snd) := by
  simp only [reclaimExpiredRunningJobsToPendingForRetry, Postgres.pure_eq_ok, map_snd_bind, map_snd_ok,
    bind_ok_self]
  refine Sound.bind (sql_ne_violation _) fun cutoff _ => ?_
  simp only [Bool.and_assoc]
  refine sound_reclaim fun row hrow => ?_
  refine rewritesOwned_bind (sql_ne_violation _) (fun n hn => ?_) (fun _ => nofun)
  have hdomains := incrementRetryCount_nonneg hrow hn
  exact ⟨rfl, rfl, hdomains, by simp [JobRow.StatusLifecycleShape, clearWorkerRuntime]⟩

end Maintenance

section Enqueue

variable {taskName : TaskName} {options : PreparedOptions}

theorem enqueuedJob_checks (now runAt : Int) (dedupeKey : Option DedupeKey) (payload : π) :
    NumericDomains (enqueuedJob now runAt taskName options dedupeKey id payload).retryCount
      (enqueuedJob now runAt taskName options dedupeKey id payload).maxRetries
      (enqueuedJob now runAt taskName options dedupeKey id payload).timeoutNanos ∧
    (enqueuedJob now runAt taskName options dedupeKey id payload).StatusLifecycleShape :=
  ⟨options.domains, by simp [JobRow.StatusLifecycleShape, enqueuedJob]⟩

theorem sound_batchEnqueue (jobs : List (JobId × π)) : Sound (.enqueues (jobs.map Prod.snd)) t
    ((batchEnqueue m taskName options jobs t).map Prod.snd) := by
  unfold batchEnqueue
  split
  · exact sound_unchanged (change_self_enqueues t _)
  split
  · exact sound_unchanged (change_self_enqueues t _)
  split
  · exact sound_unchanged (change_self_enqueues t _)
  simp only [Postgres.pure_eq_ok, map_snd_bind, map_snd_ok, bind_ok_self]
  refine Sound.bind (runAtOrNow_ne_violation _ _) fun runAt _ => sound_enqueues ?_ ?_ ?_ ?_
  · intro row hrow
    obtain ⟨job, -, rfl⟩ := mem_map.1 hrow
    exact enqueuedJob_checks ..
  · intro row hrow
    obtain ⟨job, -, rfl⟩ := mem_map.1 hrow
    rfl
  · have hnone : (jobs.map fun job =>
      enqueuedJob m.now runAt taskName options none job.1 job.2).filterMap
        JobRow.activeDedupeKey = [] := by
      rw [filterMap_eq_nil_iff]
      intro row hrow
      obtain ⟨job, -, rfl⟩ := mem_map.1 hrow
      simp [JobRow.activeDedupeKey, JobStatus.active, enqueuedJob]
    rw [hnone, append_nil]
    exact t.constraints .dedupeActive
  · rw [map_map]
    rfl

theorem sound_dedupeEnqueue (dedupeKey : DedupeKey) (payload : π) : Sound (.enqueues [payload]) t
    ((dedupeEnqueue m taskName options dedupeKey id payload t).map Prod.snd) := by
  dsimp only [dedupeEnqueue]
  split
  · exact sound_unchanged (change_self_enqueues t _)
  split
  · exact sound_unchanged (change_self_enqueues t _)
  simp only [Postgres.pure_eq_ok, map_snd_bind]
  refine Sound.bind (runAtOrNow_ne_violation _ _) fun runAt _ => ?_
  split
  · exact sound_unchanged (change_self_enqueues t _)
  · rename_i hfree
    simp only [map_snd_bind, map_snd_ok, bind_ok_self]
    refine sound_enqueues ?_
      (by simp [enqueuedJob]) (inactive_nodup (inactive_of_no_match (Bool.eq_false_iff.2 hfree))) rfl
    simpa using enqueuedJob_checks ..

end Enqueue

theorem run_sound (s : Statement π) : Sound s.kind t (run m s t) := by
  cases s with
  | singleEnqueue _ _ id payload => exact sound_batchEnqueue [(id, payload)]
  | batchEnqueue => exact sound_batchEnqueue _
  | dedupeEnqueue => exact sound_dedupeEnqueue ..
  | claimAvailableJobs => exact sound_claimAvailableJobs ..
  | markJobStarted => exact sound_markJobStarted
  | markJobCompleted => exact sound_markJobCompleted
  | touchExecutionHeartbeat => exact sound_touchExecutionHeartbeat
  | markJobFailed => exact sound_markJobFailed ..
  | scheduleOwnedRunningJobRetry =>
      rw [run]
      exact sound_scheduleOwnedRunningJobRetry ..
  | moveOwnedRunningJobToDeadLetter => exact sound_moveOwnedRunningJobToDeadLetter ..
  | returnOwnedUnstartedRunningJobToPending => exact sound_returnOwnedUnstartedRunningJobToPending
  | returnOwnedStartedRunningJobToPending => exact sound_returnOwnedStartedRunningJobToPending
  | returnAvailableOwnedUnstartedRunningJobsToPending =>
      exact sound_returnAvailableOwnedRunningJobsToPending _
  | returnAvailableOwnedStartedRunningJobsToPending =>
      exact sound_returnAvailableOwnedRunningJobsToPending _
  | cancelPendingJob => exact sound_cancelPendingJob
  | forceRequeueRunningJobById => exact sound_forceRequeueRunningJobById
  | retryFailedJobById => exact sound_retryFailedJobById _
  | retryAvailableFailedJobs => exact sound_retryAvailableFailedJobs ..
  | moveFailedJobToDeadLetter => exact sound_moveFailedJobToDeadLetter ..
  | moveFailedJobsToDeadLetterBatch => exact sound_moveFailedJobsToDeadLetterBatch ..
  | requeueDeadLetterJob => exact sound_requeueDeadLetterJob ..
  | deleteDeadLetterJob => exact sound_deleteDeadLetterJob _
  | cleanupJobsOlderThanOnce => exact sound_cleanupJobsOlderThanOnce ..
  | cleanupAvailableDeadLetterJobsOlderThanOnce =>
      exact sound_cleanupAvailableDeadLetterJobsOlderThanOnce ..
  | reclaimNeverStartedRunningJobs => exact sound_reclaimNeverStartedRunningJobs ..
  | reclaimExpiredRunningJobsToFailed => exact sound_reclaimExpiredRunningJobsToFailed ..
  | reclaimExpiredRunningJobsToPendingForRetry =>
      exact sound_reclaimExpiredRunningJobsToPendingForRetry ..
  | upsertPauseKey => exact sound_unchanged_tables rfl rfl
  | deletePauseKey => exact sound_unchanged_tables rfl rfl

end Paranoid.QueueSoundness
