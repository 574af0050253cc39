import Paranoid.QueueEffects

namespace Paranoid.QueueChanges

open List QueueModel QueueStatements QueueOperations QueueEffects
open Postgres (bind_eq_error forall₂_mem_right)

variable {π : Type}

inductive Statement (π : Type)
  | singleEnqueue (taskName : TaskName) (options : PreparedOptions) (id : JobId) (payload : π)
  | batchEnqueue (taskName : TaskName) (options : PreparedOptions) (jobs : List (JobId × π))
  | dedupeEnqueue (taskName : TaskName) (options : PreparedOptions) (dedupeKey : DedupeKey) (id : JobId)
      (payload : π)
  | claimAvailableJobs (taskNames : List TaskName) (claimLimit : Nat) (workerId : WorkerOwnerId)
  | markJobStarted (id : JobId) (workerId : WorkerOwnerId)
  | markJobCompleted (id : JobId) (workerId : WorkerOwnerId)
  | touchExecutionHeartbeat (id : JobId) (workerId : WorkerOwnerId)
  | markJobFailed (id : JobId) (workerId : WorkerOwnerId) (errorMessage : String) (increment : Bool)
  | scheduleOwnedRunningJobRetry (id : JobId) (workerId : WorkerOwnerId) (newRetryCount : Nat)
      (retryAfterMicroseconds : Int) (errorMessage : String)
  | moveOwnedRunningJobToDeadLetter (id : JobId) (workerId : WorkerOwnerId) (deadLetterId : JobId)
      (errorMessage : String) (increment : Bool) (reason : DeadLetterReason)
  | returnOwnedUnstartedRunningJobToPending (id : JobId) (workerId : WorkerOwnerId)
  | returnOwnedStartedRunningJobToPending (id : JobId) (workerId : WorkerOwnerId)
  | returnAvailableOwnedUnstartedRunningJobsToPending (workerId : WorkerOwnerId)
  | returnAvailableOwnedStartedRunningJobsToPending (workerId : WorkerOwnerId)
  | cancelPendingJob (id : JobId)
  | forceRequeueRunningJobById (id : JobId)
  | retryFailedJobById (id : JobId) (runAtOrAfterUnixMicroseconds : Option Int)
  | retryAvailableFailedJobs (optionalTaskName : Option TaskName) (limit : Nat)
      (runAtOrAfterUnixMicroseconds : Option Int)
  | moveFailedJobToDeadLetter (id deadLetterId : JobId) (reason : DeadLetterReason)
  | moveFailedJobsToDeadLetterBatch (idMap : List (JobId × JobId)) (reason : DeadLetterReason)
  | requeueDeadLetterJob (deadLetterId newJobId : JobId) (runAtOrAfterUnixMicroseconds : Option Int)
  | deleteDeadLetterJob (deadLetterId : JobId)
  | cleanupJobsOlderThanOnce (status : JobStatus) (olderThanMicroseconds : Int) (batchSize : Nat)
  | cleanupAvailableDeadLetterJobsOlderThanOnce (olderThanMicroseconds : Int) (batchSize : Nat)
  | reclaimNeverStartedRunningJobs (staleThresholdMicroseconds : Int) (batchSize : Nat)
  | reclaimExpiredRunningJobsToFailed (staleThresholdMicroseconds : Int) (batchSize : Nat)
  | reclaimExpiredRunningJobsToPendingForRetry (staleThresholdMicroseconds : Int) (batchSize : Nat)
  | upsertPauseKey (pauseKey : String)
  | deletePauseKey (pauseKey : String)

/-- The tables that a statement leaves; its reply is left out. -/
def run (m : Moment π) (s : Statement π) (t : Tables π) : Except StatementError (Tables π) :=
  match s with
  | .singleEnqueue taskName options id payload =>
      (singleEnqueue m taskName options id payload t).map Prod.snd
  | .batchEnqueue taskName options jobs => (batchEnqueue m taskName options jobs t).map Prod.snd
  | .dedupeEnqueue taskName options dedupeKey id payload =>
      (dedupeEnqueue m taskName options dedupeKey id payload t).map Prod.snd
  | .claimAvailableJobs taskNames claimLimit workerId =>
      (claimAvailableJobs m taskNames claimLimit workerId t).map Prod.snd
  | .markJobStarted id workerId => (markJobStarted m id workerId t).map Prod.snd
  | .markJobCompleted id workerId => (markJobCompleted m id workerId t).map Prod.snd
  | .touchExecutionHeartbeat id workerId => (touchExecutionHeartbeat m id workerId t).map Prod.snd
  | .markJobFailed id workerId errorMessage increment =>
      (markJobFailed m id workerId errorMessage increment t).map Prod.snd
  | .scheduleOwnedRunningJobRetry id workerId newRetryCount retryAfter errorMessage =>
      (scheduleOwnedRunningJobRetry m id workerId newRetryCount retryAfter errorMessage t).map Prod.snd
  | .moveOwnedRunningJobToDeadLetter id workerId deadLetterId errorMessage increment reason =>
      (moveOwnedRunningJobToDeadLetter m id workerId deadLetterId errorMessage increment reason t).map
        Prod.snd
  | .returnOwnedUnstartedRunningJobToPending id workerId =>
      (returnOwnedUnstartedRunningJobToPending m id workerId t).map Prod.snd
  | .returnOwnedStartedRunningJobToPending id workerId =>
      (returnOwnedStartedRunningJobToPending m id workerId t).map Prod.snd
  | .returnAvailableOwnedUnstartedRunningJobsToPending workerId =>
      (returnAvailableOwnedUnstartedRunningJobsToPending m workerId t).map Prod.snd
  | .returnAvailableOwnedStartedRunningJobsToPending workerId =>
      (returnAvailableOwnedStartedRunningJobsToPending m workerId t).map Prod.snd
  | .cancelPendingJob id => (cancelPendingJob m id t).map Prod.snd
  | .forceRequeueRunningJobById id => (forceRequeueRunningJobById m id t).map Prod.snd
  | .retryFailedJobById id runAt => (retryFailedJobById m id runAt t).map Prod.snd
  | .retryAvailableFailedJobs optionalTaskName limit runAt =>
      (retryAvailableFailedJobs m optionalTaskName limit runAt t).map Prod.snd
  | .moveFailedJobToDeadLetter id deadLetterId reason =>
      (moveFailedJobToDeadLetter m id deadLetterId reason t).map Prod.snd
  | .moveFailedJobsToDeadLetterBatch idMap reason =>
      (moveFailedJobsToDeadLetterBatch m idMap reason t).map Prod.snd
  | .requeueDeadLetterJob deadLetterId newJobId runAt =>
      (requeueDeadLetterJob m deadLetterId newJobId runAt t).map Prod.snd
  | .deleteDeadLetterJob deadLetterId => (deleteDeadLetterJob m deadLetterId t).map Prod.snd
  | .cleanupJobsOlderThanOnce status olderThan batchSize =>
      (cleanupJobsOlderThanOnce m status olderThan batchSize t).map Prod.snd
  | .cleanupAvailableDeadLetterJobsOlderThanOnce olderThan batchSize =>
      (cleanupAvailableDeadLetterJobsOlderThanOnce m olderThan batchSize t).map Prod.snd
  | .reclaimNeverStartedRunningJobs threshold batchSize =>
      (reclaimNeverStartedRunningJobs m threshold batchSize t).map Prod.snd
  | .reclaimExpiredRunningJobsToFailed threshold batchSize =>
      (reclaimExpiredRunningJobsToFailed m threshold batchSize t).map Prod.snd
  | .reclaimExpiredRunningJobsToPendingForRetry threshold batchSize =>
      (reclaimExpiredRunningJobsToPendingForRetry m threshold batchSize t).map Prod.snd
  | .upsertPauseKey pauseKey => .ok (upsertPauseKey pauseKey t)
  | .deletePauseKey pauseKey => .ok (deletePauseKey pauseKey t)

/-- What a statement does to the two tables when it succeeds. -/
inductive Kind (π : Type)
  | rewrites
  | claims
  | activates
  | deletes
  | enqueues (payloads : List π)
  | moves
  | requeues

def Statement.kind : Statement π → Kind π
  | .singleEnqueue _ _ _ payload | .dedupeEnqueue _ _ _ _ payload => .enqueues [payload]
  | .batchEnqueue _ _ jobs => .enqueues (jobs.map Prod.snd)
  | .retryFailedJobById .. | .retryAvailableFailedJobs .. => .activates
  | .cancelPendingJob .. | .deleteDeadLetterJob .. | .cleanupJobsOlderThanOnce ..
  | .cleanupAvailableDeadLetterJobsOlderThanOnce .. => .deletes
  | .moveOwnedRunningJobToDeadLetter .. | .moveFailedJobToDeadLetter ..
  | .moveFailedJobsToDeadLetterBatch .. => .moves
  | .requeueDeadLetterJob .. => .requeues
  | .claimAvailableJobs .. => .claims
  | _ => .rewrites

def isClaim (s : Statement π) : Bool :=
  match s.kind with
  | .claims => true
  | _ => false

/-- A dead letter carries the job that it replaces as its original job. -/
structure Replaces (job : JobRow π) (deadLetter : DeadLetterRow π) : Prop where
  originalJobId : deadLetter.originalJobId = job.id
  content : deadLetter.content = job.content

/-- A row that is running afterwards was running before, under the same owner. -/
def KeepsOwner (row row' : JobRow π) : Prop :=
  row'.status = .running → row.status = .running ∧ row'.workerId = row.workerId

structure RewritesOwned (set : JobRow π → Except StatementError (JobRow π)) (row : JobRow π) : Prop
    extends Rewrites set row where
  owner : ∀ row', set row = .ok row' → KeepsOwner row row'

def Change (t t' : Tables π) : Kind π → Prop
  | .rewrites | .activates => Forall₂ Keeps t.jobs t'.jobs ∧ Forall₂ KeepsOwner t.jobs t'.jobs ∧
      t'.deadLetters = t.deadLetters
  | .claims => Forall₂ Keeps t.jobs t'.jobs ∧ t'.deadLetters = t.deadLetters
  | .deletes => t'.jobs <+ t.jobs ∧ t'.deadLetters <+ t.deadLetters
  | .enqueues payloads => t'.deadLetters = t.deadLetters ∧ ∃ rows, t'.jobs = t.jobs ++ rows ∧
      (∀ row ∈ rows, row.status = .pending) ∧ (rows = [] ∨ rows.map JobRow.payload = payloads)
  | .moves => ∃ moved deadLetters, Forall₂ Replaces moved deadLetters ∧ t.jobs ~ t'.jobs ++ moved ∧
      t'.deadLetters = t.deadLetters ++ deadLetters
  | .requeues => ∃ sources rows, Forall₂ (fun source row => row.content = source.content) sources rows ∧
      t.deadLetters ~ t'.deadLetters ++ sources ∧ t'.jobs = t.jobs ++ rows ∧
      ∀ row ∈ rows, row.status = .pending

/-- The constraints that a statement can fail on. -/
def Kind.mayViolate : Kind π → Constraint → Prop
  | .rewrites, _ | .claims, _ | .deletes, _ => False
  | .activates, c => c = .dedupeActive
  | .enqueues _, c | .requeues, c => c = .primaryKey
  | .moves, c => c = .deadLetterPrimaryKey ∨ c = .originalJob

structure Sound (kind : Kind π) (t : Tables π) (result : Except StatementError (Tables π)) : Prop where
  change : ∀ t', result = .ok t' → Change t t' kind
  violation : ∀ c, result = .error (.violation c) → kind.mayViolate c

section Steps

variable {α β : Type} {kind : Kind π} {t : Tables π} {m : Moment π}

@[simp] theorem map_snd_bind {x : Except StatementError α}
    {f : α → Except StatementError (β × Tables π)} :
    (x >>= f).map Prod.snd = x >>= fun a => (f a).map Prod.snd := by
  cases x <;> rfl

@[simp] theorem map_snd_ok (b : β) (t : Tables π) :
    (Except.ok (b, t) : Except StatementError (β × Tables π)).map Prod.snd = .ok t := rfl

@[simp] theorem bind_ok_self (x : Except StatementError (Tables π)) : (x >>= fun t => .ok t) = x := by
  cases x <;> rfl

theorem text_ne_violation (value : String) (c : Constraint) : text value ≠ .error (.violation c) := by
  unfold text
  split <;> simp

theorem sql_ne_violation (x : Except Postgres.SqlError α) (c : Constraint) :
    sql x ≠ .error (.violation c) := by
  cases x <;> simp [sql, Except.mapError]

theorem nextRunAt_ne_violation (now retryAfter : Int) (c : Constraint) :
    nextRunAt now retryAfter ≠ .error (.violation c) := by
  intro h
  rcases bind_eq_error.1 h with h | ⟨runAt, -, h⟩
  · exact sql_ne_violation _ c h
  · rcases bind_eq_error.1 h with h | ⟨_, -, h⟩
    · exact sql_ne_violation _ c h
    · cases h

theorem runAtOrNow_ne_violation (now : Int) (runAt : Option Int) (c : Constraint) :
    runAtOrNow now runAt ≠ .error (.violation c) := by
  cases runAt with
  | none => simp [runAtOrNow]
  | some n => exact sql_ne_violation _ c

theorem Sound.bind {x : Except StatementError α} {f : α → Except StatementError (Tables π)}
    (hx : ∀ c, x ≠ .error (.violation c)) (hf : ∀ a, x = .ok a → Sound kind t (f a)) :
    Sound kind t (x >>= f) := by
  constructor
  · intro t' h
    obtain ⟨a, ha, h⟩ := Postgres.bind_eq_ok.1 h
    exact (hf a ha).change t' h
  · intro c h
    rcases bind_eq_error.1 h with h | ⟨a, ha, h⟩
    · exact absurd h (hx c)
    · exact (hf a ha).violation c h

theorem keeps_activeDedupeKey {row row' : JobRow π} (hk : Keeps row row')
    (hactive : row'.status.active → row.status.active) :
    row'.activeDedupeKey = row.activeDedupeKey ∨ row'.activeDedupeKey = none := by
  have hcontent := hk.content
  simp only [JobRow.content, JobContent.mk.injEq] at hcontent
  cases h' : row'.status.active with
  | false => exact .inr (by simp [JobRow.activeDedupeKey, h'])
  | true => exact .inl (by
      simp [JobRow.activeDedupeKey, h', hactive h', hcontent.1, hcontent.2.2.2.2])

variable {rows : List (JobRow π)} {P : JobRow π → Prop}
  {set : JobRow π → Except StatementError (JobRow π)}

theorem target_spec (hrows : ∀ row ∈ rows, row ∈ t.jobs ∧ P row) {row : JobRow π}
    (hrow : row ∈ t.jobs) (hid : row.id ∈ jobIds rows) : P row :=
  (hrows row (row_of_target (fun r hr => (hrows r hr).1) hrow hid)).2

theorem owners_kept {jobs : List (JobRow π)} (hrows : ∀ row ∈ rows, row ∈ t.jobs ∧ P row)
    (hset : ∀ row ∈ t.jobs, P row → RewritesOwned set row)
    (h : Forall₂ (fun row row' => if row.id ∈ jobIds rows then set row = .ok row' else row' = row)
      t.jobs jobs) : Forall₂ KeepsOwner t.jobs jobs := by
  refine forall₂_imp_mem h fun row hrow row' hrow' => ?_
  split at hrow'
  · exact (hset row hrow (target_spec hrows hrow ‹_›)).owner row' hrow'
  · subst hrow'
    exact fun hrunning => ⟨hrunning, rfl⟩

theorem sound_activates (hrows : ∀ row ∈ rows, row ∈ t.jobs ∧ P row)
    (hset : ∀ row ∈ t.jobs, P row → RewritesOwned set row) :
    Sound .activates t (updateJobs t (jobIds rows) set) := by
  have htarget : ∀ row ∈ t.jobs, row.id ∈ jobIds rows → Rewrites set row :=
    fun row hrow hid => (hset row hrow (target_spec hrows hrow hid)).toRewrites
  constructor
  · intro t' h
    obtain ⟨hjobs, hdead, -⟩ := updateJobs_eq_ok h
    exact ⟨keeps_of_rewrites htarget hjobs, owners_kept hrows hset hjobs, hdead⟩
  · intro c h
    exact (updateJobs_violation htarget h).1

theorem update_ne_violation (hrows : ∀ row ∈ rows, row ∈ t.jobs ∧ P row)
    (hset : ∀ row ∈ t.jobs, P row → Rewrites set row)
    (hP : ∀ row, P row → row.status.active) (c : Constraint) :
    updateJobs t (jobIds rows) set ≠ .error (.violation c) := by
  refine updateJobs_ne_violation (fun row hrow hid => hset row hrow (target_spec hrows hrow hid)) ?_
  intro row hrow hid row' hrow'
  have hrowP := target_spec hrows hrow hid
  exact keeps_activeDedupeKey ((hset row hrow hrowP).keeps row' hrow') fun _ => hP row hrowP

theorem sound_rewrites (hrows : ∀ row ∈ rows, row ∈ t.jobs ∧ P row)
    (hset : ∀ row ∈ t.jobs, P row → RewritesOwned set row) (hP : ∀ row, P row → row.status.active) :
    Sound .rewrites t (updateJobs t (jobIds rows) set) := by
  have hrewrites : ∀ row ∈ t.jobs, P row → Rewrites set row :=
    fun row hrow hrowP => (hset row hrow hrowP).toRewrites
  constructor
  · intro t' h
    obtain ⟨hjobs, hdead, -⟩ := updateJobs_eq_ok h
    exact ⟨keeps_of_rewrites
      (fun row hrow hid => hrewrites row hrow (target_spec hrows hrow hid)) hjobs,
      owners_kept hrows hset hjobs, hdead⟩
  · intro c h
    exact update_ne_violation hrows hrewrites hP c h

theorem sound_claims (hrows : ∀ row ∈ rows, row ∈ t.jobs ∧ P row)
    (hset : ∀ row ∈ t.jobs, P row → Rewrites set row) (hP : ∀ row, P row → row.status.active) :
    Sound .claims t (updateJobs t (jobIds rows) set) := by
  constructor
  · intro t' h
    obtain ⟨hjobs, hdead, -⟩ := updateJobs_eq_ok h
    exact ⟨keeps_of_rewrites
      (fun row hrow hid => hset row hrow (target_spec hrows hrow hid)) hjobs, hdead⟩
  · intro c h
    exact update_ne_violation hrows hset hP c h

theorem sound_deletes (jobs deadLetters : List JobId) :
    Sound .deletes t (replaceRows t jobs [] deadLetters []) := by
  constructor
  · intro t' h
    obtain ⟨hjobs, hdead, -⟩ := replaceRows_eq_ok h
    rw [append_nil] at hjobs hdead
    exact ⟨hjobs ▸ filter_sublist, hdead ▸ filter_sublist⟩
  · intro c h
    rcases replaceRows_violation (by simp) (by simp) h with ⟨-, h⟩ | ⟨-, h⟩ | ⟨-, h⟩
    · exact h rfl
    · refine h ?_
      rw [filterMap_nil, append_nil]
      exact t.constraints .dedupeActive
    · exact h rfl

theorem filter_append_perm_of_keys {ρ κ : Type} [DecidableEq κ] {key : ρ → κ} {all chosen : List ρ}
    (hall : (all.map key).Nodup) (hchosen : (chosen.map key).Nodup) (hsub : ∀ row ∈ chosen, row ∈ all) :
    all ~ all.filter (fun row => key row ∉ chosen.map key) ++ chosen := by
  have hsame : all.filter (fun row => key row ∈ chosen.map key) ~ chosen := by
    rw [perm_ext_iff_of_nodup (hall.of_map.filter _) hchosen.of_map]
    intro row
    rw [mem_filter, decide_eq_true_eq, mem_map]
    constructor
    · rintro ⟨hrow, other, hother, heq⟩
      rwa [inj_on_of_nodup_map hall (hsub other hother) hrow heq] at hother
    · exact fun hrow => ⟨hsub row hrow, row, hrow, rfl⟩
  have hsplit := filter_append_perm (fun row => decide (key row ∈ chosen.map key)) all
  refine hsplit.symm.trans (perm_append_comm.trans ?_)
  simp only [← decide_not]
  exact hsame.append_left _

theorem sound_moves {moved : List (JobRow π)} {deadLetters : List (DeadLetterRow π)}
    (hmoved : ∀ row ∈ moved, row ∈ t.jobs) (hnodup : (jobIds moved).Nodup)
    (hreplaces : Forall₂ Replaces moved deadLetters)
    (hdead : ∀ row ∈ deadLetters, NumericDomains row.retryCount row.maxRetries row.timeoutNanos) :
    Sound .moves t (replaceRows t (jobIds moved) [] [] deadLetters) := by
  constructor
  · intro t' h
    obtain ⟨hjobs, hdead', -⟩ := replaceRows_eq_ok h
    rw [append_nil] at hjobs
    refine ⟨moved, deadLetters, hreplaces, ?_, by simpa using hdead'⟩
    rw [hjobs]
    exact filter_append_perm_of_keys (t.constraints .primaryKey) hnodup hmoved
  · intro c h
    rcases replaceRows_violation (by simp) hdead h with ⟨-, h⟩ | ⟨-, h⟩ | ⟨hc, -⟩
    · exact absurd rfl h
    · refine absurd ?_ h
      rw [filterMap_nil, append_nil]
      exact t.constraints .dedupeActive
    · exact hc

/-- No active job of the table has the key that an inserted job brings. -/
def Inactive (t : Tables π) (row : JobRow π) : Prop :=
  ∀ job ∈ t.jobs, ∀ key, row.activeDedupeKey = some key → job.activeDedupeKey ≠ some key

theorem inactive_nodup {row : JobRow π} (h : Inactive t row) :
    (t.jobs.filterMap JobRow.activeDedupeKey ++ [row].filterMap JobRow.activeDedupeKey).Nodup := by
  have hnodup := t.constraints .dedupeActive
  rw [Constraint.Holds] at hnodup
  cases hkey : row.activeDedupeKey with
  | none => simpa [hkey] using hnodup
  | some key =>
      simp only [filterMap_cons, hkey, filterMap_nil]
      refine hnodup.append (nodup_singleton _) ?_
      rw [disjoint_singleton]
      rintro hmem
      obtain ⟨job, hjob, hjobKey⟩ := mem_filterMap.1 hmem
      exact h job hjob key hkey hjobKey

theorem inactive_of_no_match {row : JobRow π}
    (h : t.jobs.any (activeDedupeMatch row.taskName row.dedupeKey) = false) : Inactive t row := by
  intro job hjob key hrow hjobKey
  simp only [JobRow.activeDedupeKey] at hrow hjobKey
  split at hrow
  · split at hjobKey
    · rename_i hactive
      obtain ⟨k, hk, rfl⟩ := Option.map_eq_some_iff.1 hrow
      obtain ⟨k', hk', heq⟩ := Option.map_eq_some_iff.1 hjobKey
      obtain ⟨htask, rfl⟩ := Prod.mk.inj heq
      rw [any_eq_false] at h
      exact h job hjob (by simp [activeDedupeMatch, htask, hk, hk', hactive])
    · cases hjobKey
  · cases hrow

theorem sound_enqueues {inserted : List (JobRow π)} {payloads : List π}
    (hrows : ∀ row ∈ inserted,
      NumericDomains row.retryCount row.maxRetries row.timeoutNanos ∧ row.StatusLifecycleShape)
    (hpending : ∀ row ∈ inserted, row.status = .pending)
    (hkeys : (t.jobs.filterMap JobRow.activeDedupeKey ++
      inserted.filterMap JobRow.activeDedupeKey).Nodup)
    (hpayloads : inserted.map JobRow.payload = payloads) :
    Sound (.enqueues payloads) t (insertJobs t inserted) := by
  constructor
  · intro t' h
    obtain ⟨hjobs, hdead, -⟩ := replaceRows_eq_ok h
    exact ⟨by simpa using hdead, inserted, by simpa using hjobs, hpending, .inr hpayloads⟩
  · intro c h
    rcases replaceRows_violation hrows (by simp) h with ⟨hc, -⟩ | ⟨-, h⟩ | ⟨-, h⟩
    · exact hc
    · exact absurd hkeys h
    · exact absurd rfl h

theorem sound_requeues {sources : List (DeadLetterRow π)} {inserted : List (JobRow π)}
    (hsources : ∀ row ∈ sources, row ∈ t.deadLetters) (hnodup : (deadLetterIds sources).Nodup)
    (hcontent : Forall₂ (fun source row => row.content = source.content) sources inserted)
    (hrows : ∀ row ∈ inserted,
      NumericDomains row.retryCount row.maxRetries row.timeoutNanos ∧ row.StatusLifecycleShape)
    (hpending : ∀ row ∈ inserted, row.status = .pending)
    (hkeys : (t.jobs.filterMap JobRow.activeDedupeKey ++
      inserted.filterMap JobRow.activeDedupeKey).Nodup) :
    Sound .requeues t (replaceRows t [] inserted (deadLetterIds sources) []) := by
  constructor
  · intro t' h
    obtain ⟨hjobs, hdead, -⟩ := replaceRows_eq_ok h
    rw [append_nil] at hdead
    refine ⟨sources, inserted, hcontent, ?_, by simpa using hjobs, hpending⟩
    rw [hdead]
    exact filter_append_perm_of_keys (t.constraints .deadLetterPrimaryKey) hnodup hsources
  · intro c h
    rcases replaceRows_violation hrows (by simp) h with ⟨hc, -⟩ | ⟨-, h⟩ | ⟨-, h⟩
    · exact hc
    · exact absurd hkeys h
    · exact absurd rfl h

theorem sound_unchanged (hkind : Change t t kind) : Sound kind t (.ok t) :=
  ⟨fun _ h => Except.ok.inj h ▸ hkind, fun _ h => nomatch h⟩

theorem change_self_claims (t : Tables π) : Change t t .claims :=
  ⟨forall₂_same.2 fun _ hrow => keeps_self hrow, rfl⟩

theorem change_self_enqueues (t : Tables π) (payloads : List π) : Change t t (.enqueues payloads) :=
  ⟨rfl, [], (append_nil _).symm, by simp, .inl rfl⟩

/-- A new dead letter carries the original job that it replaced, and that job is gone. -/
theorem deadLetters_of_change {t' : Tables π} (h : Change t t' kind)
    {row : DeadLetterRow π} (hrow : row ∈ t'.deadLetters) :
    row ∈ t.deadLetters ∨ ∃ job ∈ t.jobs, Replaces job row ∧ job ∉ t'.jobs := by
  cases kind with
  | rewrites | activates => exact .inl (h.2.2 ▸ hrow)
  | claims => exact .inl (h.2 ▸ hrow)
  | deletes => exact .inl (h.2.mem hrow)
  | enqueues => exact .inl (h.1 ▸ hrow)
  | requeues =>
      obtain ⟨sources, -, -, hdead, -, -⟩ := h
      exact .inl (hdead.mem_iff.2 (mem_append_left _ hrow))
  | moves =>
      obtain ⟨moved, deadLetters, hreplaces, hjobs, hdead⟩ := h
      rw [hdead] at hrow
      rcases mem_append.1 hrow with hold | hnew
      · exact .inl hold
      · obtain ⟨job, hjob, hr⟩ := forall₂_mem_right hreplaces hnew
        have hnodup : (t'.jobs ++ moved).Nodup :=
          hjobs.nodup_iff.1 (t.constraints .primaryKey : (t.jobs.map JobRow.id).Nodup).of_map
        exact .inr ⟨job, hjobs.mem_iff.2 (mem_append_right _ hjob), hr,
          fun hmem => (nodup_append.1 hnodup).2.2 job hmem job hjob rfl⟩

section Rows

variable {row : JobRow π} {now n : Int}

theorem rewrites_ok {f : JobRow π → JobRow π} (h : Keeps row (f row)) :
    Rewrites (fun row => .ok (f row)) row :=
  ⟨fun _ hc => (nomatch hc), fun _ hrow' => Except.ok.inj hrow' ▸ h⟩

theorem rewrites_bind {x : JobRow π → Except StatementError α} {f : α → JobRow π → JobRow π}
    (hx : ∀ c, x row ≠ .error (.violation c)) (h : ∀ a, x row = .ok a → Keeps row (f a row)) :
    Rewrites (fun row => do return f (← x row) row) row := by
  constructor
  · intro c hc
    rcases bind_eq_error.1 hc with hc | ⟨a, -, hc⟩
    · exact hx c hc
    · cases hc
  · intro row' hrow'
    obtain ⟨a, ha, hrow'⟩ := Postgres.bind_eq_ok.1 hrow'
    exact Except.ok.inj hrow' ▸ h a ha

theorem rewritesOwned_ok {f : JobRow π → JobRow π} (h : Keeps row (f row))
    (howner : KeepsOwner row (f row)) : RewritesOwned (fun row => .ok (f row)) row :=
  ⟨rewrites_ok h, fun _ hrow' => Except.ok.inj hrow' ▸ howner⟩

theorem rewritesOwned_bind {x : JobRow π → Except StatementError α} {f : α → JobRow π → JobRow π}
    (hx : ∀ c, x row ≠ .error (.violation c)) (h : ∀ a, x row = .ok a → Keeps row (f a row))
    (hstatus : ∀ a, (f a row).status ≠ .running) :
    RewritesOwned (fun row => do return f (← x row) row) row := by
  refine ⟨rewrites_bind hx h, fun row' hrow' hrunning => ?_⟩
  obtain ⟨a, -, hrow'⟩ := Postgres.bind_eq_ok.1 hrow'
  obtain rfl := Except.ok.inj hrow'
  exact absurd hrunning (hstatus a)

theorem sql_int4_eq_ok {k : Int} (h : sql (Postgres.int4 n) = .ok k) : k = n := by
  cases hi : Postgres.int4 n with
  | error e =>
      rw [hi] at h
      cases h
  | ok i =>
      rw [hi] at h
      rw [← Except.ok.inj h]
      exact Postgres.int4_eq_ok hi

theorem incrementRetryCount_eq_ok {increment : Bool}
    (h : incrementRetryCount increment row = .ok n) : n = row.retryCount + if increment then 1 else 0 :=
  sql_int4_eq_ok h

theorem incrementRetryCount_nonneg {increment : Bool} (hrow : row ∈ t.jobs)
    (h : incrementRetryCount increment row = .ok n) :
    NumericDomains n row.maxRetries row.timeoutNanos := by
  obtain ⟨hretry, hmax, htimeout⟩ := t.constraints .numericDomains row hrow
  refine ⟨?_, hmax, htimeout⟩
  rw [incrementRetryCount_eq_ok h]
  split <;> omega

theorem running_shape (hrow : row ∈ t.jobs) (hstatus : row.status = .running) :
    row.workerId ≠ none ∧ row.claimedByWorkerAt ≠ none ∧ row.executionHeartbeatAt ≠ none ∧
      row.finishedAt = none := by
  have hshape := t.constraints .statusLifecycleShape row hrow
  simpa [JobRow.StatusLifecycleShape, hstatus] using hshape

theorem keeps_claimedBy {workerId : WorkerOwnerId}
    (hrow : row ∈ t.jobs) (hstatus : row.status = .pending) :
    Keeps row (claimedBy now workerId row) := by
  have hshape := t.constraints .statusLifecycleShape row hrow
  refine ⟨rfl, rfl, t.constraints .numericDomains row hrow, .inr (.inl ?_)⟩
  simpa [JobRow.StatusLifecycleShape, hstatus, claimedBy] using (by
    simpa [JobRow.StatusLifecycleShape, hstatus] using hshape : _ ∧ _ ∧ _ ∧ _ ∧ _).2.2.2.2

theorem keeps_returnToPending (hrow : row ∈ t.jobs) : Keeps row (returnToPending now row) :=
  ⟨rfl, rfl, t.constraints .numericDomains row hrow, by
    simp [JobRow.StatusLifecycleShape, returnToPending, clearWorkerRuntime]⟩

theorem rewritesOwned_returnToPending (hrow : row ∈ t.jobs) :
    RewritesOwned (fun row => .ok (returnToPending now row)) row :=
  rewritesOwned_ok (keeps_returnToPending hrow) (nofun)

theorem keeps_retryFailedJob (hrow : row ∈ t.jobs) : Keeps row (retryFailedJob now n row) := by
  refine ⟨rfl, rfl, ⟨le_rfl, ?_⟩, by
    simp [JobRow.StatusLifecycleShape, retryFailedJob, clearWorkerRuntime]⟩
  exact (t.constraints .numericDomains row hrow).2

end Rows

end Steps

end Paranoid.QueueChanges
