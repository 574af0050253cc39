import Paranoid.QueueCounters
import Paranoid.QueueOutcomes

namespace Paranoid.QueueFailure

open List Postgres QueueModel QueueStatements QueueEffects QueueChanges QueueSoundness QueueRows
open QueueCounters QueueOutcomes QueueWorker QueueOwnership Transitions

variable {π F : Type}

section Backoff

/-- Durations are in nanoseconds. -/
def maxDuration : Nat := (2 ^ 64 - 1) * 10 ^ 9 + 999999999

def minQueueRetryBackoff : Nat := 1000000

/-- The arithmetic on `f64` that the backoff rests on. -/
structure Floats (F : Type) where
  ofNat : Nat → F
  isFinite : F → Bool
  isNan : F → Bool
  isInfinite : F → Bool
  lt : F → F → Bool
  eq : F → F → Bool
  add : F → F → F
  sub : F → F → F
  mul : F → F → F
  powf : F → F → F
  asSecs : Nat → F
  durationFromSecs : F → Nat

def Floats.le (f : Floats F) (a b : F) : Bool := f.lt a b || f.eq a b

inductive RetryBackoffStrategy (F : Type)
  | exponential (base : F)
  | fixed (backoff : Nat)
  | custom (backoff : Nat → TaskError → Nat)

structure RetryPolicy (F : Type) where
  strategy : RetryBackoffStrategy F
  maxBackoff : Nat
  jitterFraction : F

inductive FailureError
  | invalidRetryPolicy (reason : String)
  | retryJitterRandom (reason : String)
  | retryBackoffTooLarge
  | invalidMaxRetries
  | jobId (reason : String)
  | queue (error : QueueError)
  | workerDatabaseOperationTimedOut (operation : String)
  | persistenceFailureAndRequeueFailed (persistenceError requeueError : FailureError)

def resolveQueueRetryPolicy (f : Floats F) (policy : RetryPolicy F) :
    Except FailureError (RetryPolicy F) :=
  if !f.isFinite policy.jitterFraction || f.lt policy.jitterFraction (f.ofNat 0) then
    .error (.invalidRetryPolicy "jitter fraction must be finite and non-negative")
  else
    match policy.strategy with
    | .exponential base =>
        if !f.isFinite base || f.le base (f.ofNat 1) then
          .error (.invalidRetryPolicy "exponential base must be finite and greater than one")
        else if policy.maxBackoff = 0 then .error (.invalidRetryPolicy "max backoff must be positive")
        else if policy.maxBackoff < minQueueRetryBackoff then
          .error (.invalidRetryPolicy "max backoff must be at least the minimum retry backoff")
        else .ok policy
    | .fixed backoff =>
        if backoff = 0 then .error (.invalidRetryPolicy "fixed backoff must be positive") else .ok policy
    | .custom _ =>
        if policy.maxBackoff < minQueueRetryBackoff then
          .error (.invalidRetryPolicy "max backoff must be at least the minimum retry backoff")
        else .ok policy

/-- `random` is the unit that the system's generator gives, if it gives one. -/
def applySymmetricF64Jitter (f : Floats F) (random : Except String F) (value jitterFraction : F) :
    Except FailureError F :=
  if f.eq jitterFraction (f.ofNat 0) then .ok value
  else
    match random with
    | .error reason => .error (.retryJitterRandom reason)
    | .ok unit =>
        .ok (f.add value (f.mul (f.mul value jitterFraction)
          (f.sub (f.mul (f.ofNat 2) unit) (f.ofNat 1))))

def durationFromNonnegativeSeconds (f : Floats F) (seconds : F) (maxBackoff : Option Nat) : Nat :=
  let bounded :=
    match maxBackoff with
    | some limit =>
        if limit ≠ 0 && !f.isNan seconds && f.lt (f.asSecs limit) seconds then f.asSecs limit else seconds
    | none => seconds
  if f.isNan bounded || f.le bounded (f.ofNat 0) then 0
  else if f.isInfinite bounded || f.le (f.asSecs maxDuration) bounded then maxDuration
  else f.durationFromSecs bounded

def applySymmetricDurationJitter (f : Floats F)
    (random : Except String F) (duration : Nat) (policy : RetryPolicy F) :
    Except FailureError Nat :=
  if f.eq policy.jitterFraction (f.ofNat 0) then .ok duration
  else do
    let jitteredSeconds ← applySymmetricF64Jitter f random (f.asSecs duration) policy.jitterFraction
    return durationFromNonnegativeSeconds f jitteredSeconds none

def normalizeQueueRetryBackoff (backoff : Nat) (maxBackoff : Option Nat) : Nat :=
  let backoff := max backoff minQueueRetryBackoff
  match maxBackoff with
  | some limit => if limit ≠ 0 then min backoff limit else backoff
  | none => backoff

def computeQueueRetryBackoff (f : Floats F) (random : Except String F)
    (policy : RetryPolicy F) (retryCount : Nat)
    (error : TaskError) : Except FailureError Nat :=
  match policy.strategy with
  | .fixed backoff => do
      let jittered ← applySymmetricDurationJitter f random backoff policy
      return normalizeQueueRetryBackoff jittered none
  | .custom customBackoff => do
      let normalized := normalizeQueueRetryBackoff
        (customBackoff retryCount error) (some policy.maxBackoff)
      let jittered ← applySymmetricDurationJitter f random normalized policy
      return normalizeQueueRetryBackoff jittered (some policy.maxBackoff)
  | .exponential base => do
      let maxBackoffSeconds := f.asSecs policy.maxBackoff
      let power := f.powf base (f.ofNat retryCount)
      let backoffSeconds :=
        if !f.isFinite power || f.lt maxBackoffSeconds power then maxBackoffSeconds else power
      let jittered ← if f.lt (f.ofNat 0) policy.jitterFraction then
        applySymmetricF64Jitter f random backoffSeconds policy.jitterFraction else .ok backoffSeconds
      return normalizeQueueRetryBackoff
        (durationFromNonnegativeSeconds f jittered (some policy.maxBackoff))
        (some policy.maxBackoff)

def retryBackoffToMicroseconds (duration : Nat) : Except FailureError Int :=
  if (duration / 1000 : Nat) ≤ i64Max then .ok (duration / 1000 : Nat) else .error .retryBackoffTooLarge

theorem normalizeQueueRetryBackoff_le {backoff limit : Nat} (h : limit ≠ 0) :
    normalizeQueueRetryBackoff backoff (some limit) ≤ limit := by
  simp only [normalizeQueueRetryBackoff, if_pos h]
  exact Nat.min_le_right _ _

/-- A policy that the worker accepted at its start. -/
structure ResolvedRetryPolicy (f : Floats F) where
  policy : RetryPolicy F
  accepted : resolveQueueRetryPolicy f policy = .ok policy

/-- A backoff that is not fixed stays under the maximum of its policy. -/
theorem computeQueueRetryBackoff_le {f : Floats F}
    (resolved : ResolvedRetryPolicy f) {random : Except String F}
    {retryCount backoff : Nat} {error : TaskError}
    (hstrategy : ∀ d, resolved.policy.strategy ≠ .fixed d)
    (h : computeQueueRetryBackoff f random resolved.policy retryCount error = .ok backoff) :
    backoff ≤ resolved.policy.maxBackoff := by
  obtain ⟨policy, haccepted⟩ := resolved
  dsimp only at h hstrategy ⊢
  have hpositive : policy.maxBackoff ≠ 0 := by
    unfold resolveQueueRetryPolicy at haccepted
    intro hzero
    cases hs : policy.strategy with
    | fixed d => exact hstrategy d hs
    | exponential base =>
        simp only [hs, hzero, if_true] at haccepted
        split_ifs at haccepted
    | custom customBackoff =>
        simp only [hs, hzero, minQueueRetryBackoff,
          if_pos (show (0 : Nat) < 1000000 by decide)] at haccepted
        split_ifs at haccepted
  unfold computeQueueRetryBackoff at h
  split at h
  · rename_i d hs
    exact absurd hs (hstrategy d)
  · obtain ⟨jittered, -, h⟩ := bind_eq_ok.1 h
    rw [← Except.ok.inj h]
    exact normalizeQueueRetryBackoff_le hpositive
  · dsimp only at h
    split at h
    · obtain ⟨jittered, -, h⟩ := bind_eq_ok.1 h
      rw [← Except.ok.inj h]
      exact normalizeQueueRetryBackoff_le hpositive
    · rw [← Except.ok.inj h]
      exact normalizeQueueRetryBackoff_le hpositive

end Backoff

section Handling

/-- What the worker read of its job when it claimed it. -/
structure Job where
  id : JobId
  retryCount : Nat
  maxRetries : Nat
  retryCount_persisted : retryCount < 2 ^ 31
  maxRetries_persisted : maxRetries < 2 ^ 31

structure WorkerRuntime (f : Floats F) where
  workerOwnerId : WorkerOwnerId
  deadLetterEnabled : Bool
  retryPolicy : ResolvedRetryPolicy f

inductive ProcessedJobOutcome
  | succeeded
  | retried
  | failed
  | deadLettered
  | lostOwnership
  deriving DecidableEq

/-- One run of an operation meets a moment, and draws an id if it needs one. -/
structure Attempt (π : Type) where
  moment : Moment π
  newId : Except String JobId

/-- The result of an operation and the tables that it leaves. -/
abbrev Operation (π α : Type) := Except FailureError α × Tables π

def lift (outcome : Except QueueError Reply × Tables π) : Operation π Reply :=
  (outcome.1.mapError .queue, outcome.2)

/-- The attempts are those that the timeout leaves time for. -/
def retryWorkerDatabaseOperationWhileJobLocked (operation : String)
    (run : Attempt π → Tables π → Operation π Reply) :
    List (Attempt π) → Tables π → Operation π Reply
  | [], t => (.error (.workerDatabaseOperationTimedOut operation), t)
  | attempt :: rest, t =>
      match run attempt t with
      | (.error (.queue .jobLockedByConcurrentTransaction), t') =>
          retryWorkerDatabaseOperationWhileJobLocked operation run rest t'
      | outcome => outcome

variable {f : Floats F}

def scheduleOwnedRunningJobRetry (runtime : WorkerRuntime f)
    (job : Job) (newRetryCount retryAfter : Nat)
    (errorMessage : String) (attempt : Attempt π) (t : Tables π) : Operation π Reply :=
  if newRetryCount < 2 ^ 31 then
    match retryBackoffToMicroseconds retryAfter with
    | .error e => (.error e, t)
    | .ok microseconds => lift (call attempt.moment
        (.scheduleOwnedRunningJobRetry job.id runtime.workerOwnerId
          newRetryCount microseconds errorMessage) t)
  else (.error .invalidMaxRetries, t)

def moveOwnedRunningJobToDeadLetter (runtime : WorkerRuntime f)
    (job : Job) (errorMessage : String) (increment : Bool)
    (reason : DeadLetterReason) (attempt : Attempt π) (t : Tables π) : Operation π Reply :=
  match attempt.newId with
  | .error e => (.error (.jobId e), t)
  | .ok deadLetterId => lift (call attempt.moment
      (.moveOwnedRunningJobToDeadLetter job.id runtime.workerOwnerId
        deadLetterId errorMessage increment reason) t)

def markOwnedRunningJobFailed (runtime : WorkerRuntime f)
    (job : Job) (errorMessage : String) (increment : Bool)
    (attempt : Attempt π) (t : Tables π) : Operation π Reply :=
  lift (call attempt.moment
    (.markOwnedRunningJobFailed job.id runtime.workerOwnerId errorMessage increment) t)

def requeueStartedJobAfterWorkerPersistenceFailure (runtime : WorkerRuntime f)
    (job : Job) (m : Moment π)
    (t : Tables π) : Operation π Unit :=
  match call m (.returnOwnedStartedRunningJobToPending job.id runtime.workerOwnerId) t with
  | (.ok _, t') => (.ok (), t')
  | (.error .jobNotRunning, t') => (.ok (), t')
  | (.error e, t') => (.error (.queue e), t')

def workerJobPersistenceErrorAfterRequeue (persistenceError : FailureError) :
    Except FailureError Unit → FailureError
  | .ok () => persistenceError
  | .error requeueError => .persistenceFailureAndRequeueFailed persistenceError requeueError

/-- The three writers of an end of the job share their treatment of its result. -/
def persist (runtime : WorkerRuntime f) (job : Job) (outcome : ProcessedJobOutcome) (requeue : Moment π)
    (persisted : Operation π Reply) : Operation π ProcessedJobOutcome :=
  match persisted with
  | (.ok _, t') => (.ok outcome, t')
  | (.error (.queue .jobNotRunning), t') => (.ok .lostOwnership, t')
  | (.error e, t') =>
      let requeued := requeueStartedJobAfterWorkerPersistenceFailure runtime job requeue t'
      (.error (workerJobPersistenceErrorAfterRequeue e requeued.1), requeued.2)

def moveRunningJobToDeadLetterOrFail (runtime : WorkerRuntime f)
    (job : Job) (errorMessage : String) (increment : Bool)
    (reason : DeadLetterReason) (attempts : List (Attempt π)) (requeue : Moment π) (t : Tables π) :
    Operation π ProcessedJobOutcome :=
  if runtime.deadLetterEnabled then
    persist runtime job .deadLettered requeue
      (retryWorkerDatabaseOperationWhileJobLocked "move owned running job to dead letter"
        (moveOwnedRunningJobToDeadLetter runtime job errorMessage increment reason) attempts t)
  else
    persist runtime job .failed requeue
      (retryWorkerDatabaseOperationWhileJobLocked "mark owned running job failed"
        (markOwnedRunningJobFailed runtime job errorMessage increment) attempts t)

def handleProcessedQueueJobError (runtime : WorkerRuntime f) (job : Job) (error : TaskError)
    (random : Except String F) (attempts : List (Attempt π)) (requeue : Moment π) (t : Tables π) :
    Operation π ProcessedJobOutcome :=
  let nextRetryCount := job.retryCount + 1
  if nextRetryCount < 2 ^ 32 then
    let retriesExhausted := job.maxRetries < nextRetryCount
    if error.permanent || retriesExhausted then
      moveRunningJobToDeadLetterOrFail runtime job error.message (!error.permanent)
        (if error.permanent then .permanentError else .maxRetriesExceeded) attempts requeue t
    else
      match computeQueueRetryBackoff f random runtime.retryPolicy.policy nextRetryCount error with
      | .error e => (.error e, t)
      | .ok retryAfter =>
          persist runtime job .retried requeue
            (retryWorkerDatabaseOperationWhileJobLocked "schedule owned running job retry"
              (scheduleOwnedRunningJobRetry runtime job nextRetryCount retryAfter error.message)
                attempts t)
  else (.error (.queue (.unexpectedOutcome "process queue job failure" "retry count overflowed")), t)

end Handling

section Statements

variable {α : Type} {m : Moment π} {t t' : Tables π}
  {id : JobId} {workerId : WorkerOwnerId} {row : JobRow π}
  {set : JobRow π → Except StatementError (JobRow π)} {transition : Transition}

/-- The statement reads the newest rows, and no other transaction holds a lock. -/
structure Quiet (m : Moment π) (t : Tables π) : Prop where
  snapshot : m.snapshot = t
  unlocked : ∀ id, m.lockedJobs id = false

theorem text_ok {value : String} (h : '\x00' ∉ value.toList) : text value = .ok value := if_neg h

theorem not_mem_of_text {value bound : String} (h : text value = .ok bound) :
    '\x00' ∉ value.toList := by
  intro hmem
  rw [text, if_pos hmem] at h
  cases h

theorem incrementRetryCount_isOk (hrow : t.job? id = some row) (increment : Bool) :
    (∃ n, incrementRetryCount increment row = .ok n) ↔
      row.retryCount + (if increment then 1 else 0) < 2 ^ 31 := by
  have hnonneg := (t.constraints .numericDomains row (Tables.job?_eq_some.1 hrow).1).1
  constructor
  · rintro ⟨n, hn⟩
    by_contra hlarge
    have hrange : ¬(-2 ^ 31 ≤ row.retryCount + (if increment then 1 else 0) ∧
        row.retryCount + (if increment then 1 else 0) < 2 ^ 31) := fun h => hlarge h.2
    rw [incrementRetryCount, int4, if_neg hrange] at hn
    cases hn
  · intro hlt
    have hrange : -2 ^ 31 ≤ row.retryCount + (if increment then 1 else 0) ∧
        row.retryCount + (if increment then 1 else 0) < 2 ^ 31 := by
      refine ⟨?_, hlt⟩
      split <;> omega
    exact ⟨_, by rw [incrementRetryCount, int4, if_pos hrange]; rfl⟩

/-- No transition of the owner is refused where nothing interferes. -/
theorem not_refused {demanded : JobRow π → Bool} {outcome : TransitionOutcome} (hquiet : Quiet m t)
    (hrow : t.job? id = some row) (hdemanded : demanded row = true) :
    ¬Refused m t id demanded outcome := by
  rintro (⟨-, hlocked | hchanged⟩ | ⟨-, hmismatch⟩)
  · rw [hquiet.unlocked id] at hlocked
    cases hlocked
  · rw [hquiet.snapshot] at hchanged
    exact hchanged rfl
  · rw [hmismatch row (hquiet.snapshot ▸ hrow)] at hdemanded
    cases hdemanded

theorem ownedRunningJobUpdate_ok {targetExtra visibleExtraMismatch : JobRow π → Bool} {row' : JobRow π}
    (hsound : Sound .rewrites t
      ((ownedRunningJobUpdate m id workerId set targetExtra visibleExtraMismatch t).map Prod.snd))
    (hquiet : Quiet m t) (hrow : t.job? id = some row) (howned : ownedRunning id workerId row)
    (hmore : targetExtra row = true) (hextra : ∀ row, visibleExtraMismatch row = !targetExtra row)
    (hid : ∀ row row', set row = .ok row' → row'.id = row.id) (hset : set row = .ok row') :
    ∃ t', ownedRunningJobUpdate m id workerId set targetExtra visibleExtraMismatch t =
      .ok (.applied, t') ∧
      t'.job? id = some row' := by
  cases h : ownedRunningJobUpdate m id workerId set targetExtra visibleExtraMismatch t with
  | error e =>
      rw [h] at hsound
      rcases bind_eq_error.1 h with hupdate | ⟨_, -, h⟩
      · exfalso
        rcases updateJobs_eq_error hupdate with ⟨c, rfl⟩ | ⟨other, hother, hid', hfail⟩
        · exact hsound.violation c rfl
        · obtain ⟨target, htarget, hsame⟩ := mem_map.1 hid'
          obtain ⟨-, hmatch, -⟩ := mem_lockJobs htarget
          simp only [ownedRunning, Bool.and_eq_true, decide_eq_true_eq] at hmatch
          have hfound := Tables.job?_of_mem hother
          rw [← hsame, hmatch.1.1.1, hrow, Option.some.injEq] at hfound
          rw [← hfound, hset] at hfail
          cases hfail
      · cases h
  | ok reply =>
      obtain ⟨outcome, t'⟩ := reply
      rcases ownedRunningJobUpdate_cases h hid
        hextra with ⟨rfl, other, after, hother, -, -, hset', htakes⟩ | ⟨-, hrefused⟩
      · rw [hrow, Option.some.injEq] at hother
        rw [← hother, hset, Except.ok.injEq] at hset'
        refine ⟨t', rfl, ?_⟩
        rw [congrFun (htakes .done).jobs id, rowsAfter, Function.update_self, hset']
      · exact absurd hrefused (not_refused hquiet hrow (by simp [howned, hmore]))

/-- The errors of the owner's transitions are those of the database. -/
theorem call_error_database {demanded : JobRow π → Bool} {e : QueueError} (hquiet : Quiet m t)
    (hrow : t.job? transition.target = some row) (howned : transition.owned? = some demanded)
    (hdemanded : demanded row = true) (h : (call m transition t).1 = .error e) :
    e ≠ .jobLockedByConcurrentTransaction ∧ e ≠ .jobNotRunning := by
  rcases call_settled m t transition with ⟨effect, -, hreply, -⟩ | ⟨e', he, -, htruthful⟩
  · rw [hreply] at h
    cases h
  · rw [he, Except.error.injEq] at h
    subst h
    constructor
    · rintro rfl
      rcases htruthful with hlocked | hchanged
      · rw [hquiet.unlocked] at hlocked
        cases hlocked
      · rw [hquiet.snapshot] at hchanged
        exact hchanged rfl
    · rintro rfl
      simp only [Truthful, howned] at htruthful
      rw [htruthful row (hquiet.snapshot ▸ hrow)] at hdemanded
      cases hdemanded

theorem execute_ok {α β : Type} {statement : Except StatementError (α × Tables π)}
    {mapError : StatementError → QueueError}
    {result : α → Tables π → Except QueueError β} {reply : β → Reply} {r : Reply}
    (h : (execute t statement mapError result reply).1 = .ok r) :
    ∃ outcome t', statement = .ok (outcome, t') ∧ ∃ b, result outcome t' = .ok b := by
  cases statement with
  | error e => cases h
  | ok outcome =>
      refine ⟨outcome.1, outcome.2, rfl, ?_⟩
      cases hresult : result outcome.1 outcome.2 with
      | error e =>
          simp only [execute, hresult] at h
          cases h
      | ok b => exact ⟨b, rfl⟩

theorem int4_ok {n : Nat} (h : n < 2 ^ 31) : sql (int4 n) = .ok (n : Int) := by
  have hrange : -2 ^ 31 ≤ (n : Int) ∧ (n : Int) < 2 ^ 31 := ⟨by omega, by exact_mod_cast h⟩
  rw [int4, if_pos hrange]
  rfl

theorem needs_of_schedule_ok {newRetryCount : Nat}
    {retryAfter : Int} {errorMessage : String} {reply : Reply}
    (hquiet : Quiet m t) (hrow : t.job? id = some row) (howned : ownedRunning id workerId row)
    (h : (call m (.scheduleOwnedRunningJobRetry id workerId newRetryCount retryAfter errorMessage)
      t).1 = .ok reply) :
    '\x00' ∉ errorMessage.toList ∧ ∃ runAt, nextRunAt m.now retryAfter = .ok runAt := by
  rw [call] at h
  obtain ⟨outcome, t', hstatement, -⟩ := execute_ok h
  obtain ⟨count, -, hstatement⟩ := bind_eq_ok.1 hstatement
  obtain ⟨lastError, htext, hupdate⟩ := bind_eq_ok.1 hstatement
  refine ⟨not_mem_of_text htext, ?_⟩
  rcases ownedRunningJobUpdate_cases hupdate (id_of_bind fun _ _ => rfl) (fun _ => rfl) with
    ⟨-, _, row', -, -, -, hset, -⟩ | ⟨-, hrefused⟩
  · obtain ⟨runAt, hrunAt, -⟩ := bind_eq_ok.1 hset
    exact ⟨runAt, hrunAt⟩
  · exact absurd hrefused (not_refused hquiet hrow (by simp [howned]))

theorem schedule_ok {newRetryCount : Nat} {retryAfter runAt : Int} {errorMessage : String}
    (hquiet : Quiet m t) (hrow : t.job? id = some row) (howned : ownedRunning id workerId row)
    (hcount : newRetryCount < 2 ^ 31) (hmessage : '\x00' ∉ errorMessage.toList)
    (hrunAt : nextRunAt m.now retryAfter = .ok runAt) :
    ∃ reply, (call m (.scheduleOwnedRunningJobRetry id
      workerId newRetryCount retryAfter errorMessage) t).1 =
      .ok reply := by
  have hsound := @sound_scheduleOwnedRunningJobRetry π m
    t id workerId newRetryCount retryAfter errorMessage
  rw [QueueStatements.scheduleOwnedRunningJobRetry,
    int4_ok hcount, ok_bind, text_ok hmessage, ok_bind] at hsound
  obtain ⟨t', happlied, hafter⟩ := ownedRunningJobUpdate_ok hsound hquiet hrow howned rfl (fun _ => rfl)
    (id_of_bind fun _ _ => rfl) (bind_eq_ok.2 ⟨runAt, hrunAt, rfl⟩)
  rw [call, QueueStatements.scheduleOwnedRunningJobRetry,
    int4_ok hcount, ok_bind, text_ok hmessage, ok_bind,
    happlied, execute, hafter]
  exact ⟨.runAt runAt, rfl⟩

theorem needs_of_markFailed_ok {errorMessage : String}
    {increment : Bool} {reply : Reply} (hquiet : Quiet m t)
    (hrow : t.job? id = some row) (howned : ownedRunning id workerId row)
    (h : (call m (.markOwnedRunningJobFailed id workerId errorMessage increment) t).1 = .ok reply) :
    '\x00' ∉ errorMessage.toList ∧ row.retryCount + (if increment then 1 else 0) < 2 ^ 31 := by
  rw [call] at h
  obtain ⟨outcome, t', hstatement, -⟩ := execute_ok h
  obtain ⟨lastError, htext, hupdate⟩ := bind_eq_ok.1 hstatement
  refine ⟨not_mem_of_text htext, ?_⟩
  rcases ownedRunningJobUpdate_cases hupdate (id_of_bind fun _ _ => rfl) (fun _ => rfl) with
    ⟨-, other, row', hother, -, -, hset, -⟩ | ⟨-, hrefused⟩
  · obtain ⟨count, hcount, -⟩ := bind_eq_ok.1 hset
    rw [hrow, Option.some.injEq] at hother
    exact (incrementRetryCount_isOk hrow increment).1 ⟨count, hother ▸ hcount⟩
  · exact absurd hrefused (not_refused hquiet hrow (by simp [howned]))

theorem markFailed_ok {errorMessage : String} {increment : Bool} (hquiet : Quiet m t)
    (hrow : t.job? id = some row) (howned : ownedRunning id workerId row)
    (hmessage : '\x00' ∉ errorMessage.toList)
    (hcount : row.retryCount + (if increment then 1 else 0) < 2 ^ 31) :
    ∃ reply, (call m (.markOwnedRunningJobFailed id workerId errorMessage increment) t).1 =
      .ok reply := by
  obtain ⟨count, hcount⟩ := (incrementRetryCount_isOk hrow increment).2 hcount
  have hsound := @sound_markJobFailed π m t id workerId errorMessage increment
  rw [markJobFailed, text_ok hmessage, ok_bind] at hsound
  obtain ⟨t', happlied, -⟩ := ownedRunningJobUpdate_ok hsound hquiet hrow howned rfl (fun _ => rfl)
    (id_of_bind fun _ _ => rfl) (bind_eq_ok.2 ⟨count, hcount, rfl⟩)
  rw [call, markJobFailed, text_ok hmessage, ok_bind, happlied, execute]
  exact ⟨.done, rfl⟩

theorem lockJobs_owned (hquiet : Quiet m t) (hrow : t.job? id = some row)
    (howned : ownedRunning id workerId row) :
    lockJobs m t (ownedRunning id workerId) = [row] := by
  have hmatch : ∀ row : JobRow π, ownedRunning id workerId row → row.id = id := by
    intro row hrow
    simp only [ownedRunning, Bool.and_eq_true, decide_eq_true_eq] at hrow
    exact hrow.1.1
  rcases lockJobs_id (m := m) (t := t) hmatch with hnil | ⟨other, hone, hother, -⟩
  · rcases lockJobs_eq_nil hnil (hquiet.snapshot ▸ hrow) howned with hlocked | hchanged
    · rw [hquiet.unlocked id] at hlocked
      cases hlocked
    · rw [hquiet.snapshot] at hchanged
      exact absurd rfl hchanged
  · rw [hrow, Option.some.injEq] at hother
    rw [hone, hother]

/-- The id is free for a dead letter, and the job has none yet. -/
def DeadLetterFree (t : Tables π) (id deadLetterId : JobId) : Prop :=
  ∀ deadLetter ∈ t.deadLetters, deadLetter.id ≠ deadLetterId ∧ deadLetter.originalJobId ≠ id

theorem needs_of_move_ok {deadLetterId : JobId} {errorMessage : String}
    {increment : Bool} {reason : DeadLetterReason}
    {reply : Reply} (hrow : t.job? id = some row)
    (h : (call m (.moveOwnedRunningJobToDeadLetter id workerId
      deadLetterId errorMessage increment reason) t).1 =
      .ok reply) :
    '\x00' ∉ errorMessage.toList ∧ row.retryCount + (if increment then 1 else 0) < 2 ^ 31 ∧
      DeadLetterFree t id deadLetterId := by
  rw [call] at h
  obtain ⟨outcome, t', hstatement, b, hresult⟩ := execute_ok h
  obtain ⟨lastError, htext, -⟩ := bind_eq_ok.1 hstatement
  rcases moveOwnedRunningJobToDeadLetter_eq_ok hstatement with
    ⟨hrefused, -⟩ | ⟨-, -, -, other, count, _, hother, -, hcount, hdead⟩
  · cases outcome with
    | applied => exact absurd rfl hrefused
    | notFound | stateMismatch | dedupeConflict | locked => cases hresult
  · obtain ⟨hmem, hid⟩ := Tables.job?_eq_some.1 hother
    rw [hrow, Option.some.injEq] at hother
    have hids := t'.constraints .deadLetterPrimaryKey
    have horiginals := t'.constraints .originalJob
    simp only [Constraint.Holds, hdead, map_append, map_singleton, nodup_append] at hids horiginals
    refine ⟨not_mem_of_text htext, (incrementRetryCount_isOk hrow increment).1 ⟨count, hother ▸ hcount⟩,
      fun deadLetter hmember => ⟨?_, ?_⟩⟩
    · exact hids.2.2 _ (mem_map_of_mem hmember) _ (mem_singleton_self _)
    · exact hid ▸ horiginals.2.2 _ (mem_map_of_mem hmember) _ (mem_singleton_self _)

/-- The statement on the one row that it finds. -/
theorem move_eq {deadLetterId : JobId} {errorMessage : String}
    {increment : Bool} {reason : DeadLetterReason} {count : Int}
    (hquiet : Quiet m t) (hrow : t.job? id = some row) (howned : ownedRunning id workerId row)
    (hmessage : '\x00' ∉ errorMessage.toList) (hcount : incrementRetryCount increment row = .ok count) :
    QueueStatements.moveOwnedRunningJobToDeadLetter m id
      workerId deadLetterId errorMessage increment reason t = do
      let updated ← replaceRows t [id] [] []
        [deadLetterOf m.now deadLetterId errorMessage count reason row]
      return (.applied, updated) := by
  have hinserted : [row].mapM (fun row => do
      return deadLetterOf m.now deadLetterId errorMessage
        (← incrementRetryCount increment row) reason row) =
      Except.ok [deadLetterOf m.now deadLetterId errorMessage count reason row] := by
    rw [mapM_cons, mapM_nil, hcount]
    rfl
  have hids : jobIds [row] = [id] := by rw [jobIds, map_singleton, (Tables.job?_eq_some.1 hrow).2]
  rw [QueueStatements.moveOwnedRunningJobToDeadLetter,
    text_ok hmessage, ok_bind, lockJobs_owned hquiet hrow howned]
  dsimp only
  rw [hinserted, ok_bind, hids]
  simp [ownedTransitionOutcome]

theorem move_ok {deadLetterId : JobId} {errorMessage : String}
    {increment : Bool} {reason : DeadLetterReason}
    (hquiet : Quiet m t) (hrow : t.job? id = some row) (howned : ownedRunning id workerId row)
    (hmessage : '\x00' ∉ errorMessage.toList)
    (hcount : row.retryCount + (if increment then 1 else 0) < 2 ^ 31)
    (hfree : DeadLetterFree t id deadLetterId) :
    ∃ reply, (call m (.moveOwnedRunningJobToDeadLetter id
      workerId deadLetterId errorMessage increment reason) t).1 =
      .ok reply := by
  obtain ⟨count, hcount⟩ := (incrementRetryCount_isOk hrow increment).2 hcount
  have heq := @move_eq π m t id workerId row deadLetterId
    errorMessage increment reason count hquiet hrow howned
    hmessage hcount
  have hsound := @sound_moveOwnedRunningJobToDeadLetter π m
    t id workerId deadLetterId errorMessage increment reason
  rw [heq] at hsound
  rw [call, heq]
  cases hreplaced : replaceRows t [id] [] []
    [deadLetterOf m.now deadLetterId errorMessage count reason row] with
  | error e =>
      exfalso
      obtain ⟨c, rfl, hfails⟩ := Tables.store_eq_error hreplaced
      rw [hreplaced] at hsound
      -- the new dead letter breaks neither of the two indexes
      rcases hsound.violation c rfl with rfl | rfl
      · refine hfails ?_
        simp only [Constraint.Holds,
          filter_not_mem_nil DeadLetterRow.id, ← concat_eq_append, map_concat]
        refine (t.constraints .deadLetterPrimaryKey).concat fun hused => ?_
        obtain ⟨deadLetter, hmember, hsame⟩ := mem_map.1 hused
        exact (hfree deadLetter hmember).1 hsame
      · refine hfails ?_
        simp only [Constraint.Holds,
          filter_not_mem_nil DeadLetterRow.id, ← concat_eq_append, map_concat]
        refine (t.constraints .originalJob).concat fun hused => ?_
        obtain ⟨deadLetter, hmember, hsame⟩ := mem_map.1 hused
        exact (hfree deadLetter hmember).2 (hsame.trans (Tables.job?_eq_some.1 hrow).2)
  | ok t' =>
      have hfound := congrFun (moves_takes hreplaced .done).deadLetters deadLetterId
      rw [rowsAfter, deadLetterOf, Function.update_self] at hfound
      refine ⟨.jobId deadLetterId, ?_⟩
      rw [ok_bind]
      simp only [pure_eq_ok, execute, hfound]
      rfl

end Statements

section Recording

variable {f : Floats F} {t t' : Tables π} {row : JobRow π} {o : Operation π Reply}

/-- The failure left its mark on the job. -/
def Recorded (row : JobRow π) (t' : Tables π) : Prop :=
  (∃ row', t'.job? row.id = some row' ∧
    (row'.status = .pending ∧ row'.retryCount = row.retryCount + 1 ∨ row'.status = .failed)) ∨
  t'.job? row.id = none ∧ ∃ deadLetter ∈ t'.deadLetters, deadLetter.originalJobId = row.id

/-- What the database demands of the end of a job. -/
def EndPersists (runtime : WorkerRuntime f) (errorMessage : String)
    (increment : Bool) (attempt : Attempt π)
    (row : JobRow π) (t : Tables π) : Prop :=
  '\x00' ∉ errorMessage.toList ∧ row.retryCount + (if increment then 1 else 0) < 2 ^ 31 ∧
    (runtime.deadLetterEnabled = true →
      ∃ deadLetterId, attempt.newId = .ok deadLetterId ∧ DeadLetterFree t row.id deadLetterId)

/-- What the database and its driver demand of a retry. -/
def RetryPersists (errorMessage : String) (backoff : Except FailureError Nat) (m : Moment π) : Prop :=
  '\x00' ∉ errorMessage.toList ∧ ∃ retryAfter microseconds runAt, backoff = .ok retryAfter ∧
    retryBackoffToMicroseconds retryAfter = .ok microseconds ∧ nextRunAt m.now microseconds = .ok runAt

def Recordable (runtime : WorkerRuntime f) (job : Job) (error : TaskError) (random : Except String F)
    (attempt : Attempt π) (row : JobRow π) (t : Tables π) : Prop :=
  if error.permanent ∨ job.maxRetries < job.retryCount + 1 then
    EndPersists runtime error.message (!error.permanent) attempt row t
  else
    (job.retryCount : Int) = row.retryCount ∧ RetryPersists error.message
      (computeQueueRetryBackoff f random runtime.retryPolicy.policy (job.retryCount + 1) error)
        attempt.moment

/-- One persisting operation: a success records the failure where `counted` does, an
error changes nothing and is none that a handler passes over. -/
structure Persists (row : JobRow π) (t : Tables π) (counted : Prop) (o : Operation π Reply) : Prop where
  recorded : ∀ reply, o.1 = .ok reply → (Recorded row o.2 ↔ counted)
  unchanged : ∀ e, o.1 = .error e →
    o.2 = t ∧ e ≠ .queue .jobNotRunning ∧ e ≠ .queue .jobLockedByConcurrentTransaction

theorem not_recorded_running (hrow : t.job? row.id = some row) (hstatus : row.status = .running) :
    ¬Recorded row t := by
  rintro (⟨row', hrow', hmark⟩ | ⟨hnone, -⟩)
  · rw [hrow, Option.some.injEq] at hrow'
    subst hrow'
    simp [hstatus] at hmark
  · rw [hrow] at hnone
    cases hnone

/-- The requeue after a failed write returns the job uncounted or leaves it running. -/
theorem not_recorded_requeue (runtime : WorkerRuntime f)
    (job : Job) (m : Moment π) (hid : job.id = row.id)
    (hrow : t.job? row.id = some row) (hstatus : row.status = .running) :
    ¬Recorded row (requeueStartedJobAfterWorkerPersistenceFailure runtime job m t).2 := by
  have htables : (requeueStartedJobAfterWorkerPersistenceFailure runtime job m t).2 =
      (call m (.returnOwnedStartedRunningJobToPending job.id runtime.workerOwnerId) t).2 := by
    unfold requeueStartedJobAfterWorkerPersistenceFailure
    split <;> simp_all
  rw [htables, hid]
  rcases call_settled m t (.returnOwnedStartedRunningJobToPending row.id runtime.workerOwnerId) with
    ⟨effect, hspecified, -, htakes⟩ | ⟨e, -, hsame, -⟩
  · obtain ⟨other, howned, heffect⟩ := Option.bind_eq_some_iff.1 hspecified
    obtain rfl := Option.some.inj heffect
    obtain ⟨hother, -⟩ := ownedJob_eq_some.1 (Option.filter_eq_some_iff.1 howned).1
    rw [hrow, Option.some.injEq] at hother
    subst hother
    have hafter := congrFun htakes.jobs row.id
    rw [rowsAfter, Function.update_self] at hafter
    rintro (⟨row', hrow', hmark⟩ | ⟨hnone, -⟩)
    · rw [hafter, Option.some.injEq] at hrow'
      subst hrow'
      rcases hmark with ⟨-, hcount⟩ | hfailed
      · have hsame : (returnToPending m.now row).retryCount = row.retryCount := rfl
        omega
      · cases hfailed
    · rw [hafter] at hnone
      cases hnone
  · rw [hsame]
    exact not_recorded_running hrow hstatus

theorem recorded_persist {counted : Prop} (h : Persists row t counted o)
    (runtime : WorkerRuntime f) (job : Job)
    (outcome : ProcessedJobOutcome) (requeue : Moment π)
    (hid : job.id = row.id) (hrow : t.job? row.id = some row)
    (hstatus : row.status = .running) :
    Recorded row (persist runtime job outcome requeue o).2 ↔ counted ∧ ∃ reply, o.1 = .ok reply := by
  obtain ⟨result, t'⟩ := o
  cases result with
  | ok reply =>
      rw [persist, h.recorded reply rfl]
      simp
  | error e =>
      obtain ⟨rfl, hrunning, -⟩ := h.unchanged e rfl
      have hpersist : (persist runtime job outcome requeue (.error e, t')).2 =
          (requeueStartedJobAfterWorkerPersistenceFailure runtime job requeue t').2 := by
        unfold persist
        split <;> simp_all
      rw [hpersist]
      simpa using not_recorded_requeue runtime job requeue hid hrow hstatus

theorem retry_first {operation : String}
    {run : Attempt π → Tables π → Operation π Reply} {first : Attempt π}
    {rest : List (Attempt π)} {counted : Prop} (h : Persists row t counted (run first t)) :
    retryWorkerDatabaseOperationWhileJobLocked operation run (first :: rest) t = run first t := by
  rw [retryWorkerDatabaseOperationWhileJobLocked]
  split
  · rename_i t' heq
    have hlocked := (h.unchanged (.queue .jobLockedByConcurrentTransaction) (by rw [heq])).2.2
    exact absurd rfl hlocked
  · rfl

theorem persists_error {counted : Prop} {e : FailureError}
    (h : o = (.error e, t)) (hrunning : e ≠ .queue .jobNotRunning)
    (hlocked : e ≠ .queue .jobLockedByConcurrentTransaction) : Persists row t counted o := by
  subst h
  refine ⟨nofun, fun e' he' => ?_⟩
  obtain rfl := Except.error.inj he'
  exact ⟨rfl, hrunning, hlocked⟩

theorem lift_ok_iff {outcome : Except QueueError Reply × Tables π} :
    (∃ reply, (lift outcome).1 = .ok reply) ↔ ∃ reply, outcome.1 = .ok reply := by
  obtain ⟨result, t'⟩ := outcome
  cases result with
  | ok reply => exact ⟨fun _ => ⟨reply, rfl⟩, fun _ => ⟨reply, rfl⟩⟩
  | error e => exact ⟨by rintro ⟨_, ⟨⟩⟩, by rintro ⟨_, ⟨⟩⟩⟩

/-- A transition of the owner either takes its effect or fails in the database. -/
theorem persists_lift {m : Moment π} {transition : Transition}
    {demanded : JobRow π → Bool} {counted : Prop}
    (hquiet : Quiet m t) (hrow : t.job? transition.target = some row)
    (howned : transition.owned? = some demanded)
    (hdemanded : demanded row = true)
    (heffect : ∀ effect t',
      specified m t transition = some effect → Takes t t' effect → (Recorded row t' ↔ counted)) :
    Persists row t counted (lift (call m transition t)) where
  recorded reply h := by
    rcases call_settled m t transition with ⟨effect, hspecified, -, htakes⟩ | ⟨e, he, -, -⟩
    · exact heffect effect _ hspecified htakes
    · rw [lift, he] at h
      cases h
  unchanged e h := by
    rcases call_settled m t transition with ⟨effect, -, hreply, -⟩ | ⟨e', he', hsame, -⟩
    · rw [lift, hreply] at h
      cases h
    · have hdatabase := call_error_database hquiet hrow howned hdemanded he'
      rw [lift, he', Except.mapError, Except.error.injEq] at h
      subst h
      exact ⟨hsame, fun h => hdatabase.2 (FailureError.queue.inj h),
        fun h => hdatabase.1 (FailureError.queue.inj h)⟩

variable {runtime : WorkerRuntime f} {job : Job}
  {errorMessage : String} {increment : Bool} {attempt : Attempt π}

theorem persists_schedule {newRetryCount retryAfter : Nat}
    (hquiet : Quiet attempt.moment t) (hid : job.id = row.id)
    (hrow : t.job? row.id = some row) (howned : ownedRunning row.id runtime.workerOwnerId row) :
    Persists row t ((newRetryCount : Int) = row.retryCount + 1)
      (scheduleOwnedRunningJobRetry runtime job newRetryCount retryAfter errorMessage attempt t) := by
  unfold scheduleOwnedRunningJobRetry
  split
  · split
    · rename_i e he
      have htooLarge : e = .retryBackoffTooLarge := by
        unfold retryBackoffToMicroseconds at he
        split at he <;> simp_all
      subst htooLarge
      exact persists_error rfl (by rintro ⟨⟩) (by rintro ⟨⟩)
    · rename_i microseconds _
      rw [hid]
      refine persists_lift hquiet hrow rfl howned fun effect t' hspecified htakes => ?_
      obtain ⟨other, hother, heffect⟩ := Option.bind_eq_some_iff.1 hspecified
      obtain ⟨runAt, -, heffect⟩ := Option.bind_eq_some_iff.1 heffect
      obtain rfl := Option.some.inj heffect
      have hafter := congrFun htakes.jobs row.id
      rw [rowsAfter, Function.update_self] at hafter
      simp [Recorded, hafter]
  · exact persists_error rfl (by rintro ⟨⟩) (by rintro ⟨⟩)

theorem persists_markFailed (hquiet : Quiet attempt.moment t) (hid : job.id = row.id)
    (hrow : t.job? row.id = some row) (howned : ownedRunning row.id runtime.workerOwnerId row) :
    Persists row t True (markOwnedRunningJobFailed runtime job errorMessage increment attempt t) := by
  rw [markOwnedRunningJobFailed, hid]
  refine persists_lift hquiet hrow rfl howned fun effect t' hspecified htakes => ?_
  obtain ⟨other, hother, heffect⟩ := Option.bind_eq_some_iff.1 hspecified
  obtain rfl := Option.some.inj heffect
  have hafter := congrFun htakes.jobs row.id
  rw [rowsAfter, Function.update_self] at hafter
  simp [Recorded, hafter]

theorem persists_move {reason : DeadLetterReason}
    (hquiet : Quiet attempt.moment t) (hid : job.id = row.id)
    (hrow : t.job? row.id = some row) (howned : ownedRunning row.id runtime.workerOwnerId row) :
    Persists row t True
      (moveOwnedRunningJobToDeadLetter runtime job errorMessage increment reason attempt t) := by
  unfold moveOwnedRunningJobToDeadLetter
  split
  · exact persists_error rfl nofun nofun
  · rename_i deadLetterId _
    rw [hid]
    refine persists_lift hquiet hrow rfl howned fun effect t' hspecified htakes => ?_
    obtain ⟨other, hother, heffect⟩ := Option.bind_eq_some_iff.1 hspecified
    obtain rfl := Option.some.inj heffect
    have hafter := congrFun htakes.jobs row.id
    have hdead := congrFun htakes.deadLetters deadLetterId
    rw [rowsAfter, Function.update_self] at hafter hdead
    refine iff_true_intro (.inr ⟨hafter, _, (Tables.deadLetter?_eq_some.1 hdead).1, ?_⟩)
    exact (Tables.job?_eq_some.1 (ownedJob_eq_some.1 hother).1).2

theorem schedule_persists_iff {newRetryCount retryAfter : Nat}
    (hquiet : Quiet attempt.moment t) (hid : job.id = row.id)
    (hrow : t.job? row.id = some row) (howned : ownedRunning row.id runtime.workerOwnerId row)
    (hcount : newRetryCount < 2 ^ 31) :
    (∃ reply, (scheduleOwnedRunningJobRetry runtime job
      newRetryCount retryAfter errorMessage attempt t).1 = .ok reply) ↔
      RetryPersists errorMessage (.ok retryAfter) attempt.moment := by
  rw [scheduleOwnedRunningJobRetry, if_pos hcount, hid]
  cases hmicroseconds : retryBackoffToMicroseconds retryAfter with
  | error e => simp [RetryPersists, hmicroseconds]
  | ok microseconds =>
      dsimp only
      rw [lift_ok_iff]
      constructor
      · rintro ⟨reply, h⟩
        obtain ⟨hmessage, runAt, hrunAt⟩ := needs_of_schedule_ok hquiet hrow howned h
        exact ⟨hmessage, retryAfter, microseconds, runAt, rfl, hmicroseconds, hrunAt⟩
      · rintro ⟨hmessage, _, _, runAt, hbackoff, hsame, hrunAt⟩
        obtain rfl := Except.ok.inj hbackoff
        rw [hmicroseconds, Except.ok.injEq] at hsame
        subst hsame
        exact schedule_ok hquiet hrow howned hcount hmessage hrunAt

theorem markFailed_persists_iff (hquiet : Quiet attempt.moment t) (hid : job.id = row.id)
    (hrow : t.job? row.id = some row) (howned : ownedRunning row.id runtime.workerOwnerId row) :
    (∃ reply, (markOwnedRunningJobFailed runtime job errorMessage increment attempt t).1 = .ok reply) ↔
      '\x00' ∉ errorMessage.toList ∧ row.retryCount + (if increment then 1 else 0) < 2 ^ 31 := by
  rw [markOwnedRunningJobFailed, hid, lift_ok_iff]
  constructor
  · rintro ⟨reply, h⟩
    exact needs_of_markFailed_ok hquiet hrow howned h
  · rintro ⟨hmessage, hcount⟩
    exact markFailed_ok hquiet hrow howned hmessage hcount

theorem move_persists_iff {reason : DeadLetterReason}
    (hquiet : Quiet attempt.moment t) (hid : job.id = row.id)
    (hrow : t.job? row.id = some row) (howned : ownedRunning row.id runtime.workerOwnerId row) :
    (∃ reply, (moveOwnedRunningJobToDeadLetter runtime job
      errorMessage increment reason attempt t).1 = .ok reply) ↔
      '\x00' ∉ errorMessage.toList ∧ row.retryCount + (if increment then 1 else 0) < 2 ^ 31 ∧
        ∃ deadLetterId, attempt.newId = .ok deadLetterId ∧ DeadLetterFree t row.id deadLetterId := by
  unfold moveOwnedRunningJobToDeadLetter
  cases hnew : attempt.newId with
  | error e =>
      constructor
      · rintro ⟨_, ⟨⟩⟩
      · rintro ⟨-, -, _, ⟨⟩, -⟩
  | ok deadLetterId =>
      dsimp only
      rw [hid, lift_ok_iff]
      constructor
      · rintro ⟨reply, h⟩
        obtain ⟨hmessage, hcount, hfree⟩ := needs_of_move_ok hrow h
        exact ⟨hmessage, hcount, deadLetterId, rfl, hfree⟩
      · rintro ⟨hmessage, hcount, other, hother, hfree⟩
        obtain rfl := Except.ok.inj hother
        exact move_ok hquiet hrow howned hmessage hcount hfree

theorem recorded_end_iff (hquiet : Quiet attempt.moment t)
    (hid : job.id = row.id) (hrow : t.job? row.id = some row)
    (howned : ownedRunning row.id runtime.workerOwnerId row) (reason : DeadLetterReason)
    (rest : List (Attempt π)) (requeue : Moment π) :
    Recorded row (moveRunningJobToDeadLetterOrFail runtime job
      errorMessage increment reason (attempt :: rest) requeue
      t).2 ↔ EndPersists runtime errorMessage increment attempt row t := by
  have hstatus := ownedRunning_status howned
  unfold moveRunningJobToDeadLetterOrFail
  split
  · have hpersists :=
      @persists_move π F f t row runtime job errorMessage
      increment attempt reason hquiet hid hrow howned
    rw [retry_first hpersists, recorded_persist hpersists runtime job _ requeue hid hrow hstatus,
      move_persists_iff hquiet hid hrow howned]
    simp [EndPersists, *]
  · have hpersists :=
      @persists_markFailed π F f t row runtime job errorMessage increment attempt hquiet hid hrow howned
    rw [retry_first hpersists, recorded_persist hpersists runtime job _ requeue hid hrow hstatus,
      markFailed_persists_iff hquiet hid hrow howned]
    simp [EndPersists, *]

/-- A handler's failure is recorded in the job exactly where the database accepts the
message, the counter, the backoff and, with dead letters, the new row. -/
theorem failure_recorded (runtime : WorkerRuntime f)
    (job : Job) (error : TaskError) (random : Except String F)
    (attempt : Attempt π) (rest : List (Attempt π)) (requeue : Moment π) (row : JobRow π)
    (hquiet : Quiet attempt.moment t) (hid : job.id = row.id) (hrow : t.job? row.id = some row)
    (howned : ownedRunning row.id runtime.workerOwnerId row) :
    Recorded row (handleProcessedQueueJobError runtime job error random (attempt :: rest) requeue t).2 ↔
      Recordable runtime job error random attempt row t := by
  have hstatus := ownedRunning_status howned
  have hpersisted := job.retryCount_persisted
  have hmaxRetries := job.maxRetries_persisted
  unfold handleProcessedQueueJobError
  rw [if_pos (show job.retryCount + 1 < 2 ^ 32 by omega), Recordable]
  by_cases hend : error.permanent ∨ job.maxRetries < job.retryCount + 1
  · rw [if_pos hend, if_pos (by simpa using hend)]
    exact recorded_end_iff hquiet hid hrow howned _ rest requeue
  · rw [if_neg hend, if_neg (by simpa using hend)]
    cases hbackoff : computeQueueRetryBackoff f random
      runtime.retryPolicy.policy (job.retryCount + 1) error with
    | error e =>
        refine iff_of_false (not_recorded_running hrow hstatus) ?_
        rintro ⟨-, -, _, _, _, ⟨⟩, -⟩
    | ok retryAfter =>
        have hpersists := @persists_schedule π F f t row runtime
          job error.message attempt (job.retryCount + 1) retryAfter
          hquiet hid hrow howned
        have hcount : job.retryCount + 1 < 2 ^ 31 := by
          rw [not_or] at hend
          omega
        dsimp only
        rw [retry_first hpersists, recorded_persist hpersists runtime job _ requeue hid hrow hstatus,
          schedule_persists_iff hquiet hid hrow howned hcount]
        refine and_congr_left fun _ => ?_
        push_cast
        omega

end Recording

section Run

/-- The policies of the run below hold whole numbers only. -/
def wholeSeconds : Floats Int where
  ofNat n := n
  isFinite _ := true
  isNan _ := false
  isInfinite _ := false
  lt a b := a < b
  eq a b := a = b
  add a b := a + b
  sub a b := a - b
  mul a b := a * b
  powf a b := a ^ b.toNat
  asSecs nanos := nanos / 1000000000
  durationFromSecs seconds := seconds.toNat * 1000000000

def everySecond : WorkerRuntime wholeSeconds where
  workerOwnerId := worker
  deadLetterEnabled := true
  retryPolicy := ⟨⟨.fixed 1000000000, 0, 0⟩, rfl⟩

def startedReport : System Unit :=
  exec step (plain [(0, enqueueReport), (10, claimReport worker),
    (20, fun _ => .execution 0 (.begin true)),
    (30, fun m => .execution 0 (.statement m 0 true))] System.empty) System.empty

def startedRow : JobRow Unit where
  id := 1
  taskName := report
  payload := ()
  status := .running
  runAtOrAfter := 0
  lastError := none
  retryCount := 0
  maxRetries := 5
  timeoutNanos := 0
  dedupeKey := none
  workerId := some worker
  claimedByWorkerAt := some 10
  executionStartedAt := some 30
  executionHeartbeatAt := some 30
  finishedAt := none
  createdAt := 0
  updatedAt := 30

def startedJob : Job := ⟨1, 0, 5, by decide, by decide⟩

def quietMoment (now : Int) : Moment Unit := ⟨now, startedReport.tables, fun _ => false, fun _ => false⟩

theorem startedReport_job? : startedReport.tables.job? 1 = some startedRow := by decide +kernel

theorem failure_recorded_started :
    Recorded startedRow (handleProcessedQueueJobError everySecond startedJob ⟨"failed", false⟩ (.ok 0)
      [⟨quietMoment 40, .ok 2⟩] (quietMoment 50) startedReport.tables).2 ↔
    Recordable everySecond startedJob ⟨"failed",
      false⟩ (.ok 0) ⟨quietMoment 40, .ok 2⟩ startedRow startedReport.tables :=
  failure_recorded everySecond startedJob ⟨"failed", false⟩
    (.ok 0) ⟨quietMoment 40, .ok 2⟩ [] (quietMoment 50) startedRow
    ⟨rfl, fun _ => rfl⟩ rfl startedReport_job? (by decide)

/-- With a null byte in its message, a failure returns the job uncounted, to fail again. -/
theorem null_byte_uncounted : ¬∀ (runtime : WorkerRuntime wholeSeconds) (job : Job) (error : TaskError)
    (random : Except String Int) (attempt : Attempt Unit)
    (rest : List (Attempt Unit)) (requeue : Moment Unit)
    (t : Tables Unit) (row : JobRow Unit), Quiet attempt.moment t →
    job.id = row.id → t.job? row.id = some row →
    ownedRunning row.id runtime.workerOwnerId row →
    Recorded row (handleProcessedQueueJobError runtime job
      error random (attempt :: rest) requeue t).2 := by
  intro h
  have hmark := h everySecond startedJob ⟨"\x00", false⟩
    (.ok 0) ⟨quietMoment 40, .ok 2⟩ [] (quietMoment 50)
    startedReport.tables startedRow ⟨rfl, fun _ => rfl⟩ rfl startedReport_job? (by decide)
  have hafter : ((handleProcessedQueueJobError everySecond startedJob ⟨"\x00",
    false⟩ (.ok 0) [⟨quietMoment 40, .ok 2⟩]
      (quietMoment 50) startedReport.tables).2.job? 1).map (fun row => (row.status, row.retryCount)) =
      some (.pending, 0) := by
    decide +kernel
  rcases hmark with ⟨row', hrow', hmark⟩ | ⟨hnone, -⟩
  · rw [show startedRow.id = 1 from rfl] at hrow'
    rw [hrow', Option.map_some, Option.some.injEq, Prod.mk.injEq] at hafter
    rcases hmark with ⟨-, hcount⟩ | hfailed
    · rw [hafter.2] at hcount
      cases hcount
    · rw [hafter.1] at hfailed
      cases hfailed
  · rw [show startedRow.id = 1 from rfl] at hnone
    rw [hnone] at hafter
    cases hafter

end Run

end Paranoid.QueueFailure
