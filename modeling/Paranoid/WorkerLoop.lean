import Paranoid.QueueFailure

namespace Paranoid.WorkerLoop

open List QueueModel QueueStatements QueueOperations QueueEffects QueueChanges QueueSoundness
open QueueRows QueueWorker QueueOwnership Transitions
open QueueFailure (ProcessedJobOutcome)

variable {π : Type}

section Results

/-- The counters are `u32`. -/
structure WorkerRunLoopSummary where
  claimedCount : Nat
  succeededCount : Nat
  retriedCount : Nat
  failedCount : Nat
  deadLetteredCount : Nat
  lostOwnershipCount : Nat
  deriving DecidableEq

def WorkerRunLoopSummary.default : WorkerRunLoopSummary := ⟨0, 0, 0, 0, 0, 0⟩

inductive WorkerError
  | claim (reason : String)
  | job (reason : String)
  | workerTaskJoinFailed (reason : String)
  deriving DecidableEq

inductive CleanupError
  | workerDatabaseOperationTimedOut
  | statement (error : StatementError)
  | connection (reason : String)
  deriving DecidableEq

inductive Failure
  | workerStartupJitterRandom (reason : String)
  | unexpectedOutcome (operation outcome : String)
  | worker (error : WorkerError)
  | cleanup (error : CleanupError)
  | workerRuntimeFailureAndClaimedJobCleanupFailed (workerError : WorkerError) (cleanupError : CleanupError)
  deriving DecidableEq

inductive LoopError
  | one (failure : Failure)
  | workerRuntimeMultipleFailures (failures : List Failure)
  deriving DecidableEq

def recordClaimedCount (claimedCount : Nat) (summary : WorkerRunLoopSummary) :
    Except Failure WorkerRunLoopSummary :=
  if claimedCount < 2 ^ 32 then
    if summary.claimedCount + claimedCount < 2 ^ 32 then
      .ok { summary with claimedCount := summary.claimedCount + claimedCount }
    else .error (.unexpectedOutcome "queue worker run loop" "claimed job count overflowed")
  else .error (.unexpectedOutcome "queue worker run loop" "claimed more jobs than fit in u32")

def countProcessed (counter : Nat) : Except Failure Nat :=
  if counter + 1 < 2 ^ 32 then .ok (counter + 1)
  else .error (.unexpectedOutcome "queue worker run loop" "processed job count overflowed")

def recordProcessedJobOutcome (outcome : ProcessedJobOutcome) (summary : WorkerRunLoopSummary) :
    Except Failure WorkerRunLoopSummary :=
  match outcome with
  | .succeeded => do return { summary with succeededCount := ← countProcessed summary.succeededCount }
  | .retried => do return { summary with retriedCount := ← countProcessed summary.retriedCount }
  | .failed => do return { summary with failedCount := ← countProcessed summary.failedCount }
  | .deadLettered =>
      do return { summary with deadLetteredCount := ← countProcessed summary.deadLetteredCount }
  | .lostOwnership =>
      do return { summary with lostOwnershipCount := ← countProcessed summary.lostOwnershipCount }

def workerRuntimeErrorAfterClaimedJobCleanup (workerError : WorkerError) :
    Except CleanupError Unit → Failure
  | .ok () => .worker workerError
  | .error cleanupError => .workerRuntimeFailureAndClaimedJobCleanupFailed workerError cleanupError

def workerRuntimeErrorAfterInFlightAbortAndClaimedJobCleanup (workerError : WorkerError)
    (inFlightErrors : List WorkerError) (cleanupResult : Except CleanupError Unit) : LoopError :=
  let primaryError := workerRuntimeErrorAfterClaimedJobCleanup workerError cleanupResult
  if inFlightErrors = [] then .one primaryError
  else .workerRuntimeMultipleFailures (primaryError :: inFlightErrors.map .worker)

def workerRuntimeShutdownTimeoutResult (summary : WorkerRunLoopSummary)
    (inFlightErrors : List WorkerError)
    (cleanupResult : Except CleanupError Unit) : Except LoopError WorkerRunLoopSummary :=
  match cleanupResult, inFlightErrors with
  | .ok (), [] => .ok summary
  | .error cleanupError, [] => .error (.one (.cleanup cleanupError))
  | .ok (), [error] => .error (.one (.worker error))
  | .error cleanupError, errors =>
      .error (.workerRuntimeMultipleFailures (.cleanup cleanupError :: errors.map .worker))
  | .ok (), errors => .error (.workerRuntimeMultipleFailures (errors.map .worker))

end Results

section Loop

/-- How the task of a claimed job ends. -/
inductive Joined
  | processed (outcome : ProcessedJobOutcome)
  | failed (reason : String)
  | cancelled (reason : String)
  | panicked (reason : String)

/-- An abort cancels the tasks, which is no error of theirs. -/
def workerRuntimeErrorFromJoinedInFlightJobAfterAbort : Joined → Option WorkerError
  | .processed _ | .cancelled _ => none
  | .failed reason => some (.job reason)
  | .panicked reason => some (.workerTaskJoinFailed reason)

/-- Why the loop cleans up, and so what it returns afterwards. -/
inductive Exit
  | runtimeError (error : WorkerError)
  | gracePeriodElapsed (summaryBeforeShutdownDrain : WorkerRunLoopSummary)
  | drained

inductive CleanupStep
  | returnUnstarted
  | returnStarted
  | count
  | sleep

inductive Phase
  | startup
  | claiming
  | backingOff
  | selecting
  | draining
  | aborting (exit : Exit) (inFlightErrors : List WorkerError)
  | cleaning (exit : Exit) (inFlightErrors : List WorkerError) (next : CleanupStep)
  | returned (result : Except LoopError WorkerRunLoopSummary)

structure WorkerConfig where
  workerOwnerId : WorkerOwnerId
  registeredTaskNames : List TaskName
  concurrency : Nat
  deadLetterEnabled : Bool

/-- The claims of one loop are not told apart. -/
def WorkerConfig.spawn (config : WorkerConfig) (job : JobRow π) : Execution π :=
  ⟨0, config.workerOwnerId, config.deadLetterEnabled, job, .claimed, false⟩

/-- `drain` holds the summary from before the drain for as long as the grace period runs. -/
structure LoopState (π : Type) where
  tables : Tables π
  inFlight : List (Execution π)
  summary : WorkerRunLoopSummary
  shutdownRequested : Bool
  drain : Option WorkerRunLoopSummary
  phase : Phase

def LoopState.start (t : Tables π) : LoopState π := ⟨t, [], .default, false, none, .startup⟩

/-- What becomes of the transaction of a claim. One that fails may have been committed
before its connection broke. -/
inductive ClaimReply
  | acknowledged
  | failed (committed protocolFailure : Bool) (reason : String)

inductive Input (π : Type)
  | startup (delay : Except String Bool)
  | requestShutdown
  | claim (m : Moment π) (reply : ClaimReply)
  | timerElapsed
  | noticeShutdown
  | joined (index : Nat) (result : Joined)
  | noneInFlight
  | gracePeriodElapsed
  | cleanup (m : Moment π) (reply : Except CleanupError Unit)
  | task (index : Nat) (event : Event π)
  | other (m : Moment π) (statement : Statement π)

variable (config : WorkerConfig)

def LoopState.return (s : LoopState π) (result : Except LoopError WorkerRunLoopSummary) : LoopState π :=
  { s with phase := .returned result }

/-- The loop breaks, and requests the shutdown itself if nobody has. -/
def LoopState.finishShutdown (s : LoopState π) : LoopState π :=
  { s with shutdownRequested := true, drain := some s.summary, phase := .draining }

def LoopState.handleRuntimeError (s : LoopState π) (error : WorkerError) : LoopState π :=
  { s with shutdownRequested := true, phase := .aborting (.runtimeError error) [] }

def LoopState.availableCapacity (s : LoopState π) : Nat := config.concurrency - s.inFlight.length

/-- Without capacity or tasks no statement is sent. -/
def LoopState.sendsClaim (s : LoopState π) : Bool :=
  s.availableCapacity config ≠ 0 && config.registeredTaskNames ≠ []

def LoopState.claimJobs (s : LoopState π) (m : Moment π) :
    Except StatementError (List (JobRow π) × Tables π) :=
  if s.sendsClaim config then
    claimAvailableJobs m config.registeredTaskNames
      (s.availableCapacity config) config.workerOwnerId s.tables
  else .ok ([], s.tables)

def LoopState.claimFailed (s : LoopState π) (protocolFailure : Bool) (reason : String) : LoopState π :=
  if protocolFailure then s.handleRuntimeError (.claim reason) else { s with phase := .backingOff }

def LoopState.claim (s : LoopState π) (m : Moment π) (reply : ClaimReply) : LoopState π :=
  if s.shutdownRequested then s.finishShutdown
  else
    match s.claimJobs config m, if s.sendsClaim config then reply else .acknowledged with
    | .ok (jobs, tables), .acknowledged =>
        let s' := { s with tables, inFlight := s.inFlight ++ jobs.map config.spawn }
        match recordClaimedCount jobs.length s.summary with
        | .ok summary => { s' with summary, phase := .selecting }
        -- the error leaves the loop at once
        | .error failure => s'.return (.error (.one failure))
    | .error _, .acknowledged => s.claimFailed false "claim available jobs"
    | .ok (_, tables), .failed committed protocolFailure reason =>
        { s with tables := if committed then tables else s.tables }.claimFailed protocolFailure reason
    | .error _, .failed _ protocolFailure reason => s.claimFailed protocolFailure reason

def LoopState.handleJoinedJob (s : LoopState π) (result : Joined) (next : Phase) : LoopState π :=
  match result with
  | .processed outcome =>
      match recordProcessedJobOutcome outcome s.summary with
      | .ok summary => { s with summary, phase := next }
      | .error failure => s.return (.error (.one failure))
  | .failed reason => s.handleRuntimeError (.job reason)
  | .cancelled reason | .panicked reason => s.handleRuntimeError (.workerTaskJoinFailed reason)

def LoopState.joined (s : LoopState π) (index : Nat) (result : Joined) : LoopState π :=
  if index < s.inFlight.length then
    let s' := { s with inFlight := s.inFlight.eraseIdx index }
    match s.phase with
    | .selecting => s'.handleJoinedJob result .claiming
    | .draining => s'.handleJoinedJob result .draining
    | .aborting exit errors =>
        { s' with
          phase := .aborting exit
            (errors ++ (workerRuntimeErrorFromJoinedInFlightJobAfterAbort result).toList) }
    | _ => s
  else s

def LoopState.noneInFlight (s : LoopState π) : LoopState π :=
  if s.inFlight = [] then
    match s.phase with
    | .draining => { s with drain := none, phase := .cleaning .drained [] .returnUnstarted }
    | .aborting exit errors => { s with phase := .cleaning exit errors .returnUnstarted }
    | _ => s
  else s

/-- The timeout of the drain drops whatever the drain is doing. -/
def LoopState.gracePeriodElapsed (s : LoopState π) : LoopState π :=
  match s.drain, s.phase with
  | _, .returned _ | none, _ => s
  | some summary, _ => { s with drain := none, phase := .aborting (.gracePeriodElapsed summary) [] }

def LoopState.finishCleanup (s : LoopState π) (exit : Exit) (inFlightErrors : List WorkerError)
    (cleanupResult : Except CleanupError Unit) : LoopState π :=
  match exit with
  | .runtimeError error =>
      s.return (.error (workerRuntimeErrorAfterInFlightAbortAndClaimedJobCleanup
        error inFlightErrors cleanupResult))
  | .gracePeriodElapsed summary =>
      s.return (workerRuntimeShutdownTimeoutResult summary inFlightErrors cleanupResult)
  | .drained =>
      match cleanupResult with
      | .ok () => s.return (.ok s.summary)
      | .error cleanupError => s.return (.error (.one (.cleanup cleanupError)))

def countWorkerOwnedRunningJobs (workerId : WorkerOwnerId) (t : Tables π) : Nat :=
  t.jobs.countP fun row => row.workerId = some workerId && row.status = .running

/-- `return_claimed_jobs_after_worker_task_failure`, one database operation at a time. -/
def LoopState.cleanup (s : LoopState π) (m : Moment π) (reply : Except CleanupError Unit) :
    LoopState π :=
  match s.phase with
  | .cleaning exit errors next =>
      match next, reply with
      | _, .error cleanupError => s.finishCleanup exit errors (.error cleanupError)
      | .returnUnstarted, .ok () =>
          match returnAvailableOwnedUnstartedRunningJobsToPending m config.workerOwnerId s.tables with
          | .error e => s.finishCleanup exit errors (.error (.statement e))
          | .ok (_, tables) => { s with tables, phase := .cleaning exit errors .returnStarted }
      | .returnStarted, .ok () =>
          match returnAvailableOwnedStartedRunningJobsToPending m config.workerOwnerId s.tables with
          | .error e => s.finishCleanup exit errors (.error (.statement e))
          | .ok (_, tables) => { s with tables, phase := .cleaning exit errors .count }
      | .count, .ok () =>
          if countWorkerOwnedRunningJobs config.workerOwnerId s.tables = 0 then s.finishCleanup exit errors (.ok ())
          else { s with phase := .cleaning exit errors .sleep }
      | .sleep, .ok () => { s with phase := .cleaning exit errors .returnUnstarted }
  | _ => s

/-- No other run claims under this owner id. -/
def claimsAs (workerId : WorkerOwnerId) : Statement π → Bool
  | .claimAvailableJobs _ _ claimant => claimant = workerId
  | _ => false

def LoopState.next (s : LoopState π) (input : Input π) : LoopState π :=
  match input with
  | .startup delay =>
      match s.phase, delay with
      | .startup, .error reason => s.return (.error (.one (.workerStartupJitterRandom reason)))
      | .startup, .ok false => s.return (.ok .default)
      | .startup, .ok true => { s with phase := .claiming }
      | _, _ => s
  | .requestShutdown => { s with shutdownRequested := true }
  | .claim m reply =>
      match s.phase with
      | .claiming => s.claim config m reply
      | _ => s
  | .timerElapsed =>
      match s.phase with
      | .backingOff | .selecting => { s with phase := .claiming }
      | _ => s
  | .noticeShutdown =>
      match s.phase, s.shutdownRequested with
      | .backingOff, true | .selecting, true => s.finishShutdown
      | _, _ => s
  | .joined index result => s.joined index result
  | .noneInFlight => s.noneInFlight
  | .gracePeriodElapsed => s.gracePeriodElapsed
  | .cleanup m reply => s.cleanup config m reply
  | .task index event =>
      match s.inFlight[index]? with
      | none => s
      | some e => { s with
          tables := (e.act s.tables event).2.1, inFlight := s.inFlight.set index (e.act s.tables event).1 }
  | .other m statement =>
      if claimsAs config.workerOwnerId statement then s
      else
        match run m statement s.tables with
        | .error _ => s
        | .ok tables => { s with tables }

def step (input : Input π) (s : LoopState π) : LoopState π × Unit := (s.next config input, ())

end Loop

section Ownership

variable {m : Moment π} {t t' : Tables π} {workerId : WorkerOwnerId}

def OwnsNone (workerId : WorkerOwnerId) (t : Tables π) : Prop :=
  ∀ row ∈ t.jobs, row.status = .running → row.workerId ≠ some workerId

theorem ownsNone_of_change {kind : Kind π} (h : OwnsNone workerId t)
    (hchange : Change t t' kind) (hkind : kind ≠ .claims) :
    OwnsNone workerId t' := by
  intro row' hrow' hrunning howned
  obtain ⟨row, hrow, -, hbefore, hworker⟩ := running_before hchange hkind hrow' hrunning
  exact h row hrow hbefore (hworker.trans howned)

theorem ownsNone_of_claim {claimant : WorkerOwnerId} {taskNames : List TaskName} {claimLimit : Nat}
    {jobs : List (JobRow π)} (h : OwnsNone workerId t) (hclaimant : claimant ≠ workerId)
    (hclaim : claimAvailableJobs m taskNames claimLimit claimant t = .ok (jobs, t')) :
    OwnsNone workerId t' := by
  intro row' hrow' hrunning howned
  rcases claimed_rows hclaim hrow' with ⟨-, row, -, -, rfl⟩ | ⟨hrow, -⟩
  · exact hclaimant (Option.some.inj howned)
  · exact h row' hrow hrunning howned

/-- What others do gives the worker no job. -/
theorem ownsNone_of_run {statement : Statement π} (h : OwnsNone workerId t)
    (hother : claimsAs workerId statement = false)
    (hrun : run m statement t = .ok t') : OwnsNone workerId t' := by
  by_cases hkind : statement.kind = .claims
  · cases statement with
    | claimAvailableJobs taskNames claimLimit claimant =>
        cases hclaim : claimAvailableJobs m taskNames claimLimit claimant t with
        | error e =>
            rw [run, hclaim] at hrun
            cases hrun
        | ok reply =>
            rw [run, hclaim] at hrun
            obtain rfl := Except.ok.inj hrun
            exact ownsNone_of_claim h (of_decide_eq_false hother) hclaim
    | _ => cases hkind
  · exact ownsNone_of_change h ((run_sound statement).change t' hrun) hkind

theorem ownsNone_of_act {e : Execution π} {event : Event π} (h : OwnsNone workerId t) :
    OwnsNone workerId (e.act t event).2.1 := by
  rcases act_change e event with hsame | ⟨kind, hkind, hchange⟩
  · rw [hsame]
    exact h
  · exact ownsNone_of_change h hchange hkind

theorem ownsNone_of_count (h : countWorkerOwnedRunningJobs workerId t = 0) : OwnsNone workerId t := by
  intro row hrow hrunning howned
  rw [countWorkerOwnedRunningJobs, countP_eq_zero] at h
  simpa [hrunning, howned] using h row hrow

end Ownership

section Invariant

variable {config : WorkerConfig} {s : LoopState π}

def Failure.reportsCleanupFailure : Failure → Bool
  | .cleanup _ | .workerRuntimeFailureAndClaimedJobCleanupFailed _ _ => true
  | _ => false

/-- The result tells of a cleanup that failed or timed out. -/
def reportsCleanupFailure : Except LoopError WorkerRunLoopSummary → Bool
  | .ok _ => false
  | .error (.one failure) => failure.reportsCleanupFailure
  | .error (.workerRuntimeMultipleFailures failures) => failures.any Failure.reportsCleanupFailure

def WorkerRunLoopSummary.processed (summary : WorkerRunLoopSummary) : Nat :=
  summary.succeededCount + summary.retriedCount + summary.failedCount + summary.deadLetteredCount +
    summary.lostOwnershipCount

/-- Every processed job was claimed, so only the count of claims can overflow. -/
structure Inv (config : WorkerConfig) (s : LoopState π) : Prop where
  counts : s.summary.processed + s.inFlight.length ≤ s.summary.claimedCount
  bounded : s.summary.claimedCount < 2 ^ 32
  startup : s.phase = .startup → OwnsNone config.workerOwnerId s.tables
  returned : ∀ result, s.phase = .returned result → reportsCleanupFailure result = false →
    OwnsNone config.workerOwnerId s.tables

/-- The worker's count of claims has room for the jobs that the step claims. -/
def ClaimsFit (config : WorkerConfig) (input : Input π) (s : LoopState π) : Prop :=
  match input with
  | .claim m .acknowledged =>
      ∀ jobs tables, s.phase = .claiming → s.claimJobs config m = .ok (jobs, tables) →
      s.summary.claimedCount + jobs.length < 2 ^ 32
  | _ => True

theorem countProcessed_ok {counter : Nat} (h : counter + 1 < 2 ^ 32) :
    countProcessed counter = .ok (counter + 1) :=
  if_pos h

theorem recordProcessedJobOutcome_ok {summary : WorkerRunLoopSummary} (outcome : ProcessedJobOutcome)
    (h : summary.processed + 1 < 2 ^ 32) :
    ∃ summary', recordProcessedJobOutcome outcome summary = .ok summary' ∧
      summary'.processed = summary.processed + 1 ∧ summary'.claimedCount = summary.claimedCount := by
  simp only [WorkerRunLoopSummary.processed] at h ⊢
  cases outcome with
  | succeeded | retried | failed | deadLettered | lostOwnership =>
      rw [recordProcessedJobOutcome, countProcessed_ok (by omega)]
      exact ⟨_, rfl, by dsimp only; omega, rfl⟩

theorem recordClaimedCount_ok {claimedCount : Nat} {summary : WorkerRunLoopSummary}
    (h : summary.claimedCount + claimedCount < 2 ^ 32) :
    recordClaimedCount claimedCount summary =
      .ok { summary with claimedCount := summary.claimedCount + claimedCount } := by
  rw [recordClaimedCount, if_pos (by omega), if_pos h]

theorem reportsCleanupFailure_finishCleanup {s : LoopState π} (exit : Exit) (errors : List WorkerError)
    (e : CleanupError) {result : Except LoopError WorkerRunLoopSummary}
    (h : (s.finishCleanup exit errors (.error e)).phase = .returned result) :
    reportsCleanupFailure result = true := by
  cases exit with
  | runtimeError error =>
      obtain rfl := Phase.returned.inj h
      simp only [workerRuntimeErrorAfterInFlightAbortAndClaimedJobCleanup]
      split <;> rfl
  | gracePeriodElapsed summary =>
      obtain rfl := Phase.returned.inj h
      unfold workerRuntimeShutdownTimeoutResult
      split <;> first | rfl | contradiction
  | drained =>
      obtain rfl := Phase.returned.inj h
      rfl

theorem finishCleanup_fields (exit : Exit) (errors : List WorkerError)
    (cleanupResult : Except CleanupError Unit) :
    ∃ result, s.finishCleanup exit errors cleanupResult = s.return result := by
  cases exit with
  | runtimeError error => exact ⟨_, rfl⟩
  | gracePeriodElapsed summary => exact ⟨_, rfl⟩
  | drained => cases cleanupResult <;> exact ⟨_, rfl⟩

theorem inv_return (h : Inv config s) {result : Except LoopError WorkerRunLoopSummary}
    (hresult : reportsCleanupFailure result = false → OwnsNone config.workerOwnerId s.tables) :
    Inv config (s.return result) where
  counts := h.counts
  bounded := h.bounded
  startup := by rintro ⟨⟩
  returned := by
    rintro _ ⟨⟩
    exact hresult

theorem inv_finishCleanup_error (h : Inv config s) (exit : Exit)
    (errors : List WorkerError) (e : CleanupError) :
    Inv config (s.finishCleanup exit errors (.error e)) := by
  obtain ⟨result, hreturn⟩ := @finishCleanup_fields π s exit errors (.error e)
  have hreports := @reportsCleanupFailure_finishCleanup π s exit errors e result (by rw [hreturn]; rfl)
  rw [hreturn]
  exact inv_return h fun hnot => by rw [hreports] at hnot; cases hnot

theorem inv_finishCleanup_ok (h : Inv config s) (exit : Exit) (errors : List WorkerError)
    (hnone : OwnsNone config.workerOwnerId s.tables) :
    Inv config (s.finishCleanup exit errors (.ok ())) := by
  obtain ⟨result, hreturn⟩ := @finishCleanup_fields π s exit errors (.ok ())
  rw [hreturn]
  exact inv_return h fun _ => hnone

/-- Between the start and the end of the loop the counts are all there is to keep. -/
theorem inv_of_phase (h : Inv config s) {s' : LoopState π} (hsummary : s'.summary = s.summary)
    (hinFlight : s'.inFlight.length ≤ s.inFlight.length) (hstartup : s'.phase ≠ .startup)
    (hreturned : ∀ result, s'.phase ≠ .returned result) : Inv config s' where
  counts := by
    have hcounts := h.counts
    rw [hsummary]
    omega
  bounded := by
    rw [hsummary]
    exact h.bounded
  startup hphase := absurd hphase hstartup
  returned result hphase := absurd hphase (hreturned result)

theorem inv_finishShutdown (h : Inv config s) : Inv config s.finishShutdown :=
  inv_of_phase h rfl le_rfl (by rintro ⟨⟩) (by rintro _ ⟨⟩)

theorem inv_handleRuntimeError (h : Inv config s) (error : WorkerError) :
    Inv config (s.handleRuntimeError error) :=
  inv_of_phase h rfl le_rfl (by rintro ⟨⟩) (by rintro _ ⟨⟩)

theorem inv_claimFailed (h : Inv config s) (protocolFailure : Bool)
    (reason : String) (tables : Tables π) :
    Inv config ({ s with tables }.claimFailed protocolFailure reason) := by
  unfold LoopState.claimFailed
  split
  · exact inv_of_phase h rfl le_rfl (by rintro ⟨⟩) (by rintro _ ⟨⟩)
  · exact inv_of_phase h rfl le_rfl (by rintro ⟨⟩) (by rintro _ ⟨⟩)

theorem inv_claim {m : Moment π} {reply : ClaimReply} (h : Inv config s) (hphase : s.phase = .claiming)
    (hfit : ClaimsFit config (.claim m reply) s) : Inv config (s.claim config m reply) := by
  unfold LoopState.claim
  split
  · exact inv_finishShutdown h
  · generalize hreply : (if s.sendsClaim config then reply else .acknowledged) = reply'
    split
    · rename_i jobs tables hclaim
      have hroom : s.summary.claimedCount + jobs.length < 2 ^ 32 := by
        cases hsends : s.sendsClaim config with
        | true =>
            rw [if_pos hsends] at hreply
            subst hreply
            exact hfit jobs tables hphase hclaim
        | false =>
            rw [LoopState.claimJobs, hsends] at hclaim
            obtain rfl := (Prod.mk.inj (Except.ok.inj hclaim)).1
            exact h.bounded
      rw [recordClaimedCount_ok hroom]
      refine ⟨?_, hroom, by rintro ⟨⟩, by rintro _ ⟨⟩⟩
      have hcounts := h.counts
      simp only [WorkerRunLoopSummary.processed, length_append, length_map] at hcounts ⊢
      omega
    · exact inv_claimFailed h false _ s.tables
    · exact inv_claimFailed h _ _ _
    · exact inv_claimFailed h _ _ s.tables

theorem inv_handleJoinedJob {result : Joined} {next : Phase} (h : Inv config s)
    (hroom : s.summary.processed + s.inFlight.length + 1 ≤ s.summary.claimedCount)
    (hstartup : next ≠ .startup)
    (hreturned : ∀ result, next ≠ .returned result) : Inv config (s.handleJoinedJob result next) := by
  cases result with
  | processed outcome =>
      have hbounded := h.bounded
      obtain ⟨summary', hrecord, hprocessed, hclaimed⟩ :=
        @recordProcessedJobOutcome_ok s.summary outcome (by omega)
      rw [LoopState.handleJoinedJob, hrecord]
      refine ⟨?_, ?_, fun hphase => absurd hphase hstartup,
        fun result hphase => absurd hphase (hreturned result)⟩
      · dsimp only
        omega
      · dsimp only
        omega
  | failed reason => exact inv_handleRuntimeError h _
  | cancelled reason => exact inv_handleRuntimeError h _
  | panicked reason => exact inv_handleRuntimeError h _

theorem inv_joined {index : Nat} {result : Joined} (h : Inv config s) :
    Inv config (s.joined index result) := by
  unfold LoopState.joined
  split
  · rename_i hindex
    have hlength : (s.inFlight.eraseIdx index).length + 1 = s.inFlight.length := by
      rw [length_eraseIdx_of_lt hindex]
      omega
    have hcounts := h.counts
    have herased : Inv config { s with inFlight := s.inFlight.eraseIdx index } :=
      ⟨by dsimp only; omega, h.bounded, h.startup, h.returned⟩
    dsimp only
    split
    · exact inv_handleJoinedJob herased (by dsimp only; omega) (by rintro ⟨⟩) (by rintro _ ⟨⟩)
    · exact inv_handleJoinedJob herased (by dsimp only; omega) (by rintro ⟨⟩) (by rintro _ ⟨⟩)
    · exact inv_of_phase herased rfl le_rfl (by rintro ⟨⟩) (by rintro _ ⟨⟩)
    · exact h
  · exact h

theorem inv_noneInFlight (h : Inv config s) : Inv config s.noneInFlight := by
  unfold LoopState.noneInFlight
  split
  · split
    · exact inv_of_phase h rfl le_rfl (by rintro ⟨⟩) (by rintro _ ⟨⟩)
    · exact inv_of_phase h rfl le_rfl (by rintro ⟨⟩) (by rintro _ ⟨⟩)
    · exact h
  · exact h

theorem inv_gracePeriodElapsed (h : Inv config s) : Inv config s.gracePeriodElapsed := by
  unfold LoopState.gracePeriodElapsed
  split
  · exact h
  · exact h
  · exact inv_of_phase h rfl le_rfl (by rintro ⟨⟩) (by rintro _ ⟨⟩)

theorem inv_cleanup {m : Moment π} {reply : Except CleanupError Unit} (h : Inv config s) :
    Inv config (s.cleanup config m reply) := by
  unfold LoopState.cleanup
  split
  · split
    · exact inv_finishCleanup_error h _ _ _
    · split
      · exact inv_finishCleanup_error h _ _ _
      · exact inv_of_phase h rfl le_rfl (by rintro ⟨⟩) (by rintro _ ⟨⟩)
    · split
      · exact inv_finishCleanup_error h _ _ _
      · exact inv_of_phase h rfl le_rfl (by rintro ⟨⟩) (by rintro _ ⟨⟩)
    · split
      · rename_i hcount
        exact inv_finishCleanup_ok h _ _ (ownsNone_of_count hcount)
      · exact inv_of_phase h rfl le_rfl (by rintro ⟨⟩) (by rintro _ ⟨⟩)
    · exact inv_of_phase h rfl le_rfl (by rintro ⟨⟩) (by rintro _ ⟨⟩)
  · exact h

/-- Where the worker owns no more jobs than before, the phases keep what they say. -/
theorem inv_of_tables (h : Inv config s) {s' : LoopState π} (hsummary : s'.summary = s.summary)
    (hinFlight : s'.inFlight.length = s.inFlight.length) (hphase : s'.phase = s.phase)
    (hnone : OwnsNone config.workerOwnerId s.tables → OwnsNone config.workerOwnerId s'.tables) :
    Inv config s' where
  counts := by
    rw [hsummary, hinFlight]
    exact h.counts
  bounded := by
    rw [hsummary]
    exact h.bounded
  startup hstartup := hnone (h.startup (hphase ▸ hstartup))
  returned result hreturned hreports := hnone (h.returned result (hphase ▸ hreturned) hreports)

theorem inv_next {input : Input π} (h : Inv config s) (hfit : ClaimsFit config input s) :
    Inv config (s.next config input) := by
  cases input with
  | startup delay =>
      simp only [LoopState.next]
      split
      · rename_i hphase
        exact inv_return h fun _ => h.startup hphase
      · rename_i hphase
        exact inv_return h fun _ => h.startup hphase
      · exact inv_of_phase h rfl le_rfl (by rintro ⟨⟩) (by rintro _ ⟨⟩)
      · exact h
  | requestShutdown => exact inv_of_tables h rfl rfl rfl id
  | claim m reply =>
      simp only [LoopState.next]
      split
      · rename_i hphase
        exact inv_claim h hphase hfit
      · exact h
  | timerElapsed =>
      simp only [LoopState.next]
      split
      · exact inv_of_phase h rfl le_rfl (by rintro ⟨⟩) (by rintro _ ⟨⟩)
      · exact inv_of_phase h rfl le_rfl (by rintro ⟨⟩) (by rintro _ ⟨⟩)
      · exact h
  | noticeShutdown =>
      simp only [LoopState.next]
      split
      · exact inv_finishShutdown h
      · exact inv_finishShutdown h
      · exact h
  | joined index result => exact inv_joined h
  | noneInFlight => exact inv_noneInFlight h
  | gracePeriodElapsed => exact inv_gracePeriodElapsed h
  | cleanup m reply => exact inv_cleanup h
  | task index event =>
      simp only [LoopState.next]
      split
      · exact h
      · exact inv_of_tables h rfl (length_set ..) rfl ownsNone_of_act
  | other m statement =>
      simp only [LoopState.next]
      split
      · exact h
      · rename_i hother
        split
        · exact h
        · rename_i hrun
          exact inv_of_tables h rfl rfl rfl fun hnone =>
            ownsNone_of_run hnone (Bool.eq_false_of_not_eq_true hother) hrun

theorem inv_start {t : Tables π} (h : OwnsNone config.workerOwnerId t) :
    Inv config (LoopState.start t) :=
  ⟨le_rfl, Nat.two_pow_pos 32, fun _ => h, by rintro _ ⟨⟩⟩

end Invariant

section Exit

variable {config : WorkerConfig} {t : Tables π}

/-- A cleanup returns running jobs of the worker to pending and touches no others. -/
def OnlyReturns (config : WorkerConfig) (m : Moment π) (t t' : Tables π) : Prop :=
  ∀ id row, t.job? id = some row → t'.job? id = some row ∨
    (row.status = .running ∧ row.workerId = some config.workerOwnerId) ∧
      t'.job? id = some (returnToPending m.now row)

theorem onlyReturns_return {m : Moment π}
    {executionStarted : JobRow π → Bool} {count : Nat} {t' : Tables π}
    (h : returnAvailableOwnedRunningJobsToPending m config.workerOwnerId executionStarted t =
      .ok (count, t')) :
    OnlyReturns config m t t' := by
  obtain ⟨updated, hupdated, hreply⟩ := Postgres.bind_eq_ok.1 h
  obtain ⟨-, rfl⟩ := Prod.mk.inj (Except.ok.inj hreply)
  intro id row hrow
  have hrows : ∀ row ∈ lockJobs m t (fun row => row.workerId = some config.workerOwnerId &&
    row.status = .running &&
      executionStarted row), row ∈ t.jobs ∧
        (row.status = .running ∧ row.workerId = some config.workerOwnerId) := by
    intro row hrow
    obtain ⟨hmem, hmatch, -⟩ := mem_lockJobs hrow
    simp only [Bool.and_eq_true, decide_eq_true_eq] at hmatch
    exact ⟨hmem, hmatch.1.2, hmatch.1.1⟩
  have hid : ∀ row row' : JobRow π,
    (.ok (returnToPending m.now row) : Except StatementError (JobRow π)) = .ok row' →
      row'.id = row.id := id_of_ok fun _ => rfl
  rcases bulk_update hid hrows hupdated hrow with hsame | ⟨howned, row', hset, hrow'⟩
  · exact .inl hsame
  · exact .inr ⟨howned, Except.ok.inj hset ▸ hrow'⟩

theorem onlyReturns_refl (m : Moment π) (t : Tables π) : OnlyReturns config m t t := fun _ _ => .inl

theorem onlyReturns_cleanup (s : LoopState π) (m : Moment π) (reply : Except CleanupError Unit) :
    OnlyReturns config m s.tables (s.cleanup config m reply).tables := by
  have hfinish : ∀ exit errors cleanupResult,
    (s.finishCleanup exit errors cleanupResult).tables = s.tables := by
    intro exit errors cleanupResult
    obtain ⟨result, hreturn⟩ := @finishCleanup_fields π s exit errors cleanupResult
    rw [hreturn]
    rfl
  unfold LoopState.cleanup
  split
  · split
    · rw [hfinish]
      exact onlyReturns_refl m s.tables
    · split
      · rw [hfinish]
        exact onlyReturns_refl m s.tables
      · exact onlyReturns_return ‹_›
    · split
      · rw [hfinish]
        exact onlyReturns_refl m s.tables
      · exact onlyReturns_return ‹_›
    · split
      · rw [hfinish]
        exact onlyReturns_refl m s.tables
      · exact onlyReturns_refl m s.tables
    · exact onlyReturns_refl m s.tables
  · exact onlyReturns_refl m s.tables

/-- What holds of the loop when it has returned, and of each operation of its cleanup. -/
structure LeavesNothing (config : WorkerConfig) (s : LoopState π) : Prop where
  returned : ∀ result, s.phase = .returned result → reportsCleanupFailure result = false →
    OwnsNone config.workerOwnerId s.tables
  cleanup : ∀ m reply, OnlyReturns config m s.tables (s.next config (.cleanup m reply)).tables

/-- As long as the count of claimed jobs fits its type, every exit of the loop cleans up. -/
theorem leaves_nothing (config : WorkerConfig) (t : Tables π) (inputs : List (Input π))
    (hnone : OwnsNone config.workerOwnerId t)
    (hfit : Meets (ClaimsFit config) (step config) inputs (LoopState.start t)) :
    LeavesNothing config (exec (step config) inputs (LoopState.start t)) := by
  have hstep : ∀ (input : Input π) s, ClaimsFit config input s →
    Inv config s → Inv config (step config input s).1 :=
    fun _ _ hfit h => inv_next h hfit
  have h := exec_preserves hstep hfit (inv_start hnone)
  exact ⟨h.returned, onlyReturns_cleanup _⟩

end Exit

section Overflow

def reportWorker : WorkerConfig := ⟨worker, [report], 1, true⟩

def waitingRow : JobRow Unit :=
  enqueuedJob 0 0 report ⟨none, 5, 0, numericDomains_five_retries⟩ none 1 ()

def waiting : Tables Unit := ⟨[waitingRow], [], [], by rintro ⟨⟩ <;> decide⟩

def taken : Tables Unit := ⟨[claimedBy 0 worker waitingRow], [], [], by rintro ⟨⟩ <;> decide⟩

def calm (t : Tables Unit) : Moment Unit := ⟨0, t, fun _ => false, fun _ => false⟩

theorem claim_waiting : claimAvailableJobs (calm waiting) [report] 1 worker waiting =
    .ok ([claimedBy 0 worker waitingRow], taken) := by
  rfl

/-- The worker has claimed one job `n` times, and each time an operator took it away. -/
def lostAll (n : Nat) : LoopState Unit := ⟨waiting, [], ⟨n, 0, 0, 0, 0, n⟩, false, none, .claiming⟩

def loseOnce : List (Input Unit) :=
  [.claim (calm waiting) .acknowledged, .other (calm taken) (.forceRequeueRunningJobById 1),
    .joined 0 (.processed .lostOwnership)]

theorem claimJobs_lostAll (n : Nat) : (lostAll n).claimJobs reportWorker (calm waiting) =
    .ok ([claimedBy 0 worker waitingRow], taken) := claim_waiting

theorem claim_lostAll (n : Nat) :
    (lostAll n).claim reportWorker (calm waiting) .acknowledged =
      let claimed : LoopState Unit :=
        ⟨taken, [reportWorker.spawn (claimedBy 0 worker waitingRow)],
          ⟨n, 0, 0, 0, 0, n⟩, false, none, .claiming⟩
      match recordClaimedCount 1 (lostAll n).summary with
      | .ok summary => { claimed with summary, phase := .selecting }
      | .error failure => claimed.return (.error (.one failure)) := by
  rw [LoopState.claim,
    if_neg (show ¬(lostAll n).shutdownRequested = true from Bool.false_ne_true),
    ite_self, claimJobs_lostAll]
  rfl

theorem next_claim_lostAll {n : Nat} (h : n + 1 < 2 ^ 32) :
    (lostAll n).next reportWorker (.claim (calm waiting) .acknowledged) =
      ⟨taken, [reportWorker.spawn (claimedBy 0 worker waitingRow)],
        ⟨n + 1, 0, 0, 0, 0, n⟩, false, none, .selecting⟩ := by
  have hrecord : recordClaimedCount 1 (lostAll n).summary = .ok ⟨n + 1, 0, 0, 0, 0, n⟩ :=
    recordClaimedCount_ok h
  change (lostAll n).claim reportWorker (calm waiting) .acknowledged = _
  rw [claim_lostAll, hrecord]

theorem exec_loseOnce {n : Nat} (h : n + 1 < 2 ^ 32) :
    exec (step reportWorker) loseOnce (lostAll n) = lostAll (n + 1) := by
  have hrecord : recordProcessedJobOutcome .lostOwnership ⟨n + 1, 0, 0, 0, 0, n⟩ =
    .ok ⟨n + 1, 0, 0, 0, 0, n + 1⟩ := by
    rw [recordProcessedJobOutcome, countProcessed_ok h]
    rfl
  rw [loseOnce, exec_cons, step, next_claim_lostAll h, exec_cons, step, exec_cons, exec_nil, step]
  dsimp only
  change LoopState.handleJoinedJob ⟨waiting, [], ⟨n + 1, 0, 0, 0, 0, n⟩, false, none, .selecting⟩
    (.processed .lostOwnership) .claiming = _
  rw [LoopState.handleJoinedJob, hrecord]
  rfl

theorem exec_loseAll {n : Nat} (h : n < 2 ^ 32) :
    exec (step reportWorker) (replicate n loseOnce).flatten (lostAll 0) = lostAll n := by
  induction n with
  | zero => rfl
  | succ n ih =>
      rw [replicate_succ', flatten_append, exec_append, ih (by omega), flatten_singleton]
      exact exec_loseOnce h

def loseAll (n : Nat) : List (Input Unit) :=
  [.startup (.ok true)] ++ ((replicate n loseOnce).flatten ++ [.claim (calm waiting) .acknowledged])

theorem overflow_returns {n : Nat} (h : n + 1 = 2 ^ 32) :
    exec (step reportWorker) (loseAll n) (LoopState.start waiting) =
    LoopState.return
      ⟨taken, [reportWorker.spawn (claimedBy 0 worker waitingRow)],
        ⟨n, 0, 0, 0, 0, n⟩, false, none, .claiming⟩
      (.error (.one (.unexpectedOutcome "queue worker run loop" "claimed job count overflowed"))) := by
  have hrecord : recordClaimedCount 1 (lostAll n).summary =
      .error (.unexpectedOutcome "queue worker run loop" "claimed job count overflowed") := by
    have hfull : ¬(lostAll n).summary.claimedCount + 1 < 2 ^ 32 :=
      fun hroom => absurd h (Nat.ne_of_lt hroom)
    rw [recordClaimedCount, if_pos (by decide), if_neg hfull]
  have hstart : exec (step reportWorker) [.startup (.ok true)] (LoopState.start waiting) =
    lostAll 0 := rfl
  rw [loseAll, exec_append, hstart, exec_append, exec_loseAll (by omega), exec_cons, exec_nil]
  change (lostAll n).claim reportWorker (calm waiting) .acknowledged = _
  rw [claim_lostAll, hrecord]

def startedRow : JobRow Unit :=
  { claimedBy 0 worker waitingRow with executionStartedAt := some 0, executionHeartbeatAt := some 0 }

def started : Tables Unit := ⟨[startedRow], [], [], by rintro ⟨⟩ <;> decide⟩

/-- The handler of the job is started, and still runs when the grace period elapses. -/
def abortStarted : List (Input Unit) :=
  [.startup (.ok true), .claim (calm waiting) .acknowledged, .task 0 (.begin true),
    .task 0 (.statement (calm taken) 3 true), .requestShutdown, .noticeShutdown, .gracePeriodElapsed,
    .task 0 .abort, .joined 0 (.cancelled "task was cancelled"), .noneInFlight,
    .cleanup (calm started) (.ok ()), .cleanup (calm started) (.ok ()), .cleanup (calm started) (.ok ())]

theorem leaves_nothing_aborted :
    let s := exec (step reportWorker) abortStarted (LoopState.start waiting)
    s.phase = .returned (.ok ⟨1, 0, 0, 0, 0, 0⟩) ∧ s.tables.job? 1 = some (returnToPending 0 startedRow) ∧
      LeavesNothing reportWorker s := by
  refine ⟨rfl, rfl, leaves_nothing reportWorker waiting _ ?_ ?_⟩
  · intro row hrow hrunning
    rw [mem_singleton.1 hrow] at hrunning
    cases hrunning
  · simp only [abortStarted, meets_cons, meets_nil, ClaimsFit, true_and, and_true]
    intro jobs tables _ hclaim
    obtain rfl := (Prod.mk.inj (Except.ok.inj (claim_waiting.symm.trans hclaim))).1
    decide

/-- The claim that overflows the count leaves its job running. -/
theorem overflow_leaves_running :
    ¬∀ (config : WorkerConfig) (t : Tables Unit) (inputs : List (Input Unit)),
    OwnsNone config.workerOwnerId t →
      LeavesNothing config (exec (step config) inputs (LoopState.start t)) := by
  intro h
  have hlast : 4294967295 + 1 = 2 ^ 32 := by decide
  have hnone : OwnsNone reportWorker.workerOwnerId waiting := by
    intro row hrow hrunning
    rw [mem_singleton.1 hrow] at hrunning
    cases hrunning
  have hleaves := h reportWorker waiting (loseAll 4294967295) hnone
  rw [overflow_returns hlast] at hleaves
  exact hleaves.returned _ rfl rfl _ (mem_singleton_self _) rfl rfl

end Overflow

end Paranoid.WorkerLoop
