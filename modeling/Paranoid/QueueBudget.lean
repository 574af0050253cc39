import Paranoid.QueueOwnership
import Paranoid.RetryBudget

namespace Paranoid.QueueBudget

open List QueueModel QueueStatements QueueOperations QueueEffects QueueChanges QueueSoundness
open QueueRows QueueWorker QueueExecution QueueOwnership RetryBudget Transitions

variable {π : Type}

def rowPlace (row : JobRow π) : Place :=
  match row.status with
  | .pending => .waiting
  | .running => if row.executionStartedAt.isSome then .started else .claimed
  | .completed | .failed => .ended

/-- The transition that the execution is about to send counts a failure. -/
def countsFailure : Phase → Bool
  | .finalizing (.scheduleRetry ..) => true
  | .finalizing (.moveToDeadLetterOrFail _ increment _) => increment
  | _ => false

/-- The reclaim of executions that went stale after they were started. -/
def expires : Statement π → Bool
  | .reclaimExpiredRunningJobsToFailed .. | .reclaimExpiredRunningJobsToPendingForRetry .. => true
  | _ => false

/-- The statements that worker runs and their maintenance send beside those of an
execution. -/
def runtimeStatement : Statement π → Bool
  | .returnAvailableOwnedUnstartedRunningJobsToPending .. | .returnAvailableOwnedStartedRunningJobsToPending ..
  | .reclaimNeverStartedRunningJobs .. | .reclaimExpiredRunningJobsToFailed ..
  | .reclaimExpiredRunningJobsToPendingForRetry .. | .moveFailedJobsToDeadLetterBatch ..
  | .cleanupJobsOlderThanOnce .. => true
  | _ => false

def runtimeInput : Input π → Bool
  | .statement _ statement => runtimeStatement statement
  | _ => true

section Observed

variable (id : JobId) (i : Input π) (s : System π)

/-- No worker run claims the job while an earlier execution of its own is unfinished. -/
def ClaimedSeparately : Prop :=
  ∀ e ∈ s.executions, e.job.id = id → Unfinished e → retakes i s e = false

/-- The job is driven by the worker runtime and by stale reclaim only: any other
statement leaves its row alone. -/
def Driven : Prop :=
  ClaimedSeparately id i s ∧ (runtimeInput i ∨ (step i s).1.tables.job? id = s.tables.job? id)

instance : Decidable (ClaimedSeparately id i s) := inferInstanceAs (Decidable (∀ _ ∈ _, _))

instance [DecidableEq π] : Decidable (Driven id i s) := inferInstanceAs (Decidable (_ ∧ _))

/-- The step marks the job started. -/
def marksStarted : Bool :=
  match i with
  | .execution k event =>
      event.transition && s.executions[k]?.any (fun e => e.job.id = id && e.phase = .starting) &&
        (step i s).2 = some .applied
  | _ => false

/-- The step records a failure of the job that counts, or the expiry of an execution. -/
def recordsFailure : Bool :=
  match i with
  | .execution k event =>
      event.transition && s.executions[k]?.any (fun e => e.job.id = id && countsFailure e.phase) &&
        (step i s).2 = some .applied
  | .statement _ statement =>
      expires statement && (s.tables.job? id).any (·.status = .running) &&
        !((step i s).1.tables.job? id).any (·.status = .running)
  | .claim .. => false

def returned (row row' : JobRow π) : Bool :=
  row.status = .running && row'.status = .pending && row'.retryCount = row.retryCount

/-- The step takes the job from running to pending and does not count it. -/
def givesBack : Bool :=
  (s.tables.job? id).any fun row => ((step i s).1.tables.job? id).any (returned row)

end Observed

/-- The system, with a record of how often the job was marked started and given back. -/
structure Run (π : Type) where
  system : System π
  starts : Nat
  returns : Nat

def Run.step (id : JobId) (i : Input π) (p : Run π) : Run π × Option TransitionOutcome :=
  ({ system := (QueueWorker.step i p.system).1
     starts := p.starts + if marksStarted id i p.system then 1 else 0
     returns := p.returns + if givesBack id i p.system then 1 else 0 }, (QueueWorker.step i p.system).2)

/-- The state right after the enqueue of a job whose id is new. -/
structure JustEnqueued (id : JobId) (r : Int) (s : System π) : Prop where
  row : ∃ row, s.tables.job? id = some row ∧
    row.status = .pending ∧ row.retryCount = 0 ∧ row.maxRetries = r
  unclaimed : ∀ e ∈ s.executions, e.job.id ≠ id

section Effects

/-- A step makes a move with the job: what becomes of its row. -/
structure Effect (move : Move) (row row' : JobRow π) : Prop where
  target : move.target (rowPlace row) = some (rowPlace row')
  retryCount : row'.retryCount = row.retryCount + if move.counted then 1 else 0
  maxRetries : row'.maxRetries = row.maxRetries
  budget : move = .retry → row.retryCount < row.maxRetries

variable {m : Moment π} {t t' : Tables π} {id : JobId} {row row' : JobRow π}

theorem rowPlace_pending (h : row.status = .pending) : rowPlace row = .waiting := by
  rw [rowPlace, h]

theorem rowPlace_running (h : row.status = .running) :
    rowPlace row = if row.executionStartedAt.isSome then .started else .claimed := by
  rw [rowPlace, h]

theorem rowPlace_taken : (rowPlace row).taken ↔ row.status = .running := by
  cases hstatus : row.status with
  | running =>
      rw [rowPlace_running hstatus]
      split <;> decide
  | pending | completed | failed => simp [rowPlace, hstatus, Place.taken]

theorem rowPlace_waiting : rowPlace row = .waiting ↔ row.status = .pending := by
  cases hstatus : row.status with
  | running =>
      rw [rowPlace_running hstatus]
      split <;> simp
  | pending | completed | failed => simp [rowPlace, hstatus]

theorem effect_keep (hplace : rowPlace row' = rowPlace row) (hcount : row'.retryCount = row.retryCount)
    (hmax : row'.maxRetries = row.maxRetries) : Effect .keep row row' :=
  ⟨by rw [hplace]; rfl, by simp [hcount, Move.counted], hmax, nofun⟩

theorem effect_claim {now : Int} {workerId : WorkerOwnerId} (hrow : row ∈ t.jobs)
    (hstatus : row.status = .pending) : Effect .claim row (claimedBy now workerId row) := by
  have hshape := t.constraints .statusLifecycleShape row hrow
  simp only [JobRow.StatusLifecycleShape, hstatus,
    reduceCtorEq, false_and, or_false, true_and] at hshape
  refine ⟨?_, by simp [claimedBy, Move.counted], rfl, by rintro ⟨⟩⟩
  rw [rowPlace_pending hstatus, rowPlace_running rfl]
  simp [Move.target, claimedBy, hshape]

theorem effect_start {now : Int} (hstatus : row.status = .running)
    (hstarted : row.executionStartedAt = none) :
    Effect .start row { row with
      executionStartedAt := some now, executionHeartbeatAt := some now, updatedAt := now } := by
  refine ⟨?_, by simp [Move.counted], rfl, nofun⟩
  rw [rowPlace_running hstatus, hstarted]
  simp [Move.target, rowPlace, hstatus]

theorem effect_giveBack {now : Int} (hstatus : row.status = .running) :
    Effect .giveBack row (returnToPending now row) := by
  have hplace : rowPlace (returnToPending now row) = .waiting := rowPlace_pending rfl
  refine ⟨?_, by simp [returnToPending, clearWorkerRuntime, Move.counted], rfl, nofun⟩
  rw [hplace, Move.target, if_pos (rowPlace_taken.2 hstatus)]

theorem effect_retry (hstatus : row.status = .running) (hpending : row'.status = .pending)
    (hcount : row'.retryCount = row.retryCount + 1) (hmax : row'.maxRetries = row.maxRetries)
    (hbudget : row.retryCount < row.maxRetries) : Effect .retry row row' := by
  refine ⟨?_, hcount, hmax, fun _ => hbudget⟩
  rw [rowPlace_pending hpending, Move.target, if_pos (rowPlace_taken.2 hstatus)]

theorem effect_finish {counted : Bool} (hstatus : row.status = .running)
    (hended : row'.status = .completed ∨ row'.status = .failed)
    (hcount : row'.retryCount = row.retryCount + if counted then 1 else 0)
    (hmax : row'.maxRetries = row.maxRetries) : Effect (.finish counted) row row' := by
  have hplace : rowPlace row' = .ended := by
    rcases hended with h | h <;> rw [rowPlace, h]
  refine ⟨?_, ?_, hmax, nofun⟩
  · rw [hplace, Move.target, if_pos (rowPlace_taken.2 hstatus)]
  · rw [hcount]
    cases counted <;> rfl

/-- Only the move that gives a job back shows as a return. -/
theorem returned_iff {move : Move} (h : Effect move row row') :
    returned row row' ↔ move = .giveBack := by
  have htarget := h.target
  have hcount := h.retryCount
  simp only [returned, Bool.and_eq_true, decide_eq_true_eq, ← rowPlace_taken, ← rowPlace_waiting]
  cases move with
  | keep =>
      rw [Move.target, Option.some.injEq] at htarget
      rw [← htarget]
      cases rowPlace row <;> simp [Place.taken]
  | claim | start =>
      obtain ⟨hplace, -⟩ := Option.ite_none_right_eq_some.1 htarget
      simp [hplace, Place.taken, ← Option.some.inj (Option.ite_none_right_eq_some.1 htarget).2]
  | giveBack =>
      obtain ⟨hplace, htarget⟩ := Option.ite_none_right_eq_some.1 htarget
      simp [hplace, ← Option.some.inj htarget, hcount, Move.counted]
  | retry =>
      have hraised : row'.retryCount ≠ row.retryCount := by
        simp only [Move.counted, if_true] at hcount
        omega
      simp [hraised]
  | finish | remove =>
      have hended : rowPlace row' = .ended := by
        simp only [Move.target, Option.ite_none_right_eq_some, Option.some.injEq] at htarget
        first | exact htarget.symm | exact htarget.2.symm
      simp [hended]

end Effects

section Executions

variable {t t' : Tables π} {id : JobId} {row row' : JobRow π} {s : System π}

def Unstarted (e : Execution π) : Prop := e.phase = .claimed ∨ e.phase = .starting

/-- The executions of a run whose claims are separate: a run works on a job at most
once at a time, and retries within the budget of the row that it claimed. -/
structure Orderly (id : JobId) (s : System π) : Prop where
  nonneg : ∀ e ∈ s.executions, e.job.id = id → 0 ≤ e.job.retryCount
  retries : ∀ e ∈ s.executions, e.job.id = id → ∀ n retryAfter message,
    e.phase = .finalizing (.scheduleRetry n retryAfter message) →
      (n : Int) = e.job.retryCount + 1 ∧ (n : Int) ≤ e.job.maxRetries
  separate : ∀ (j k : Nat) (e e' : Execution π), s.executions[j]? = some e → s.executions[k]? = some e' →
    Unfinished e → Unfinished e' → e.job.id = id → e'.job.id = id → e.workerId = e'.workerId → j = k

/-- An unfinished execution whose run owns the row knows the row's count. -/
def Informed (id : JobId) (s : System π) : Prop :=
  ∀ e ∈ s.executions, Unfinished e → e.job.id = id → ∀ row, s.tables.job? id = some row →
    ownedRunning id e.workerId row →
      row.retryCount = e.job.retryCount ∧ row.maxRetries = e.job.maxRetries ∧
        (Unstarted e → row.executionStartedAt = none)

theorem scheduleRetry_of_error {job : JobRow π} {error : TaskError} {retryAfter : Option Int} {n : Nat}
    {microseconds : Int} {message : String} (hnonneg : 0 ≤ job.retryCount)
    (h : handleProcessedQueueJobError job error retryAfter =
      .finalizing (.scheduleRetry n microseconds message)) :
    (n : Int) = job.retryCount + 1 ∧ (n : Int) ≤ job.maxRetries := by
  dsimp only [handleProcessedQueueJobError] at h
  split at h
  · simp at h
  · rename_i hopen
    split at h
    · cases h
    · simp only [Phase.finalizing.injEq, Finalization.scheduleRetry.injEq] at h
      simp only [Bool.or_eq_true, decide_eq_true_eq, not_or, not_lt] at hopen
      omega

theorem act_retries {e : Execution π} {event : Event π} (hnonneg : 0 ≤ e.job.retryCount) {n : Nat}
    {microseconds : Int} {message : String}
    (h : (e.act t event).1.phase = .finalizing (.scheduleRetry n microseconds message)) :
    e.phase = .finalizing (.scheduleRetry n microseconds message) ∨
      (n : Int) = e.job.retryCount + 1 ∧ (n : Int) ≤ e.job.maxRetries := by
  have hnext := act_nextPhase e t event
  rw [h] at hnext
  generalize hphase : Phase.finalizing (.scheduleRetry n microseconds message) = phase at hnext
  cases hnext with
  | same heq => exact .inl heq.symm
  | begun handlerRegistered _ =>
      dsimp only [processClaimedQueueJob] at hphase
      split at hphase
      · simp at hphase
      · split at hphase <;> simp at hphase
  | failed error retryAfter => exact .inr (scheduleRetry_of_error hnonneg hphase.symm)
  | completing => simp at hphase
  | running | requeueing | finished => cases hphase

/-- Before its start an execution has had no transition applied. -/
theorem act_unstarted {e : Execution π} {event : Event π} (h : Unstarted (e.act t event).1) :
    Unstarted e ∧ (event.transition = true → (e.act t event).2.2 ≠ some .applied) := by
  have hnext := act_nextPhase e t event
  have houtcome := act_outcome e t event
  rw [Unstarted] at h
  generalize (e.act t event).1.phase = phase at h hnext
  cases hnext with
  | same heq hsame =>
      subst heq
      refine ⟨h, fun hsent => ?_⟩
      rcases houtcome with ⟨hnot, -⟩ | ⟨happlied, hrows⟩
      · exact hnot
      · rcases h with hphase | hphase
        · cases hrows <;> simp_all
        · exact hsame hphase hsent
  | begun handlerRegistered hclaimed =>
      refine ⟨.inl hclaimed, fun hsent => ?_⟩
      rcases houtcome with ⟨hnot, -⟩ | ⟨-, hrows⟩
      · exact hnot
      · cases hrows <;> simp_all
  | failed error retryAfter =>
      dsimp only [handleProcessedQueueJobError] at h
      split at h
      · simp at h
      · split at h <;> simp at h
  | running | completing | requeueing | finished => simp at h

/-- What a claim hands to its worker run: the jobs as they are afterwards. -/
theorem claimed_execution {m : Moment π} {taskNames : List TaskName} {claimLimit : Nat}
    {workerId : WorkerOwnerId} {jobs : List (JobRow π)} {k : Nat} {e : Execution π}
    {deadLetterEnabled acknowledged : Bool}
    (hclaim : claimAvailableJobs m taskNames claimLimit workerId s.tables = .ok (jobs, t'))
    (he : (s.executions ++ if acknowledged then
      jobs.map (⟨s.claims + 1, workerId, deadLetterEnabled, ·, .claimed, false⟩) else [])[k]? = some e) :
    s.executions[k]? = some e ∨
      s.executions.length ≤ k ∧ jobs[k - s.executions.length]? = some e.job ∧ e.workerId = workerId ∧
        e.phase = .claimed ∧ t'.job? e.job.id = some e.job ∧ e.job.executionStartedAt = none := by
  rcases lt_or_ge k s.executions.length with hold | hnew
  · exact .inl (by rwa [getElem?_append_left hold] at he)
  · rw [getElem?_append_right hnew] at he
    split at he
    · obtain ⟨job, hjob, rfl⟩ := by simpa using he
      refine .inr ⟨hnew, hjob, rfl, rfl, ?_⟩
      obtain ⟨hjobs, hreturned, -, -⟩ := claimAvailableJobs_eq_ok hclaim
      have hmem := mem_of_getElem? hjob
      have hrow' : job ∈ t'.jobs := by
        rw [hreturned] at hmem
        exact (mem_filter.1 hmem).1
      refine ⟨Tables.job?_of_mem hrow', ?_⟩
      rcases claimed_rows hclaim hrow' with ⟨-, row, hrow, hpending, rfl⟩ | ⟨-, hother⟩
      · have hshape := s.tables.constraints .statusLifecycleShape row hrow
        simp only [JobRow.StatusLifecycleShape, hpending,
          reduceCtorEq, false_and, or_false, true_and] at hshape
        exact hshape.2.2.1
      · exact absurd (mem_map_of_mem hmem) hother
    · simp at he

theorem orderly_claim {m : Moment π} {taskNames : List TaskName}
    {claimLimit : Nat} {workerId : WorkerOwnerId}
    {deadLetterEnabled acknowledged : Bool}
    (hguard : ClaimedSeparately id
      (.claim m taskNames claimLimit workerId deadLetterEnabled acknowledged) s)
    (h : Orderly id s) :
    Orderly id (QueueWorker.step
      (.claim m taskNames claimLimit workerId deadLetterEnabled acknowledged) s).1 := by
  dsimp only [QueueWorker.step]
  split
  · exact h
  rename_i jobs tables hclaim
  have hnodup : (jobIds jobs).Nodup := by
    obtain ⟨-, hreturned, -, -⟩ := claimAvailableJobs_eq_ok hclaim
    rw [hreturned]
    exact (filter_sublist.map JobRow.id).nodup (tables.constraints .primaryKey)
  have hretakes : ∀ (k : Nat) (e : Execution π), s.executions[k]? = some e → e.job.id = id →
      Unfinished e → e.workerId = workerId → e.job.id ∉ jobIds jobs := by
    intro k e he hid hunfinished hsame
    have hnot := hguard e (mem_of_getElem? he) hid hunfinished
    simp only [retakes, hclaim, Bool.and_eq_false_iff, decide_eq_false_iff_not] at hnot
    exact hnot.resolve_left (not_not_intro hsame)
  constructor
  · intro e he hid
    obtain ⟨k, hk⟩ := mem_iff_getElem?.1 he
    rcases claimed_execution hclaim hk with hold | ⟨-, -, -, -, hrow, -⟩
    · exact h.nonneg e (mem_of_getElem? hold) hid
    · exact (tables.constraints .numericDomains _ (Tables.job?_eq_some.1 hrow).1).1
  · intro e he hid n retryAfter message hphase
    obtain ⟨k, hk⟩ := mem_iff_getElem?.1 he
    rcases claimed_execution hclaim hk with hold | ⟨-, -, -, hclaimed, -⟩
    · exact h.retries e (mem_of_getElem? hold) hid n retryAfter message hphase
    · simp [hclaimed] at hphase
  · intro j k e e' hj hk hopen hopen' hid hid' hworker
    have hjob := hid.trans hid'.symm
    rcases claimed_execution hclaim hj with hold | ⟨hj', hnew, howner, -⟩
    · rcases claimed_execution hclaim hk with hold' | ⟨-, hnew', howner', -⟩
      · exact h.separate j k e e' hold hold' hopen hopen' hid hid' hworker
      · refine absurd ?_ (hretakes j e hold hid hopen (hworker.trans howner'))
        exact hjob ▸ mem_map_of_mem (mem_of_getElem? hnew')
    · rcases claimed_execution hclaim hk with hold' | ⟨hk', hnew', -⟩
      · refine absurd ?_ (hretakes k e' hold' hid' hopen' (hworker.symm.trans howner))
        exact hjob ▸ mem_map_of_mem (mem_of_getElem? hnew)
      · have hids : (jobIds jobs)[j - s.executions.length]? =
          (jobIds jobs)[k - s.executions.length]? := by
          rw [jobIds, getElem?_map, getElem?_map, hnew, hnew', Option.map_some, Option.map_some, hjob]
        have hlt : j - s.executions.length < (jobIds jobs).length := by
          rw [jobIds, length_map]
          exact (List.getElem?_eq_some_iff.1 hnew).1
        have := (getElem?_inj hlt hnodup).1 hids
        omega

theorem orderly_execution (k : Nat) (event : Event π) (h : Orderly id s) :
    Orderly id (QueueWorker.step (.execution k event) s).1 := by
  dsimp only [QueueWorker.step]
  split
  · exact h
  rename_i e he
  obtain ⟨-, hworker, hjob, hunfinished⟩ := act_keeps (t := s.tables) e event
  have hmem := mem_of_getElem? he
  constructor
  · intro e' he' hid
    rcases mem_or_eq_of_mem_set he' with hold | rfl
    · exact h.nonneg e' hold hid
    · rw [hjob] at hid ⊢
      exact h.nonneg e hmem hid
  · intro e' he' hid n retryAfter message hphase
    rcases mem_or_eq_of_mem_set he' with hold | rfl
    · exact h.retries e' hold hid n retryAfter message hphase
    · rw [hjob] at hid ⊢
      rcases act_retries (h.nonneg e hmem hid) hphase with hold | hnew
      · exact h.retries e hmem hid n retryAfter message hold
      · exact hnew
  · intro i j x y hi hj hopen hopen' hid hid' howner
    rcases getElem?_set_cases he hi with ⟨rfl, rfl⟩ | ⟨-, hx⟩ <;>
      rcases getElem?_set_cases he hj with ⟨rfl, rfl⟩ | ⟨-, hy⟩
    · rfl
    · exact h.separate i j e y he hy (hunfinished hopen) hopen' (hjob ▸ hid) hid' (hworker ▸ howner)
    · exact h.separate i j x e hx he hopen (hunfinished hopen') hid (hjob ▸ hid') (hworker ▸ howner)
    · exact h.separate i j x y hx hy hopen hopen' hid hid' howner

theorem orderly_step (i : Input π) (hguard : ClaimedSeparately id i s) (h : Orderly id s) :
    Orderly id (QueueWorker.step i s).1 := by
  cases i with
  | claim => exact orderly_claim hguard h
  | execution k event => exact orderly_execution k event h
  | statement m statement =>
      dsimp only [QueueWorker.step]
      split
      · exact h
      · split
        · exact h
        · exact ⟨h.nonneg, h.retries, h.separate⟩

end Executions

section Steps

variable {m : Moment π} {t t' : Tables π} {id : JobId} {row row' : JobRow π} {s : System π}

/-- What a statement of the maintenance does with a job that it does not leave alone. -/
def Maintained (counted : Bool) (t' : Tables π) (id : JobId) (row : JobRow π) : Prop :=
  t'.job? id = some row ∨ t'.job? id = none ∨
    row.status = .running ∧ ∃ move row', t'.job? id = some row' ∧ row'.status ≠ .running ∧
      Effect move row row' ∧ move ≠ .start ∧ move.counted = counted

theorem maintained_bulk (move : Move) {counted : Bool} {rows : List (JobRow π)} {P : JobRow π → Prop}
    {set : JobRow π → Except StatementError (JobRow π)}
    (h : updateJobs t (jobIds rows) set = .ok t') (hrow : t.job? id = some row)
    (hid : ∀ row row', set row = .ok row' → row'.id = row.id)
    (hrows : ∀ row ∈ rows, row ∈ t.jobs ∧ P row) (hrunning : ∀ row, P row → row.status = .running)
    (hset : ∀ row row', P row → set row = .ok row' → row'.status ≠ .running ∧ Effect move row row')
    (hmove : move ≠ .start) (hcounted : move.counted = counted) : Maintained counted t' id row := by
  rcases bulk_update hid hrows h hrow with hsame | ⟨hP, row', hrow', hafter⟩
  · exact .inl hsame
  · obtain ⟨hstopped, heffect⟩ := hset row row' hP hrow'
    exact .inr (.inr ⟨hrunning row hP, move, row', hafter, hstopped, heffect, hmove, hcounted⟩)

theorem maintained_return {matching : JobRow π → Bool} {rows : List (JobRow π)}
    (h : updateJobs t (jobIds rows) (fun row => .ok (returnToPending m.now row)) = .ok t')
    (hrow : t.job? id = some row)
    (hrows : ∀ row ∈ rows, row ∈ t.jobs ∧ matching row ∧ m.lockedJobs row.id = false)
    (hrunning : ∀ row, matching row → row.status = .running) : Maintained false t' id row := by
  refine maintained_bulk .giveBack (P := fun row => row.status = .running)
    h hrow (id_of_ok fun _ => rfl) ?_
    (fun _ h => h) (fun row row' hrow hrow' => ?_) nofun rfl
  · exact fun row hmem => ⟨(hrows row hmem).1, hrunning row (hrows row hmem).2.1⟩
  · obtain rfl := Except.ok.inj hrow'
    exact ⟨nofun, effect_giveBack hrow⟩

theorem run_maintains {statement : Statement π} (hruntime : runtimeStatement statement)
    (h : run m statement t = .ok t') (hrow : t.job? id = some row) :
    Maintained (expires statement) t' id row := by
  have hchange := (run_sound statement).change t' h
  cases statement with
  | returnAvailableOwnedUnstartedRunningJobsToPending workerId
  | returnAvailableOwnedStartedRunningJobsToPending workerId =>
      simp only [run, returnAvailableOwnedUnstartedRunningJobsToPending,
        returnAvailableOwnedStartedRunningJobsToPending, returnAvailableOwnedRunningJobsToPending,
        Postgres.pure_eq_ok, map_snd_bind, map_snd_ok, bind_ok_self] at h
      refine maintained_return h hrow (fun row hmem => mem_lockJobs hmem) fun row hmatch => ?_
      simp only [Bool.and_eq_true, decide_eq_true_eq] at hmatch
      exact hmatch.1.2
  | reclaimNeverStartedRunningJobs threshold batchSize =>
      simp only [run, reclaimNeverStartedRunningJobs, Postgres.pure_eq_ok, map_snd_bind, map_snd_ok,
        bind_ok_self] at h
      obtain ⟨cutoff, -, h⟩ := Postgres.bind_eq_ok.1 h
      refine maintained_return h hrow (fun row hmem => mem_lockFirstJobs hmem) fun row hmatch => ?_
      simp only [stale, Bool.and_eq_true, decide_eq_true_eq] at hmatch
      exact hmatch.1.1
  | reclaimExpiredRunningJobsToFailed threshold batchSize =>
      simp only [run, reclaimExpiredRunningJobsToFailed, Postgres.pure_eq_ok, map_snd_bind, map_snd_ok,
        bind_ok_self] at h
      obtain ⟨cutoff, -, h⟩ := Postgres.bind_eq_ok.1 h
      refine maintained_bulk (.finish true) (P := fun row => row.status = .running) h hrow
        (id_of_bind fun _ _ => rfl) ?_ (fun _ h => h) (fun row row' hrunning hrow' => ?_) (by rintro ⟨⟩) rfl
      · intro row hmem
        obtain ⟨hjob, hmatch, -⟩ := mem_lockFirstJobs hmem
        simp only [stale, Bool.and_eq_true, decide_eq_true_eq] at hmatch
        exact ⟨hjob, hmatch.1.1.1⟩
      · obtain ⟨count, hcount, hrow'⟩ := Postgres.bind_eq_ok.1 hrow'
        obtain rfl := Except.ok.inj hrow'
        exact ⟨by rintro ⟨⟩, effect_finish hrunning (.inr rfl) (incrementRetryCount_eq_ok hcount) rfl⟩
  | reclaimExpiredRunningJobsToPendingForRetry threshold batchSize =>
      simp only [run, reclaimExpiredRunningJobsToPendingForRetry,
        Postgres.pure_eq_ok, map_snd_bind, map_snd_ok,
        bind_ok_self] at h
      obtain ⟨cutoff, -, h⟩ := Postgres.bind_eq_ok.1 h
      refine maintained_bulk .retry
        (P := fun row => row.status = .running ∧ row.retryCount < row.maxRetries) h hrow
        (id_of_bind fun _ _ => rfl) ?_ (fun _ => And.left) (fun row row' hrunning hrow' => ?_)
        (by rintro ⟨⟩) rfl
      · intro row hmem
        obtain ⟨hjob, hmatch, -⟩ := mem_lockFirstJobs hmem
        simp only [stale, Bool.and_eq_true, decide_eq_true_eq] at hmatch
        exact ⟨hjob, hmatch.1.1.1, hmatch.2⟩
      · obtain ⟨count, hcount, hrow'⟩ := Postgres.bind_eq_ok.1 hrow'
        obtain rfl := Except.ok.inj hrow'
        exact ⟨by rintro ⟨⟩, effect_retry hrunning.1 rfl (incrementRetryCount_eq_ok hcount) rfl hrunning.2⟩
  | moveFailedJobsToDeadLetterBatch idMap reason =>
      obtain ⟨moved, -, -, hjobs, -⟩ := hchange
      rcases job?_of_subset (fun row hmem => hjobs.mem_iff.2 (mem_append_left _ hmem))
        hrow with hkept | hgone
      · exact .inl hkept
      · exact .inr (.inl hgone)
  | cleanupJobsOlderThanOnce status olderThan batchSize =>
      rcases job?_of_subset (fun row hmem => hchange.1.mem hmem) hrow with hkept | hgone
      · exact .inl hkept
      · exact .inr (.inl hgone)
  | _ => cases hruntime

/-- An applied transition of an execution whose run owns the row: the count goes up by
one where the transition counts a failure. -/
theorem applied_effect {e : Execution π} {event : Event π} (h : Applied e event t t')
    (hsent : event.transition = true) (hrow : t.job? e.job.id = some row)
    (hcount : row.retryCount = e.job.retryCount) (hmax : row.maxRetries = e.job.maxRetries)
    (hunstarted : Unstarted e → row.executionStartedAt = none)
    (hretries : ∀ n retryAfter message, e.phase = .finalizing (.scheduleRetry n retryAfter message) →
      (n : Int) = e.job.retryCount + 1 ∧ (n : Int) ≤ e.job.maxRetries) :
    (t'.job? e.job.id = none ∧ e.phase ≠ .starting) ∨ ∃ move row', t'.job? e.job.id = some row' ∧
      Effect move row row' ∧ (move = .start ↔ e.phase = .starting) ∧
        move.counted = countsFailure e.phase := by
  have hsame : ∀ {before after : JobRow π}, Rewrote t t' e.job.id e.workerId before after →
      before = row ∧ before.status = .running ∧ t'.job? e.job.id = some after := by
    intro before after hrewrote
    have hbefore := hrewrote.before.symm.trans hrow
    exact ⟨Option.some.inj hbefore, ownedRunning_status hrewrote.owned, hrewrote.after⟩
  cases h with
  | started now before _ phase rewrote =>
      obtain ⟨rfl, hrunning, hafter⟩ := hsame rewrote
      exact .inr ⟨.start, _, hafter, effect_start hrunning (hunstarted (.inr phase)), by simp [phase],
        by rw [phase]; rfl⟩
  | touched _ _ untransitioned => simp [hsent] at untransitioned
  | completed now before _ phase rewrote =>
      obtain ⟨rfl, hrunning, hafter⟩ := hsame rewrote
      exact .inr ⟨.finish false, _, hafter, effect_finish hrunning (.inl rfl) (Int.add_zero _).symm rfl,
        by simp [phase], by rw [phase]; rfl⟩
  | retried now runAt retryAfter retryCount errorMessage lastError before _ phase rewrote =>
      obtain ⟨rfl, hrunning, hafter⟩ := hsame rewrote
      obtain ⟨hnew, hbudget⟩ := hretries _ _ _ phase
      refine .inr ⟨.retry, _, hafter, effect_retry hrunning rfl ?_ rfl ?_,
        by simp [phase], by rw [phase]; rfl⟩
      · dsimp only
        omega
      · omega
  | failed now increment reason errorMessage lastError before _ phase rewrote =>
      obtain ⟨rfl, hrunning, hafter⟩ := hsame rewrote
      refine .inr ⟨.finish increment, _, hafter,
        effect_finish hrunning (.inr rfl) rfl rfl, by simp [phase], ?_⟩
      rw [phase]
      cases increment <;> rfl
  | deadLettered now increment reason errorMessage lastError deadLetterId before _ phase _ _ gone =>
      exact .inl ⟨gone, by simp [phase]⟩
  | requeued now before _ phase rewrote =>
      obtain ⟨rfl, hrunning, hafter⟩ := hsame rewrote
      exact .inr ⟨.giveBack, _, hafter, effect_giveBack hrunning, by simp [phase], by rw [phase]; rfl⟩

/-- What a step makes of the job's row, and what it records. -/
def Moves (id : JobId) (i : Input π) (s : System π) (row : JobRow π) : Prop :=
  ((QueueWorker.step i s).1.tables.job? id = none ∧ marksStarted id i s = false) ∨
    ∃ move row', (QueueWorker.step i s).1.tables.job? id = some row' ∧ Effect move row row' ∧
      (marksStarted id i s ↔ move = .start) ∧ recordsFailure id i s = move.counted

theorem moves_execution (k : Nat) (event : Event π)
    (horderly : Orderly id s) (hinformed : Informed id s)
    (hrow : s.tables.job? id = some row) : Moves id (.execution k event) s row := by
  cases he : s.executions[k]? with
  | none =>
      refine .inr ⟨.keep, row, ?_, effect_keep rfl rfl rfl, ?_, ?_⟩
      · simpa [QueueWorker.step, he] using hrow
      · simp [marksStarted, he]
      · simp [recordsFailure, he, Move.counted]
  | some e =>
      have hstep : QueueWorker.step (.execution k event) s = ({ s with
          tables := (e.act s.tables event).2.1
          executions := s.executions.set k (e.act s.tables event).1 }, (e.act s.tables event).2.2) := by
        simp [QueueWorker.step, he]
      simp only [Moves, marksStarted, recordsFailure, he, hstep, Option.any_some]
      rcases act_outcome e s.tables event with ⟨hnot, hsame⟩ | ⟨happly, happlied⟩
      · refine .inr ⟨.keep, row, by rw [hsame, hrow], effect_keep rfl rfl rfl, ?_, ?_⟩
        · simp [hnot]
        · simp [hnot, Move.counted]
      · by_cases hid : e.job.id = id
        · subst hid
          obtain ⟨owned, howned, hrunning⟩ := applied_owned happlied
          obtain rfl := Option.some.inj (howned.symm.trans hrow)
          cases hsent : event.transition with
          | false =>
              obtain ⟨now, before, hrewrote⟩ := applied_touched happlied hsent
              obtain rfl := Option.some.inj (hrewrote.before.symm.trans howned)
              exact .inr ⟨.keep, _, hrewrote.after, effect_keep rfl rfl rfl, by simp, by simp [Move.counted]⟩
          | true =>
              have hmem := mem_of_getElem? he
              obtain ⟨hcount, hmax, hunstarted⟩ :=
                hinformed e hmem (applied_unfinished happlied hsent) rfl owned howned hrunning
              rcases applied_effect happlied hsent howned hcount hmax
                hunstarted (horderly.retries e hmem rfl) with
                ⟨hgone, hphase⟩ | ⟨move, row', hrow', heffect, hstart, hcounted⟩
              · exact .inl ⟨hgone, by simp [hphase]⟩
              · refine .inr ⟨move, row', hrow', heffect, ?_, ?_⟩
                · simp [happly, hstart]
                · simp [happly, hcounted]
        · refine .inr ⟨.keep, row, ?_, effect_keep rfl rfl rfl, ?_, ?_⟩
          · rw [applied_others happlied (Ne.symm hid), hrow]
          · simp [hid]
          · simp [hid, Move.counted]

theorem moves_statement {statement : Statement π} (hdriven : Driven id (.statement m statement) s)
    (hrow : s.tables.job? id = some row) : Moves id (.statement m statement) s row := by
  have hkept : (QueueWorker.step (.statement m statement) s).1.tables.job? id = some row →
      Moves id (.statement m statement) s row := by
    intro hsame
    refine .inr ⟨.keep, row, hsame, effect_keep rfl rfl rfl, by simp [marksStarted], ?_⟩
    rw [recordsFailure, hsame, hrow]
    simp [Move.counted]
  rcases hdriven.2 with hruntime | hsame
  · have hclaim : isClaim statement = false := by
      cases statement with
      | claimAvailableJobs => cases hruntime
      | _ => rfl
    cases hrun : run m statement s.tables with
    | error error =>
        refine hkept ?_
        simpa [QueueWorker.step, hclaim, hrun] using hrow
    | ok t' =>
        have hstep : (QueueWorker.step (.statement m statement) s).1.tables = t' := by
          simp [QueueWorker.step, hclaim, hrun]
        rcases run_maintains hruntime hrun hrow with hsame | hgone |
          ⟨hrunning, move, row', hrow', hstopped, heffect, hmove, hcounted⟩
        · exact hkept (hstep ▸ hsame)
        · exact .inl ⟨hstep ▸ hgone, rfl⟩
        · refine .inr ⟨move, row', hstep ▸ hrow', heffect, by simp [marksStarted, hmove], ?_⟩
          rw [recordsFailure, hstep, hrow', hrow, hcounted]
          simp [hrunning, hstopped]
  · exact hkept (hsame.trans hrow)

/-- A job that is running after a statement was running before it, with the same row. -/
theorem statement_running {statement : Statement π} (hdriven : Driven id (.statement m statement) s)
    (hrow : s.tables.job? id = some row)
    (hrow' : (QueueWorker.step (.statement m statement) s).1.tables.job? id = some row')
    (hrunning : row'.status = .running) : row' = row := by
  rcases hdriven.2 with hruntime | hsame
  · dsimp only [QueueWorker.step] at hrow'
    split at hrow'
    · exact Option.some.inj (hrow'.symm.trans hrow)
    · split at hrow'
      · exact Option.some.inj (hrow'.symm.trans hrow)
      · rcases run_maintains hruntime ‹_› hrow with hkept | hgone |
          ⟨-, move, after, hafter, hstopped, -⟩
        · exact Option.some.inj (hrow'.symm.trans hkept)
        · rw [hgone] at hrow'
          cases hrow'
        · obtain rfl := Option.some.inj (hrow'.symm.trans hafter)
          exact absurd hrunning hstopped
  · rw [hsame, hrow] at hrow'
    exact (Option.some.inj hrow').symm

theorem moves_step (i : Input π) (hdriven : Driven id i s)
    (horderly : Orderly id s) (hinformed : Informed id s)
    (hrow : s.tables.job? id = some row) : Moves id i s row := by
  cases i with
  | execution k event => exact moves_execution k event horderly hinformed hrow
  | statement m statement => exact moves_statement hdriven hrow
  | claim m taskNames claimLimit workerId deadLetterEnabled acknowledged =>
      cases hclaim : claimAvailableJobs m taskNames claimLimit workerId s.tables with
      | error error =>
          refine .inr ⟨.keep, row, ?_, effect_keep rfl rfl rfl, by simp [marksStarted], rfl⟩
          simpa [QueueWorker.step, hclaim] using hrow
      | ok reply =>
          have hstep : (QueueWorker.step
            (.claim m taskNames claimLimit workerId deadLetterEnabled acknowledged)
              s).1.tables = reply.2 := by
            simp [QueueWorker.step, hclaim]
          rcases claim_row hclaim hrow with hkept | ⟨hpending, -, htaken⟩
          · exact .inr ⟨.keep, row, hstep ▸ hkept, effect_keep rfl rfl rfl, by simp [marksStarted], rfl⟩
          · refine .inr ⟨.claim, _, hstep ▸ htaken, ?_, by simp [marksStarted], rfl⟩
            exact effect_claim (Tables.job?_eq_some.1 hrow).1 hpending

theorem runtimeStatement_kind {statement : Statement π} (h : runtimeStatement statement) :
    (∀ payloads, statement.kind ≠ .enqueues payloads) ∧ statement.kind ≠ .requeues := by
  cases statement <;> simp_all [runtimeStatement, Statement.kind]

/-- A job without a row does not get one, and is not started. -/
theorem gone_step (i : Input π) (hdriven : Driven id i s) (hnone : s.tables.job? id = none) :
    (QueueWorker.step i s).1.tables.job? id = none ∧ marksStarted id i s = false := by
  cases i with
  | claim m taskNames claimLimit workerId deadLetterEnabled acknowledged =>
      refine ⟨?_, rfl⟩
      dsimp only [QueueWorker.step]
      split
      · exact hnone
      · rename_i jobs tables hclaim
        have hchange := (run_sound (.claimAvailableJobs taskNames claimLimit workerId)).change tables
          (by rw [run, hclaim]; rfl)
        exact job?_none_of_change hchange (by rintro _ ⟨⟩) (by rintro ⟨⟩) hnone
  | execution k event =>
      cases he : s.executions[k]? with
      | none => simpa [QueueWorker.step, marksStarted, he] using hnone
      | some e =>
          have hstep : QueueWorker.step (.execution k event) s = ({ s with
              tables := (e.act s.tables event).2.1
              executions := s.executions.set k (e.act s.tables event).1 },
                (e.act s.tables event).2.2) := by
            simp [QueueWorker.step, he]
          simp only [marksStarted, he, hstep, Option.any_some]
          rcases act_outcome e s.tables event with ⟨hnot, hsame⟩ | ⟨-, happlied⟩
          · exact ⟨by rw [hsame, hnone], by simp [hnot]⟩
          · have hid : id ≠ e.job.id := by
              rintro rfl
              obtain ⟨row, hrow, -⟩ := applied_owned happlied
              rw [hnone] at hrow
              cases hrow
            exact ⟨by rw [applied_others happlied hid, hnone], by simp [Ne.symm hid]⟩
  | statement m statement =>
      refine ⟨?_, rfl⟩
      rcases hdriven.2 with hruntime | hsame
      · dsimp only [QueueWorker.step]
        split
        · exact hnone
        · split
          · exact hnone
          · have hchange := (run_sound statement).change _ ‹_›
            obtain ⟨henqueue, hrequeue⟩ := runtimeStatement_kind hruntime
            exact job?_none_of_change hchange henqueue hrequeue hnone
      · exact hsame.trans hnone

theorem informed_claim {taskNames : List TaskName} {claimLimit : Nat} {workerId : WorkerOwnerId}
    {deadLetterEnabled acknowledged : Bool}
    (hguard : ClaimedSeparately id
      (.claim m taskNames claimLimit workerId deadLetterEnabled acknowledged) s)
    (h : Informed id s) : Informed id
      (QueueWorker.step (.claim m taskNames claimLimit workerId deadLetterEnabled acknowledged)
        s).1 := by
  dsimp only [QueueWorker.step]
  split
  · exact h
  rename_i jobs tables hclaim
  intro e he hunfinished hid row' hrow' howned
  obtain ⟨k, hk⟩ := mem_iff_getElem?.1 he
  rcases claimed_execution hclaim hk with hold | ⟨-, -, -, -, hrow, hstarted⟩
  · obtain ⟨hmem, hrowId⟩ := Tables.job?_eq_some.1 hrow'
    rcases claimed_rows hclaim hmem with ⟨htaken, row, -, -, rfl⟩ | ⟨hbefore, -⟩
    · have hnot := hguard e (mem_of_getElem? hold) hid hunfinished
      simp only [retakes, hclaim, Bool.and_eq_false_iff, decide_eq_false_iff_not] at hnot
      simp only [ownedRunning, Bool.and_eq_true,
        decide_eq_true_eq, claimedBy, Option.some.injEq] at howned
      refine absurd ?_ (hnot.resolve_left (not_not_intro howned.2.symm))
      rw [hid, ← hrowId]
      exact mem_map_of_mem htaken
    · exact h e (mem_of_getElem? hold) hunfinished hid row'
        (Tables.job?_eq_some.2 ⟨hbefore, hrowId⟩) howned
  · rw [hid] at hrow
    obtain rfl := Option.some.inj (hrow.symm.trans hrow')
    exact ⟨rfl, rfl, fun _ => hstarted⟩

/-- A row that is still running after an applied transition has its owner and its
count. -/
theorem applied_running {e : Execution π} {event : Event π} (h : Applied e event t t')
    (hrow' : t'.job? e.job.id = some row')
    (hrunning : row'.status = .running) : ∃ row, t.job? e.job.id = some row ∧
      ownedRunning e.job.id e.workerId row ∧ row'.workerId = row.workerId ∧
      row'.retryCount = row.retryCount ∧ row'.maxRetries = row.maxRetries := by
  cases h with
  | started _ row _ _ hrewrote | touched _ row _ _ hrewrote =>
      obtain rfl := Option.some.inj (hrewrote.after.symm.trans hrow')
      exact ⟨row, hrewrote.before, hrewrote.owned, rfl, rfl, rfl⟩
  | deadLettered _ _ _ _ _ _ _ _ _ _ _ hgone =>
      rw [hgone] at hrow'
      cases hrow'
  | completed _ _ _ _ hrewrote | retried _ _ _ _ _ _ _ _ _ hrewrote | failed _ _ _ _ _ _ _ _ hrewrote
  | requeued _ _ _ _ hrewrote =>
      obtain rfl := Option.some.inj (hrewrote.after.symm.trans hrow')
      cases hrunning

/-- A heartbeat leaves the owner, the start and the counts of the row as they were. -/
theorem applied_heartbeat {e : Execution π} {event : Event π} {workerId : WorkerOwnerId}
    (h : Applied e event t t') (hsent : event.transition = false)
    (hrow' : t'.job? e.job.id = some row') (howned : ownedRunning e.job.id workerId row') :
    ∃ row, t.job? e.job.id = some row ∧ ownedRunning e.job.id workerId row ∧
      row'.executionStartedAt = row.executionStartedAt ∧
      row'.retryCount = row.retryCount ∧ row'.maxRetries = row.maxRetries := by
  obtain ⟨now, row, hrewrote⟩ := applied_touched h hsent
  obtain rfl := Option.some.inj (hrewrote.after.symm.trans hrow')
  exact ⟨row, hrewrote.before, howned, rfl, rfl, rfl⟩

theorem informed_execution (k : Nat) (event : Event π) (horderly : Orderly id s) (h : Informed id s) :
    Informed id (QueueWorker.step (.execution k event) s).1 := by
  dsimp only [QueueWorker.step]
  split
  · exact h
  rename_i e he
  obtain ⟨-, hworker, hjob, hunfinished⟩ := act_keeps (t := s.tables) e event
  have hmem := mem_of_getElem? he
  have hbefore : Unfinished e → e.job.id = id → ∀ row', (e.act s.tables event).2.1.job? id = some row' →
      ownedRunning id e.workerId row' →
      row'.retryCount = e.job.retryCount ∧ row'.maxRetries = e.job.maxRetries := by
    rintro hopen rfl row' hrow' howned
    rcases act_outcome e s.tables event with ⟨-, hsame⟩ | ⟨-, happlied⟩
    · rw [hsame] at hrow'
      obtain ⟨hcount, hmax, -⟩ := h e hmem hopen rfl row' hrow' howned
      exact ⟨hcount, hmax⟩
    · obtain ⟨row, hrow, hrowOwned, -, hcount, hmax⟩ :=
        applied_running happlied hrow' (ownedRunning_status howned)
      obtain ⟨hcount', hmax', -⟩ := h e hmem hopen rfl row hrow hrowOwned
      exact ⟨hcount.trans hcount', hmax.trans hmax'⟩
  intro e' he' hopen hid row' hrow' howned
  obtain ⟨j, hj⟩ := mem_iff_getElem?.1 he'
  rcases getElem?_set_cases he hj with ⟨-, rfl⟩ | ⟨hne, hother⟩
  · rw [hjob] at hid ⊢
    rw [hworker] at howned
    obtain ⟨hcount, hmax⟩ := hbefore (hunfinished hopen) hid row' hrow' howned
    refine ⟨hcount, hmax, fun hunstarted => ?_⟩
    obtain ⟨hwas, hnot⟩ := act_unstarted hunstarted
    rcases act_outcome e s.tables event with ⟨-, hsame⟩ | ⟨happly, happlied⟩
    · rw [hsame] at hrow'
      exact (h e hmem (hunfinished hopen) hid row' hrow' howned).2.2 hwas
    · subst hid
      have hsent : event.transition = false := Bool.eq_false_iff.2 fun hsent => hnot hsent happly
      obtain ⟨row, hrow, hrowOwned, hstarted, -⟩ := applied_heartbeat happlied hsent hrow' howned
      exact hstarted.trans ((h e hmem (hunfinished hopen) rfl row hrow hrowOwned).2.2 hwas)
  · rcases act_outcome e s.tables event with ⟨-, hsame⟩ | ⟨-, happlied⟩
    · rw [hsame] at hrow'
      exact h e' (mem_of_getElem? hother) hopen hid row' hrow' howned
    · by_cases hsame : e.job.id = id
      · subst hsame
        cases hsent : event.transition with
        | false =>
            obtain ⟨row, hrow, hrowOwned, hstarted, hcount, hmax⟩ :=
              applied_heartbeat happlied hsent hrow' howned
            rw [hstarted, hcount, hmax]
            exact h e' (mem_of_getElem? hother) hopen hid row hrow hrowOwned
        | true =>
            -- the row is owned by the run of both executions, which works on it only once
            obtain ⟨row, hrow, hrowOwned, howner, -⟩ :=
              applied_running happlied hrow' (ownedRunning_status howned)
            simp only [ownedRunning, Bool.and_eq_true, decide_eq_true_eq] at hrowOwned howned
            have hworkers : e'.workerId = e.workerId :=
              Option.some.inj (howned.2.symm.trans (howner.trans hrowOwned.2))
            exact absurd (horderly.separate j k e' e hother he hopen
              (applied_unfinished happlied hsent) hid rfl hworkers) hne
      · rw [applied_others happlied (Ne.symm hsame)] at hrow'
        exact h e' (mem_of_getElem? hother) hopen hid row' hrow' howned

theorem informed_step (i : Input π) (hdriven : Driven id i s)
    (horderly : Orderly id s) (h : Informed id s) :
    Informed id (QueueWorker.step i s).1 := by
  cases i with
  | claim => exact informed_claim hdriven.1 h
  | execution k event => exact informed_execution k event horderly h
  | statement m statement =>
      have hsame : (QueueWorker.step (.statement m statement) s).1.executions = s.executions := by
        dsimp only [QueueWorker.step]
        split
        · rfl
        · split <;> rfl
      intro e he hunfinished hid row' hrow' howned
      rw [hsame] at he
      cases hrow : s.tables.job? id with
      | none =>
          rw [(gone_step _ hdriven hrow).1] at hrow'
          cases hrow'
      | some row =>
          obtain rfl := statement_running hdriven hrow hrow' (ownedRunning_status howned)
          exact h e he hunfinished hid row' hrow howned

end Steps

section DeadLetters

variable {m : Moment π} {t' : Tables π} {id : JobId} {row : JobRow π} {s : System π}
  {deadLetter : DeadLetterRow π}

/-- The dead letter of a job has the job's count, raised by one where the move counts
a failure. -/
theorem deadLetter_execution (k : Nat) (event : Event π) (hrow : s.tables.job? id = some row)
    (hmem : deadLetter ∈ (QueueWorker.step (.execution k event) s).1.tables.deadLetters)
    (hnew : deadLetter ∉ s.tables.deadLetters) (hid : deadLetter.originalJobId = id) :
    deadLetter.retryCount =
      row.retryCount + if recordsFailure id (.execution k event) s then 1 else 0 := by
  cases he : s.executions[k]? with
  | none =>
      simp only [QueueWorker.step, he] at hmem
      exact absurd hmem hnew
  | some e =>
      have hstep : QueueWorker.step (.execution k event) s = ({ s with
          tables := (e.act s.tables event).2.1
          executions := s.executions.set k (e.act s.tables event).1 }, (e.act s.tables event).2.2) := by
        simp [QueueWorker.step, he]
      simp only [hstep] at hmem
      simp only [recordsFailure, he, hstep, Option.any_some]
      rcases act_outcome e s.tables event with ⟨-, hsame⟩ | ⟨happly, happlied⟩
      · rw [hsame] at hmem
        exact absurd hmem hnew
      · cases happlied with
        | deadLettered now increment reason errorMessage lastError deadLetterId before hsent phase hbefore _ _ _ moved =>
            rw [moved] at hmem
            obtain rfl := mem_singleton.1 ((mem_append.1 hmem).resolve_left hnew)
            obtain ⟨-, hbeforeId⟩ := Tables.job?_eq_some.1 hbefore
            have hjob : e.job.id = id := hbeforeId.symm.trans hid
            rw [hjob] at hbefore
            obtain rfl := Option.some.inj (hbefore.symm.trans hrow)
            simp [deadLetterOf, hjob, hsent, phase, countsFailure, happly]
        | started _ _ _ _ h | touched _ _ _ _ h | completed _ _ _ _ h | retried _ _ _ _ _ _ _ _ _ h
        | failed _ _ _ _ _ _ _ _ h | requeued _ _ _ _ h => exact absurd (h.deadLetters ▸ hmem) hnew

theorem deadLetter_statement {statement : Statement π} (hdriven : Driven id (.statement m statement) s)
    (hrow : s.tables.job? id = some row)
    (hmem : deadLetter ∈ (QueueWorker.step (.statement m statement) s).1.tables.deadLetters)
    (hnew : deadLetter ∉ s.tables.deadLetters) (hid : deadLetter.originalJobId = id) :
    deadLetter.retryCount = row.retryCount +
      if recordsFailure id (.statement m statement) s then 1 else 0 := by
  have hkept := hdriven.2
  dsimp only [QueueWorker.step] at hkept hmem
  split at hmem
  · exact absurd hmem hnew
  rename_i hclaim
  split at hmem
  · exact absurd hmem hnew
  rename_i t' hrun
  have hchange := (run_sound statement).change t' hrun
  simp only [if_neg hclaim, hrun] at hkept
  obtain ⟨job, hjob, hreplaces, hgone⟩ := (deadLetters_of_change hchange hmem).resolve_left hnew
  have hjobRow : s.tables.job? id = some job :=
    Tables.job?_eq_some.2 ⟨hjob, hreplaces.originalJobId.symm.trans hid⟩
  obtain rfl := Option.some.inj (hjobRow.symm.trans hrow)
  rcases hkept with hruntime | hsame
  · cases statement with
    | moveFailedJobsToDeadLetterBatch idMap reason =>
        simp only [run, moveFailedJobsToDeadLetterBatch, Postgres.pure_eq_ok, map_snd_bind, map_snd_ok,
          bind_ok_self] at hrun
        rw [(replaceRows_eq_ok hrun).2.1, filter_eq_self.2 (by simp)] at hmem
        obtain ⟨moved, hmoved, rfl⟩ := mem_map.1 ((mem_append.1 hmem).resolve_left hnew)
        obtain ⟨hmovedMem, -, -⟩ := mem_lockJobs hmoved
        obtain rfl : moved = job :=
          inj_on_of_nodup_map (s.tables.constraints .primaryKey) hmovedMem hjob
          hreplaces.originalJobId
        simp [failedDeadLetter, deadLetterOf, recordsFailure, expires]
    | cleanupJobsOlderThanOnce => exact absurd (hchange.2.mem hmem) hnew
    | returnAvailableOwnedUnstartedRunningJobsToPending | returnAvailableOwnedStartedRunningJobsToPending
    | reclaimNeverStartedRunningJobs | reclaimExpiredRunningJobsToFailed
    | reclaimExpiredRunningJobsToPendingForRetry => exact absurd (hchange.2.2 ▸ hmem) hnew
    | _ => cases hruntime
  · exact absurd (Tables.job?_eq_some.1 (hsame.trans hrow)).1 hgone

theorem deadLetter_step (i : Input π) (hdriven : Driven id i s) (hrow : s.tables.job? id = some row)
    (hmem : deadLetter ∈ (QueueWorker.step i s).1.tables.deadLetters)
    (hnew : deadLetter ∉ s.tables.deadLetters) (hid : deadLetter.originalJobId = id) :
    deadLetter.retryCount = row.retryCount + if recordsFailure id i s then 1 else 0 := by
  cases i with
  | execution k event => exact deadLetter_execution k event hrow hmem hnew hid
  | statement m statement => exact deadLetter_statement hdriven hrow hmem hnew hid
  | claim =>
      dsimp only [QueueWorker.step] at hmem
      split at hmem
      · exact absurd hmem hnew
      · obtain ⟨-, -, hdead, -⟩ := claimAvailableJobs_eq_ok ‹_›
        exact absurd (hdead ▸ hmem) hnew

end DeadLetters

section Runs

variable {id : JobId} {r : Int} {p : Run π} {a : Account}

/-- The job of the run is at the place of the account, with its counts. -/
structure Matches (id : JobId) (r : Int) (p : Run π) (a : Account) : Prop where
  starts : a.starts = p.starts
  returns : a.returns = p.returns
  gone : p.system.tables.job? id = none → a.place = .ended
  row : ∀ row, p.system.tables.job? id = some row →
    a.place = rowPlace row ∧ a.count = row.retryCount ∧ row.maxRetries = r

/-- Each step of the run makes a move of the account. -/
theorem matches_step (i : Input π) (hdriven : Driven id i p.system) (horderly : Orderly id p.system)
    (hinformed : Informed id p.system) (h : Matches id r p a) :
    ∃ move a', a.after r move = some a' ∧ Matches id r (Run.step id i p).1 a' := by
  cases hrow : p.system.tables.job? id with
  | none =>
      obtain ⟨hnone, hstarts⟩ := gone_step i hdriven hrow
      refine ⟨.remove, { a with place := .ended },
        by simp [Account.after, Move.target, Move.counted], ?_⟩
      refine ⟨?_, ?_, fun _ => rfl, fun row hrow' => ?_⟩
      · simp [Run.step, hstarts, h.starts]
      · simp [Run.step, givesBack, hrow, h.returns]
      · cases hnone.symm.trans hrow'
  | some row =>
      obtain ⟨hplace, hcount, hmax⟩ := h.row row hrow
      rcases moves_step i hdriven horderly hinformed hrow with ⟨hnone, hstarts⟩ |
        ⟨move, row', hrow', heffect, hstart, -⟩
      · refine ⟨.remove, { a with place := .ended },
          by simp [Account.after, Move.target, Move.counted], ?_⟩
        refine ⟨?_, ?_, fun _ => rfl, fun row hrow' => ?_⟩
        · simp [Run.step, hstarts, h.starts]
        · simp [Run.step, givesBack, hnone, h.returns]
        · cases hnone.symm.trans hrow'
      · have hopen : ¬(move = .retry ∧ r ≤ a.count) := by
          rintro ⟨hretry, hspent⟩
          have := heffect.budget hretry
          omega
        refine ⟨move, _, after_of_target hopen (hplace ▸ heffect.target), ?_⟩
        refine ⟨?_, ?_, fun hnone => ?_, fun after hafter => ?_⟩
        · simp [Run.step, h.starts, hstart]
        · have hreturned := returned_iff heffect
          simp [Run.step, givesBack, hrow, hrow', h.returns, hreturned]
        · cases hnone.symm.trans hrow'
        · obtain rfl := Option.some.inj (hafter.symm.trans hrow')
          exact ⟨rfl, by rw [heffect.retryCount, hcount], heffect.maxRetries.trans hmax⟩

structure WithinBudget (id : JobId) (r : Int) (p : Run π) : Prop where
  retryCount_le : ∀ row, p.system.tables.job? id = some row → row.status.active → row.retryCount ≤ r
  starts_le : (p.starts : Int) ≤ r + 1 + p.returns

theorem withinBudget (h : Matches id r p a) (hwithin : Within r a) : WithinBudget id r p := by
  constructor
  · intro row hrow hactive
    obtain ⟨hplace, hcount, -⟩ := h.row row hrow
    rw [← hcount]
    refine hwithin.count_le ?_
    rw [hplace]
    cases hstatus : row.status with
    | pending => simp [rowPlace_pending hstatus]
    | running => exact taken_ne_ended (rowPlace_taken.2 hstatus)
    | completed | failed => simp [hstatus, JobStatus.active] at hactive
  · rw [← h.starts, ← h.returns]
    exact hwithin.starts_le

/-- What the step makes of the stored count: one more where it records a failure that
counts, and nothing else. -/
structure CountedStep (id : JobId) (i : Input π) (s : System π) : Prop where
  row : ∀ row row', s.tables.job? id = some row → (QueueWorker.step i s).1.tables.job? id = some row' →
    row'.retryCount = row.retryCount + if recordsFailure id i s then 1 else 0
  deadLetter : ∀ row, s.tables.job? id = some row →
    ∀ deadLetter ∈ (QueueWorker.step i s).1.tables.deadLetters, deadLetter ∉ s.tables.deadLetters →
      deadLetter.originalJobId = id →
        deadLetter.retryCount = row.retryCount + if recordsFailure id i s then 1 else 0

theorem countedStep {s : System π} (i : Input π) (hdriven : Driven id i s) (horderly : Orderly id s)
    (hinformed : Informed id s) : CountedStep id i s := by
  constructor
  · intro row row' hrow hrow'
    rcases moves_step i hdriven horderly hinformed hrow with ⟨hnone, -⟩ |
      ⟨move, after, hafter, heffect, -, hcounted⟩
    · cases hnone.symm.trans hrow'
    · obtain rfl := Option.some.inj (hafter.symm.trans hrow')
      rw [heffect.retryCount, hcounted]
  · exact fun row hrow deadLetter => deadLetter_step i hdriven hrow

/-- What every state of a driven run satisfies. -/
structure Budgeted (id : JobId) (r : Int) (p : Run π) : Prop where
  orderly : Orderly id p.system
  informed : Informed id p.system
  account : ∃ a, Matches id r p a ∧ Within r a

theorem budgeted_start {s : System π} (h : JustEnqueued id r s) :
    Budgeted id r (⟨s, 0, 0⟩ : Run π) := by
  obtain ⟨row, hrow, hpending, hcount, hmax⟩ := h.row
  have hr : 0 ≤ r := by
    rw [← hmax]
    exact (s.tables.constraints .numericDomains row (Tables.job?_eq_some.1 hrow).1).2.1
  refine ⟨⟨fun e he hid => absurd hid (h.unclaimed e he), fun e he hid => absurd hid (h.unclaimed e he),
    fun j k e e' hj _ _ _ hid => absurd hid (h.unclaimed e (mem_of_getElem? hj))⟩,
    fun e he _ hid => absurd hid (h.unclaimed e he), fresh,
      ⟨rfl, rfl, fun hnone => ?_, fun row' hrow' => ?_⟩,
    within_fresh hr⟩
  · cases hnone.symm.trans hrow
  · obtain rfl := Option.some.inj (hrow'.symm.trans hrow)
    exact ⟨(rowPlace_pending hpending).symm, hcount.symm, hmax⟩

theorem budgeted_step (i : Input π) (p : Run π) (hdriven : Driven id i p.system) (h : Budgeted id r p) :
    Budgeted id r (Run.step id i p).1 := by
  obtain ⟨horderly, hinformed, a, hmatches, hwithin⟩ := h
  obtain ⟨move, a', hmove, hmatches'⟩ := matches_step i hdriven horderly hinformed hmatches
  exact ⟨orderly_step i hdriven.1 horderly, informed_step i hdriven horderly hinformed, a', hmatches',
    within_after hmove hwithin⟩

end Runs

/-- The end of a handler's run with an error counts as a failure unless the error is
permanent, as a panic is. -/
def FailuresCounted (π : Type) : Prop :=
  ∀ (job : JobRow π) (error : TaskError) (retryAfter : Option Int) (finalization : Finalization),
    handleProcessedQueueJobError job error retryAfter = .finalizing finalization →
      countsFailure (.finalizing finalization) = !error.permanent

theorem failuresCounted : FailuresCounted π := by
  intro job error retryAfter finalization h
  dsimp only [handleProcessedQueueJobError] at h
  split at h
  · obtain rfl := Phase.finalizing.inj h
    rfl
  · rename_i hopen
    simp only [Bool.or_eq_true, not_or, Bool.not_eq_true] at hopen
    split at h
    · cases h
    · obtain rfl := Phase.finalizing.inj h
      rw [hopen.1]
      rfl

theorem singleEnqueue_row {id : JobId} {m : Moment π} {taskName : TaskName} {options : PreparedOptions}
    {payload : π} {t t' : Tables π} {row : JobRow π}
    (h : run m (.singleEnqueue taskName options id payload) t = .ok t') (hnone : t.job? id = none)
    (hrow : t'.job? id = some row) :
    ∃ runAt, row = enqueuedJob m.now runAt taskName options none id payload := by
  obtain ⟨hmem, hid⟩ := Tables.job?_eq_some.1 hrow
  have hunchanged : t' ≠ t := by
    rintro rfl
    cases hnone.symm.trans hrow
  simp only [run, singleEnqueue, batchEnqueue, reduceCtorEq, if_false, Postgres.pure_eq_ok] at h
  split at h
  · exact absurd (Except.ok.inj h).symm hunchanged
  split at h
  · exact absurd (Except.ok.inj h).symm hunchanged
  simp only [map_snd_bind, map_snd_ok, bind_ok_self] at h
  obtain ⟨runAt, -, h⟩ := Postgres.bind_eq_ok.1 h
  rw [(replaceRows_eq_ok h).1] at hmem
  rcases mem_append.1 hmem with hold | hnew
  · exact absurd hid (Tables.job?_eq_none.1 hnone row (mem_filter.1 hold).1)
  · exact ⟨runAt, by simpa using hnew⟩

/-- A job is just enqueued after a single enqueue under a new id. -/
theorem justEnqueued_singleEnqueue {id : JobId} {m : Moment π}
    {taskName : TaskName} {options : PreparedOptions}
    {payload : π} {s : System π} (hnone : s.tables.job? id = none)
    (hunclaimed : ∀ e ∈ s.executions, e.job.id ≠ id)
    {row : JobRow π} (hrow : (QueueWorker.step
      (.statement m (.singleEnqueue taskName options id payload))
      s).1.tables.job? id = some row) :
    JustEnqueued id options.maxRetries
      (QueueWorker.step (.statement m (.singleEnqueue taskName options id payload)) s).1 := by
  have hclaim : isClaim (.singleEnqueue taskName options id payload : Statement π) = false := rfl
  simp only [QueueWorker.step, hclaim, Bool.false_eq_true, if_false] at hrow ⊢
  split at hrow
  · cases hnone.symm.trans hrow
  · rename_i hrun
    obtain ⟨runAt, rfl⟩ := singleEnqueue_row hrun hnone hrow
    exact ⟨⟨_, hrow, rfl, rfl, rfl⟩, hunclaimed⟩

/-- However the worker runs and the reclaim drive a job with `r` retries, it is marked
started at most `r + 1` times beside its returns, its count stays within `r` while it
is pending or running, and a step raises the count by one where it records a failure
that counts and leaves it as it is otherwise. -/
theorem queue_retry_budget (id : JobId) (r : Int) (s₀ : System π) (hs₀ : JustEnqueued id r s₀)
    (inputs : List (Input π))
    (hdriven : Meets (fun i p => Driven id i p.system) (Run.step id) inputs ⟨s₀, 0, 0⟩) :
    let p := exec (Run.step id) inputs ⟨s₀, 0, 0⟩
    WithinBudget id r p ∧ (∀ i, Driven id i p.system → CountedStep id i p.system) ∧
      FailuresCounted π := by
  have hbudgeted : Budgeted id r (exec (Run.step id) inputs ⟨s₀, 0, 0⟩) :=
    exec_preserves budgeted_step hdriven (budgeted_start hs₀)
  obtain ⟨a, hmatches, hwithin⟩ := hbudgeted.account
  exact ⟨withinBudget hmatches hwithin,
    fun i hi => countedStep i hi hbudgeted.orderly hbudgeted.informed, failuresCounted⟩

section Example

def enqueued : System Unit :=
  exec QueueWorker.step (plain [(0, enqueueReport)] System.empty) System.empty

/-- A handler fails for good, and its run keeps no dead letters. -/
def failedForGood : List (Input Unit) :=
  plain [(10, fun m => .claim m [report] 1 worker false true),
    (20, fun _ => .execution 0 (.begin true)),
    (30, fun m => .execution 0 (.statement m 0 true)),
    (40, fun _ => .execution 0 (.handlerDone (.returned (.error ⟨"no such report", true⟩)) none))]
      enqueued

def recordFailure : Input Unit :=
  .execution 0 (.statement ⟨50, (exec QueueWorker.step failedForGood enqueued).tables, fun _ => false,
    fun _ => false⟩ 0 true)

theorem queue_retry_budget_report :
    let p := exec (Run.step 1) failedForGood ⟨enqueued, 0, 0⟩
    WithinBudget 1 5 p ∧ (∀ i, Driven 1 i p.system → CountedStep 1 i p.system) ∧ FailuresCounted Unit :=
  queue_retry_budget 1 5 enqueued ⟨⟨_, rfl, rfl, rfl, rfl⟩, by decide⟩ failedForGood (by decide)

/-- The failure of the handler is recorded, and the count stays at zero. -/
theorem permanent_failure_uncounted :
    let s := exec QueueWorker.step failedForGood enqueued
    (QueueWorker.step recordFailure s).2 = some .applied ∧
      s.tables.jobs.map (fun row => (row.status, row.retryCount)) = [(.running, 0)] ∧
      (QueueWorker.step recordFailure s).1.tables.jobs.map
        (fun row => (row.status, row.retryCount, row.lastError)) =
        [(.failed, 0, some "no such report")] := by
  decide

end Example

end Paranoid.QueueBudget
