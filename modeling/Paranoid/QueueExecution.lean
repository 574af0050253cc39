import Paranoid.QueueRows
import Paranoid.QueueWorker

namespace Paranoid.QueueExecution

open List QueueModel QueueStatements QueueChanges
open QueueRows QueueWorker

variable {π : Type} {m : Moment π} {event : Event π} {t t' : Tables π}

/-- What the running row of an execution becomes when one of its transitions is applied, or
a heartbeat of its context. -/
inductive Applied (e : Execution π) (event : Event π) (t t' : Tables π) : Prop
  | started (now : Int) (row : JobRow π) (sent : event.transition = true) (phase : e.phase = .starting)
      (rewrote : Rewrote t t' e.job.id e.workerId row { row with
        executionStartedAt := some now, executionHeartbeatAt := some now, updatedAt := now })
  | touched (now : Int) (row : JobRow π) (sent : event.transition = false) (held : e.contextHeld = true)
      (rewrote : Rewrote t t' e.job.id e.workerId row { row with
        executionHeartbeatAt := some now, updatedAt := now })
  | completed (now : Int) (row : JobRow π) (sent : event.transition = true) (phase : e.phase = .finalizing .complete)
      (rewrote : Rewrote t t' e.job.id e.workerId row
        { clearWorkerRuntime (some now) row with status := .completed, updatedAt := now })
  | retried (now runAtOrAfter retryAfter : Int) (retryCount : Nat) (errorMessage lastError : String)
      (row : JobRow π) (sent : event.transition = true) (phase : e.phase =
        .finalizing (.scheduleRetry retryCount retryAfter errorMessage))
      (rewrote : Rewrote t t' e.job.id e.workerId row
        { clearWorkerRuntime none row with
          status := .pending, retryCount, runAtOrAfter, lastError := some lastError, updatedAt := now })
  | failed (now : Int) (increment : Bool) (reason : DeadLetterReason) (errorMessage lastError : String)
      (row : JobRow π) (sent : event.transition = true) (phase : e.phase =
        .finalizing (.moveToDeadLetterOrFail errorMessage increment reason))
      (rewrote : Rewrote t t' e.job.id e.workerId row
        { clearWorkerRuntime (some now) row with
          status := .failed, lastError := some lastError,
          retryCount := row.retryCount + if increment then 1 else 0, updatedAt := now })
  | deadLettered (now : Int) (increment : Bool) (reason : DeadLetterReason) (errorMessage lastError : String)
      (deadLetterId : JobId) (row : JobRow π) (sent : event.transition = true)
      (phase : e.phase = .finalizing (.moveToDeadLetterOrFail errorMessage increment reason))
      (before : t.job? e.job.id = some row) (owned : ownedRunning e.job.id e.workerId row)
      (gone : t'.job? e.job.id = none) (others : ∀ other ≠ e.job.id, t'.job? other = t.job? other)
      (moved : t'.deadLetters = t.deadLetters ++ [deadLetterOf now deadLetterId lastError
        (row.retryCount + if increment then 1 else 0) reason row])
  | requeued (now : Int) (row : JobRow π) (sent : event.transition = true) (phase : e.phase = .requeueing)
      (rewrote : Rewrote t t' e.job.id e.workerId row (returnToPending now row))

/-- A transition that is not applied changes nothing. -/
def Outcome (e : Execution π) (event : Event π) (t t' : Tables π) (outcome : Option TransitionOutcome) : Prop :=
  outcome ≠ some .applied ∧ t' = t ∨ outcome = some .applied ∧ Applied e event t t'

theorem outcome_unchanged (e : Execution π) (event : Event π) (t : Tables π) : Outcome e event t t none := .inl ⟨nofun, rfl⟩

theorem outcome_updated {e : Execution π} {set : JobRow π → Except StatementError (JobRow π)}
    {targetExtra visibleExtraMismatch : JobRow π → Bool} {outcome : TransitionOutcome}
    (h : ownedRunningJobUpdate m e.job.id e.workerId set targetExtra visibleExtraMismatch t =
      .ok (outcome, t'))
    (hid : ∀ row row', set row = .ok row' → row'.id = row.id)
    (happlied : ∀ row row',
      Rewrote t t' e.job.id e.workerId row row' → set row = .ok row' → Applied e event t t') :
    Outcome e event t t' (some outcome) := by
  rcases ownedRunningJobUpdate_eq_ok hid h with ⟨hnot, hsame⟩ | ⟨rfl, row, row', hrewrote, -, hset⟩
  · exact .inl ⟨fun heq => hnot (Option.some.inj heq), hsame⟩
  · exact .inr ⟨rfl, happlied row row' hrewrote hset⟩

theorem outcome_started {e : Execution π} {outcome : TransitionOutcome} (hsent : event.transition = true)
    (hphase : e.phase = .starting)
    (h : markJobStarted m e.job.id e.workerId t = .ok (outcome, t')) :
    Outcome e event t t' (some outcome) := by
  refine outcome_updated h (id_of_ok fun _ => rfl) fun row row' hrewrote hset => ?_
  obtain rfl := Except.ok.inj hset
  exact .started m.now row hsent hphase hrewrote

theorem outcome_touched {e : Execution π} {outcome : TransitionOutcome} (hsent : event.transition = false)
    (hheld : e.contextHeld = true)
    (h : touchExecutionHeartbeat m e.job.id e.workerId t = .ok (outcome, t')) :
    Outcome e event t t' (some outcome) := by
  refine outcome_updated h (id_of_ok fun _ => rfl) fun row row' hrewrote hset => ?_
  obtain rfl := Except.ok.inj hset
  exact .touched m.now row hsent hheld hrewrote

theorem outcome_requeued {e : Execution π}
    {outcome : TransitionOutcome} (hsent : event.transition = true) (hphase : e.phase = .requeueing)
    (h : returnOwnedStartedRunningJobToPending m e.job.id e.workerId t = .ok (outcome, t')) :
    Outcome e event t t' (some outcome) := by
  refine outcome_updated h (id_of_ok fun _ => rfl) fun row row' hrewrote hset => ?_
  obtain rfl := Except.ok.inj hset
  exact .requeued m.now row hsent hphase hrewrote

theorem outcome_finalized {e : Execution π} {deadLetterId : JobId} {finalization : Finalization}
    {outcome : TransitionOutcome} (hsent : event.transition = true)
    (hphase : e.phase = .finalizing finalization)
    (h : e.finalize m deadLetterId t finalization = .ok (outcome, t')) :
    Outcome e event t t' (some outcome) := by
  cases finalization with
  | complete =>
      refine outcome_updated h (id_of_ok fun _ => rfl) fun row row' hrewrote hset => ?_
      obtain rfl := Except.ok.inj hset
      exact .completed m.now row hsent hphase hrewrote
  | scheduleRetry newRetryCount retryAfter errorMessage =>
      obtain ⟨count, hcount, h⟩ := Postgres.bind_eq_ok.1 h
      obtain ⟨lastError, -, h⟩ := Postgres.bind_eq_ok.1 h
      refine outcome_updated h (id_of_bind fun _ _ => rfl) fun row row' hrewrote hset => ?_
      obtain ⟨runAt, -, hset⟩ := Postgres.bind_eq_ok.1 hset
      obtain rfl := Except.ok.inj hset
      obtain rfl : count = newRetryCount := sql_int4_eq_ok hcount
      exact .retried m.now runAt retryAfter newRetryCount errorMessage lastError row hsent hphase hrewrote
  | moveToDeadLetterOrFail errorMessage increment reason =>
      dsimp only [Execution.finalize] at h
      split at h
      · rcases moveOwnedRunningJobToDeadLetter_eq_ok h with ⟨hnot, hsame⟩ |
          ⟨rfl, hothers, hgone, row, retryCount, lastError, hrow, howned, hcount, hmoved⟩
        · exact .inl ⟨fun heq => hnot (Option.some.inj heq), hsame⟩
        · rw [incrementRetryCount_eq_ok hcount] at hmoved
          exact .inr ⟨rfl, .deadLettered m.now increment reason
            errorMessage lastError deadLetterId row hsent hphase
            hrow howned hgone hothers hmoved⟩
      · obtain ⟨lastError, -, h⟩ := Postgres.bind_eq_ok.1 h
        refine outcome_updated h (id_of_bind fun _ _ => rfl) fun row row' hrewrote hset => ?_
        obtain ⟨count, hcount, hset⟩ := Postgres.bind_eq_ok.1 hset
        obtain rfl := Except.ok.inj hset
        rw [incrementRetryCount_eq_ok hcount] at hrewrote
        exact .failed m.now increment reason errorMessage lastError row hsent hphase hrewrote

@[simp] theorem act_heartbeat (e : Execution π) (t : Tables π) (m : Moment π) :
    (e.act t (.heartbeat m)).1 = e := by
  dsimp only [Execution.act]
  split
  · split <;> rfl
  · rfl

/-- What an event of an execution does to the tables. -/
theorem act_outcome (e : Execution π) (t : Tables π) (event : Event π) :
    Outcome e event t (e.act t event).2.1 (e.act t event).2.2 := by
  cases event with
  | begin handlerRegistered =>
      dsimp only [Execution.act]
      split <;> exact outcome_unchanged e _ t
  | statement m deadLetterId acknowledged =>
      dsimp only [Execution.act]
      split
      · exact outcome_unchanged e _ t
      · exact outcome_unchanged e _ t
      · rename_i hissue
        dsimp only [Execution.issue] at hissue
        split at hissue
        · exact outcome_started rfl ‹_› (Option.some.inj hissue)
        · exact outcome_finalized rfl ‹_› (Option.some.inj hissue)
        · exact outcome_requeued rfl ‹_› (Option.some.inj hissue)
        all_goals cases hissue
  | heartbeat m =>
      dsimp only [Execution.act]
      split
      · split
        · exact outcome_unchanged e _ t
        · exact outcome_touched rfl ‹_› ‹_›
      · exact outcome_unchanged e _ t
  | handlerDone outcome retryAfter =>
      dsimp only [Execution.act]
      split
      · split <;> exact outcome_unchanged e _ t
      · exact outcome_unchanged e _ t
  | abort => exact outcome_unchanged e _ t
  | dropContext => exact outcome_unchanged e _ t

/-- Whatever is applied for an execution finds the job running under its owner. -/
theorem applied_owned {e : Execution π} (h : Applied e event t t') :
    ∃ row, t.job? e.job.id = some row ∧ ownedRunning e.job.id e.workerId row := by
  cases h with
  | deadLettered _ _ _ _ _ _ row _ _ hrow howned => exact ⟨row, hrow, howned⟩
  | started _ _ _ _ h | touched _ _ _ _ h | completed _ _ _ _ h | retried _ _ _ _ _ _ _ _ _ h
  | failed _ _ _ _ _ _ _ _ h | requeued _ _ _ _ h => exact ⟨_, h.before, h.owned⟩

theorem applied_others {e : Execution π} (h : Applied e event t t')
    {other : JobId} (hother : other ≠ e.job.id) :
    t'.job? other = t.job? other := by
  cases h with
  | deadLettered _ _ _ _ _ _ _ _ _ _ _ _ hothers => exact hothers other hother
  | started _ _ _ _ h | touched _ _ _ _ h | completed _ _ _ _ h | retried _ _ _ _ _ _ _ _ _ h
  | failed _ _ _ _ _ _ _ _ h | requeued _ _ _ _ h => exact h.others other hother

/-- Only a heartbeat may come from an execution that has finished. -/
theorem applied_unfinished {e : Execution π} (h : Applied e event t t')
    (hsent : event.transition = true) : e.phase ≠ .finished := by
  cases h <;> simp_all

theorem applied_alive {e : Execution π} (h : Applied e event t t') :
    e.phase ≠ .finished ∨ e.contextHeld = true := by
  cases h with
  | touched _ _ _ held => exact .inr held
  | started | completed | retried | failed | deadLettered | requeued => simp_all

theorem applied_touched {e : Execution π} (h : Applied e event t t')
    (hsent : event.transition = false) : ∃ now row, Rewrote t t' e.job.id e.workerId row
      { row with executionHeartbeatAt := some now, updatedAt := now } := by
  cases h with
  | touched now row _ _ rewrote => exact ⟨now, row, rewrote⟩
  | started | completed | retried | failed | deadLettered | requeued => simp_all

/-- The phase after an event: a statement that marks a job started leaves the phase in
which it was sent. -/
inductive NextPhase (e : Execution π) (event : Event π) (outcome : Option TransitionOutcome) :
    Phase → Prop
  | same {phase : Phase} (heq : phase = e.phase)
      (h : e.phase = .starting → event.transition = true → outcome ≠ some .applied) :
      NextPhase e event outcome phase
  | begun (handlerRegistered : Bool) (h : e.phase = .claimed) :
      NextPhase e event outcome (processClaimedQueueJob handlerRegistered e.job)
  | failed (error : TaskError) (retryAfter : Option Int) :
      NextPhase e event outcome (handleProcessedQueueJobError e.job error retryAfter)
  | running : NextPhase e event outcome .running
  | completing : NextPhase e event outcome (.finalizing .complete)
  | requeueing : NextPhase e event outcome .requeueing
  | finished : NextPhase e event outcome .finished

theorem nextPhase_afterReply (e : Execution π) (reply outcome : Option TransitionOutcome)
    (h : outcome = some .applied → reply = none ∨ reply = some .applied) :
    NextPhase e event outcome (e.phase.afterReply reply) := by
  cases hphase : e.phase with
  | starting =>
      match reply with
      | some .locked => exact .same hphase.symm fun _ _ happlied => by simpa using h happlied
      | some .applied => exact .running
      | none | some .notFound | some .stateMismatch | some .dedupeConflict => exact .finished
  | finalizing finalization =>
      match reply with
      | some .locked => exact .same hphase.symm fun hstarting => by simp [hphase] at hstarting
      | none => exact .requeueing
      | some .applied | some .notFound | some .stateMismatch | some .dedupeConflict => exact .finished
  | requeueing => exact .finished
  | claimed | running | finished =>
      exact .same hphase.symm fun hstarting => by simp [hphase] at hstarting

theorem act_nextPhase (e : Execution π) (t : Tables π) (event : Event π) :
    NextPhase e event (e.act t event).2.2 (e.act t event).1.phase := by
  cases event with
  | begin handlerRegistered =>
      dsimp only [Execution.act]
      split
      · exact .begun handlerRegistered ‹_›
      · exact .same rfl fun _ _ => nofun
  | statement m deadLetterId acknowledged =>
      dsimp only [Execution.act]
      split
      · exact .same rfl fun _ _ => nofun
      · exact nextPhase_afterReply e none none nofun
      · refine nextPhase_afterReply e _ _ fun happlied => ?_
        dsimp only at happlied
        rw [happlied]
        cases acknowledged
        · exact .inl rfl
        · exact .inr rfl
  | heartbeat m =>
      dsimp only [Execution.act]
      split
      · split
        · exact .same rfl fun _ _ => nofun
        · exact .same rfl fun _ hsent => absurd hsent Bool.false_ne_true
      · exact .same rfl fun _ _ => nofun
  | handlerDone outcome retryAfter =>
      dsimp only [Execution.act]
      split
      · split
        · exact .completing
        · exact .failed _ retryAfter
      · exact .same rfl fun _ _ => nofun
  | abort => exact .finished
  | dropContext => exact .same rfl fun _ _ => nofun

end Paranoid.QueueExecution
