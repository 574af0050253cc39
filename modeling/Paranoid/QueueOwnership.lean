import Paranoid.QueueExecution
import Paranoid.Transitions

namespace Paranoid.QueueOwnership

open List QueueModel QueueStatements QueueOperations QueueEffects QueueChanges QueueSoundness
open QueueWorker QueueExecution Transitions
open Postgres (forall₂_mem_right)

variable {π : Type}

/-- The Running period that the claim of an execution opened has not ended. -/
def Current (s : System π) (e : Execution π) : Prop :=
  s.claimOf e.job.id = e.claim ∧ ∃ row ∈ s.tables.jobs, row.id = e.job.id ∧ row.status = .running

instance (s : System π) (e : Execution π) : Decidable (Current s e) :=
  inferInstanceAs (Decidable (_ ∧ _))

def Unfinished (e : Execution π) : Prop := e.phase ≠ .finished

instance (e : Execution π) : Decidable (Unfinished e) := inferInstanceAs (Decidable (_ ≠ _))

/-- The execution is unfinished, or somebody still holds a clone of its context. -/
def Alive (e : Execution π) : Prop := Unfinished e ∨ e.contextHeld = true

instance (e : Execution π) : Decidable (Alive e) := inferInstanceAs (Decidable (_ ∨ _))

/-- The run of the execution claims the job of the execution once more. -/
def retakes (i : Input π) (s : System π) (e : Execution π) : Bool :=
  match i with
  | .claim m taskNames claimLimit workerId _ _ =>
      match claimAvailableJobs m taskNames claimLimit workerId s.tables with
      | .error _ => false
      | .ok (jobs, _) => e.workerId = workerId && e.job.id ∈ jobIds jobs
  | _ => false

/-- No worker run claims a job of which an earlier execution of its own is unfinished, or has
left a clone of its context that is still held. -/
def SeparateClaims (i : Input π) (s : System π) : Prop :=
  ∀ e ∈ s.executions, Alive e → retakes i s e = false

instance (i : Input π) (s : System π) : Decidable (SeparateClaims i s) :=
  inferInstanceAs (Decidable (∀ _ ∈ _, _))

section Owned

variable {t : Tables π} {id : JobId} {workerId : WorkerOwnerId}

def OwnedRow (t : Tables π) (id : JobId) (workerId : WorkerOwnerId) : Prop :=
  ∃ row ∈ t.jobs, row.id = id ∧ row.status = .running ∧ row.workerId = some workerId

theorem ownedRow_of_job? {row : JobRow π}
    (hrow : t.job? id = some row) (h : ownedRunning id workerId row) :
    OwnedRow t id workerId := by
  simp only [ownedRunning, Bool.and_eq_true, decide_eq_true_eq] at h
  exact ⟨row, (Tables.job?_eq_some.1 hrow).1, h.1.1, h.1.2, h.2⟩

theorem act_harmless {e : Execution π} (event : Event π)
    (h : Alive e → ¬OwnedRow t e.job.id e.workerId) :
    (e.act t event).2.1 = t ∧ (e.act t event).2.2 ≠ some .applied := by
  rcases act_outcome e t event with ⟨hnot, hsame⟩ | ⟨-, happlied⟩
  · exact ⟨hsame, hnot⟩
  · obtain ⟨row, hrow, howned⟩ := applied_owned happlied
    exact absurd (ownedRow_of_job? hrow howned) (h (applied_alive happlied))

end Owned

section Change

variable {m : Moment π} {t t' : Tables π}

/-- A row that is running after a statement other than a claim was running before,
under the same owner. -/
theorem running_before {kind : Kind π} (h : Change t t' kind) (hkind : kind ≠ .claims)
    {row' : JobRow π} (hrow' : row' ∈ t'.jobs) (hrunning : row'.status = .running) :
    ∃ row ∈ t.jobs, row.id = row'.id ∧ row.status = .running ∧ row.workerId = row'.workerId := by
  cases kind with
  | claims => exact absurd rfl hkind
  | rewrites | activates =>
      have hboth := Forall₂.mp (S := fun row row' => Keeps row row' ∧ KeepsOwner row row')
        (fun _ _ => And.intro) h.1 h.2.1
      obtain ⟨row, hrow, hkeeps, howner⟩ := forall₂_mem_right hboth hrow'
      obtain ⟨hbefore, hworker⟩ := howner hrunning
      exact ⟨row, hrow, hkeeps.id.symm, hbefore, hworker.symm⟩
  | deletes => exact ⟨row', h.1.mem hrow', rfl, hrunning, rfl⟩
  | enqueues =>
      obtain ⟨-, rows, hjobs, hpending, -⟩ := h
      rw [hjobs] at hrow'
      rcases mem_append.1 hrow' with hold | hnew
      · exact ⟨row', hold, rfl, hrunning, rfl⟩
      · simp [hpending row' hnew] at hrunning
  | moves =>
      obtain ⟨moved, -, -, hjobs, -⟩ := h
      exact ⟨row', hjobs.mem_iff.2 (mem_append_left _ hrow'), rfl, hrunning, rfl⟩
  | requeues =>
      obtain ⟨-, rows, -, -, hjobs, hpending⟩ := h
      rw [hjobs] at hrow'
      rcases mem_append.1 hrow' with hold | hnew
      · exact ⟨row', hold, rfl, hrunning, rfl⟩
      · simp [hpending row' hnew] at hrunning

/-- What an execution sends is one of the statements on an owned row. -/
theorem issue_run {e : Execution π} {deadLetterId : JobId}
    {result : Except StatementError (TransitionOutcome × Tables π)}
    (h : e.issue m deadLetterId t = some result) :
    ∃ s : Statement π, isClaim s = false ∧ result.map Prod.snd = run m s t := by
  dsimp only [Execution.issue] at h
  split at h
  case h_1 =>
      obtain rfl := Option.some.inj h
      exact ⟨.markJobStarted e.job.id e.workerId, rfl, rfl⟩
  case h_2 finalization _ =>
      obtain rfl := Option.some.inj h
      cases finalization with
      | complete => exact ⟨.markJobCompleted e.job.id e.workerId, rfl, rfl⟩
      | scheduleRetry newRetryCount retryAfter errorMessage =>
          exact ⟨.scheduleOwnedRunningJobRetry e.job.id
            e.workerId newRetryCount retryAfter errorMessage,
            rfl, rfl⟩
      | moveToDeadLetterOrFail errorMessage increment reason =>
          dsimp only [Execution.finalize]
          split
          · exact ⟨.moveOwnedRunningJobToDeadLetter e.job.id e.workerId deadLetterId errorMessage
              increment reason, rfl, rfl⟩
          · exact ⟨.markJobFailed e.job.id e.workerId errorMessage increment, rfl, rfl⟩
  case h_3 =>
      obtain rfl := Option.some.inj h
      exact ⟨.returnOwnedStartedRunningJobToPending e.job.id e.workerId, rfl, rfl⟩
  all_goals cases h

theorem change_of_run {s : Statement π} {result : Except StatementError (TransitionOutcome × Tables π)}
    {outcome : TransitionOutcome} (hs : isClaim s = false) (hrun : result.map Prod.snd = run m s t)
    (hresult : result = .ok (outcome, t')) : ∃ kind : Kind π, kind ≠ .claims ∧ Change t t' kind := by
  have hrun' : run m s t = .ok t' := by
    rw [← hrun, hresult]
    rfl
  refine ⟨s.kind, fun hclaims => ?_, (run_sound s).change t' hrun'⟩
  simp [isClaim, hclaims] at hs

/-- An event of an execution leaves the tables, or changes them as a statement other
than a claim does. -/
theorem act_change (e : Execution π) (event : Event π) :
    (e.act t event).2.1 = t ∨
      ∃ kind : Kind π, kind ≠ .claims ∧ Change t (e.act t event).2.1 kind := by
  cases event with
  | begin handlerRegistered =>
      dsimp only [Execution.act]
      split <;> exact .inl rfl
  | statement m deadLetterId acknowledged =>
      dsimp only [Execution.act]
      split
      · exact .inl rfl
      · exact .inl rfl
      · obtain ⟨s, hs, hrun⟩ := issue_run ‹_›
        exact .inr (change_of_run hs hrun rfl)
  | heartbeat m =>
      dsimp only [Execution.act]
      split
      · split
        · exact .inl rfl
        · exact .inr (change_of_run (m := m)
            (s := .touchExecutionHeartbeat e.job.id e.workerId) rfl rfl ‹_›)
      · exact .inl rfl
  | handlerDone outcome retryAfter =>
      dsimp only [Execution.act]
      split
      · split <;> exact .inl rfl
      · exact .inl rfl
  | abort => exact .inl rfl
  | dropContext => exact .inl rfl

/-- An execution keeps its claim, its owner and its job, and stays finished. -/
theorem act_keeps (e : Execution π) (event : Event π) :
    (e.act t event).1.claim = e.claim ∧ (e.act t event).1.workerId = e.workerId ∧
      (e.act t event).1.job = e.job ∧ (Unfinished (e.act t event).1 → Unfinished e) := by
  cases event with
  | begin handlerRegistered =>
      dsimp only [Execution.act]
      split
      · exact ⟨rfl, rfl, rfl, fun _ hfinished => by simp_all⟩
      · exact ⟨rfl, rfl, rfl, id⟩
  | statement m deadLetterId acknowledged =>
      have hfinished : e.phase = .finished → e.issue m deadLetterId t = none := fun h => by
        simp [Execution.issue, h]
      dsimp only [Execution.act]
      split
      · exact ⟨rfl, rfl, rfl, id⟩
      all_goals exact ⟨rfl, rfl, rfl, fun _ hphase => by simp_all⟩
  | heartbeat m =>
      rw [act_heartbeat]
      exact ⟨rfl, rfl, rfl, id⟩
  | handlerDone outcome retryAfter =>
      dsimp only [Execution.act]
      split
      · split <;> exact ⟨rfl, rfl, rfl, fun _ hfinished => by simp_all⟩
      · exact ⟨rfl, rfl, rfl, id⟩
  | abort => exact ⟨rfl, rfl, rfl, fun h => absurd rfl h⟩
  | dropContext => exact ⟨rfl, rfl, rfl, id⟩

/-- A context is given to the handler of an unfinished execution only. -/
theorem alive_of_act {e : Execution π} {event : Event π} (h : Alive (e.act t event).1) : Alive e := by
  rcases h with hunfinished | hheld
  · exact .inl ((act_keeps e event).2.2.2 hunfinished)
  cases event with
  | begin handlerRegistered =>
      dsimp only [Execution.act] at hheld
      split at hheld <;> exact .inr hheld
  | statement m deadLetterId acknowledged =>
      dsimp only [Execution.act] at hheld
      split at hheld
      · exact .inr hheld
      · exact .inr hheld
      · rename_i hissue
        refine .inl fun hphase => ?_
        simp [Execution.issue, hphase] at hissue
  | heartbeat m =>
      rw [act_heartbeat] at hheld
      exact .inr hheld
  | handlerDone outcome retryAfter =>
      dsimp only [Execution.act] at hheld
      split at hheld
      · split at hheld <;> exact .inr hheld
      · exact .inr hheld
  | abort => exact .inr hheld
  | dropContext => cases hheld

end Change

section Runs

variable {s : System π}

/-- A running row of the run that works on an execution was taken by the claim of
that execution. -/
structure Owned (s : System π) : Prop where
  claimOf_le : ∀ id, s.claimOf id ≤ s.claims
  claim_le : ∀ e ∈ s.executions, e.claim ≤ s.claims
  owner : ∀ e ∈ s.executions, Alive e → OwnedRow s.tables e.job.id e.workerId →
    s.claimOf e.job.id = e.claim

theorem ownedRow_before {kind : Kind π} {t t' : Tables π}
    (h : Change t t' kind) (hkind : kind ≠ .claims)
    {id : JobId} {workerId : WorkerOwnerId} (howned : OwnedRow t' id workerId) :
    OwnedRow t id workerId := by
  obtain ⟨row', hrow', rfl, hrunning, hworker⟩ := howned
  obtain ⟨row, hrow, hid, hbefore, hsame⟩ := running_before h hkind hrow' hrunning
  exact ⟨row, hrow, hid, hbefore, hsame.trans hworker⟩

theorem owned_claim {m : Moment π} {taskNames : List TaskName}
    {claimLimit : Nat} {workerId : WorkerOwnerId}
    {deadLetterEnabled acknowledged : Bool}
    (hguard : SeparateClaims (.claim m taskNames claimLimit workerId deadLetterEnabled acknowledged) s)
    (h : Owned s) :
    Owned (step (.claim m taskNames claimLimit workerId deadLetterEnabled acknowledged) s).1 := by
  dsimp only [step]
  split
  · exact h
  rename_i jobs tables hclaim
  have hnew : ∀ e ∈ (if acknowledged then jobs.map
        (⟨s.claims + 1, workerId, deadLetterEnabled, ·, .claimed, false⟩)
      else ([] : List (Execution π))), e.claim = s.claims + 1 ∧ e.job.id ∈ jobIds jobs := by
    intro e he
    split at he
    · obtain ⟨job, hjob, rfl⟩ := mem_map.1 he
      exact ⟨rfl, mem_map_of_mem hjob⟩
    · cases he
  constructor
  · intro id
    dsimp only
    split
    · exact le_rfl
    · exact (h.claimOf_le id).trans (Nat.le_succ _)
  · intro e he
    rcases mem_append.1 he with hold | hadded
    · exact (h.claim_le e hold).trans (Nat.le_succ _)
    · exact (hnew e hadded).1.le
  · intro e he halive howned
    dsimp only at howned ⊢
    rcases mem_append.1 he with hold | hadded
    · obtain ⟨row', hrow', hid, hrunning, hworker⟩ := howned
      rcases claimed_rows hclaim hrow' with ⟨htaken, row, -, -, rfl⟩ | ⟨hbefore, hother⟩
      -- the claim took the job: the guard excludes an execution of the same run
      · have hsame : e.workerId = workerId := (Option.some.inj hworker).symm
        have hretakes := hguard e hold halive
        simp only [retakes, hclaim, Bool.and_eq_false_iff, decide_eq_false_iff_not] at hretakes
        exact absurd (hid ▸ mem_map_of_mem htaken) (hretakes.resolve_left (not_not_intro hsame))
      · rw [if_neg (hid ▸ hother)]
        exact h.owner e hold halive ⟨row', hbefore, hid, hrunning, hworker⟩
    · obtain ⟨hclaim, hmem⟩ := hnew e hadded
      rw [if_pos hmem, hclaim]

theorem owned_execution (index : Nat) (event : Event π) (h : Owned s) :
    Owned (step (.execution index event) s).1 := by
  dsimp only [step]
  split
  · exact h
  rename_i e he
  have hmem := mem_of_getElem? he
  obtain ⟨hclaim, hworker, hjob, -⟩ := act_keeps (t := s.tables) e event
  have hrow : ∀ id workerId, OwnedRow (e.act s.tables event).2.1 id workerId →
    OwnedRow s.tables id workerId := by
    intro id workerId howned
    rcases act_change (t := s.tables) e event with hsame | ⟨kind, hkind, hchange⟩
    · rwa [hsame] at howned
    · exact ownedRow_before hchange hkind howned
  refine ⟨h.claimOf_le, fun e' he' => ?_, fun e' he' hopen howned => ?_⟩
  · rcases mem_or_eq_of_mem_set he' with hold | rfl
    · exact h.claim_le e' hold
    · exact hclaim ▸ h.claim_le e hmem
  · rcases mem_or_eq_of_mem_set he' with hold | rfl
    · exact h.owner e' hold hopen (hrow _ _ howned)
    · rw [hjob, hworker] at howned
      rw [hjob, hclaim]
      exact h.owner e hmem (alive_of_act hopen) (hrow _ _ howned)

theorem owned_step (i : Input π) (s : System π) (hguard : SeparateClaims i s) (h : Owned s) :
    Owned (step i s).1 := by
  cases i with
  | claim => exact owned_claim hguard h
  | execution index event => exact owned_execution index event h
  | statement m statement =>
      dsimp only [step]
      split
      · exact h
      · rename_i hclaim
        split
        · exact h
        · rename_i t' hrun
          have hkind : statement.kind ≠ .claims := fun hkind => hclaim (by simp [isClaim, hkind])
          exact ⟨h.claimOf_le, h.claim_le, fun e he halive howned =>
            h.owner e he halive
              (ownedRow_before ((run_sound statement).change t' hrun) hkind howned)⟩

theorem owned_run {inputs : List (Input π)} (h : Meets SeparateClaims step inputs System.empty) :
    Owned (exec step inputs System.empty) :=
  exec_preserves owned_step h ⟨fun _ => le_rfl, by simp [System.empty], by simp [System.empty]⟩

/-- Once its claim is over, an execution never gets it back: a later Running period
has a claim of its own. -/
theorem current_before (i : Input π) {e : Execution π} (hle : e.claim ≤ s.claims)
    (h : Current (step i s).1 e) : Current s e := by
  cases i with
  | claim m taskNames claimLimit workerId deadLetterEnabled acknowledged =>
      dsimp only [step] at h
      split at h
      · exact h
      rename_i jobs tables hclaim
      obtain ⟨hcurrent, row', hrow', hid, hrunning⟩ := h
      dsimp only at hcurrent hrow'
      rcases claimed_rows hclaim hrow' with ⟨htaken, -⟩ | ⟨hbefore, hother⟩
      · rw [if_pos (hid ▸ mem_map_of_mem htaken)] at hcurrent
        omega
      · rw [if_neg (hid ▸ hother)] at hcurrent
        exact ⟨hcurrent, row', hbefore, hid, hrunning⟩
  | execution index event =>
      dsimp only [step] at h
      split at h
      · exact h
      obtain ⟨hcurrent, row', hrow', hid, hrunning⟩ := h
      refine ⟨hcurrent, ?_⟩
      rename_i other _
      rcases act_change (t := s.tables) other event with hsame | ⟨kind, hkind, hchange⟩
      · exact ⟨row', hsame ▸ hrow', hid, hrunning⟩
      · obtain ⟨row, hrow, hrowId, hbefore, -⟩ := running_before hchange hkind hrow' hrunning
        exact ⟨row, hrow, hrowId.trans hid, hbefore⟩
  | statement m statement =>
      dsimp only [step] at h
      split at h
      · exact h
      rename_i hclaim
      split at h
      · exact h
      rename_i t' hrun
      have hkind : statement.kind ≠ .claims := fun hkind => hclaim (by simp [isClaim, hkind])
      obtain ⟨hcurrent, row', hrow', hid, hrunning⟩ := h
      obtain ⟨row, hrow, hrowId, hbefore, -⟩ :=
        running_before ((run_sound statement).change t' hrun) hkind hrow' hrunning
      exact ⟨hcurrent, row, hrow, hrowId.trans hid, hbefore⟩

theorem execution_kept (i : Input π) {k : Nat} {e : Execution π} (he : s.executions[k]? = some e) :
    ∃ e', (step i s).1.executions[k]? = some e' ∧ e'.claim = e.claim ∧ e'.job = e.job := by
  cases i with
  | claim =>
      dsimp only [step]
      split
      · exact ⟨e, he, rfl, rfl⟩
      · exact ⟨e, by rw [getElem?_append_left (List.getElem?_eq_some_iff.1 he).1, he], rfl, rfl⟩
  | execution index event =>
      dsimp only [step]
      split
      · exact ⟨e, he, rfl, rfl⟩
      · rename_i other hother
        dsimp only
        rw [getElem?_set]
        split
        · rename_i heq
          subst heq
          obtain rfl : other = e := by simpa [hother] using he
          obtain ⟨hclaim, -, hjob, -⟩ := act_keeps (t := s.tables) other event
          refine ⟨_, if_pos (List.getElem?_eq_some_iff.1 hother).1, hclaim, hjob⟩
        · exact ⟨e, he, rfl, rfl⟩
  | statement m statement =>
      dsimp only [step]
      split
      · exact ⟨e, he, rfl, rfl⟩
      · split <;> exact ⟨e, he, rfl, rfl⟩

/-- The claim of the execution is over. -/
def Ended (k : Nat) (s : System π) : Prop := ∃ e, s.executions[k]? = some e ∧ ¬Current s e

theorem ended_step (i : Input π) {k : Nat} (h : Owned s) (hended : Ended k s) :
    Ended k (step i s).1 := by
  obtain ⟨e, he, hover⟩ := hended
  obtain ⟨e', he', hclaim, hjob⟩ := execution_kept i he
  refine ⟨e', he', fun hcurrent => hover ?_⟩
  have hle := h.claim_le e (mem_of_getElem? he)
  refine current_before i hle ?_
  rwa [Current, hclaim, hjob] at hcurrent

theorem ended_run {inputs : List (Input π)} {k : Nat} (h : Meets SeparateClaims step inputs s)
    (howned : Owned s) (hended : Ended k s) : Ended k (exec step inputs s) := by
  have hstep : ∀ (i : Input π) (s : System π), SeparateClaims i s → Owned s ∧ Ended k s →
      Owned (step i s).1 ∧ Ended k (step i s).1 :=
    fun i s hguard hs => ⟨owned_step i s hguard hs.1, ended_step i hs.1 hs.2⟩
  exact (exec_preserves hstep h ⟨howned, hended⟩).2

theorem ended_harmless {k : Nat} (event : Event π) (h : Owned s) (hended : Ended k s) :
    (step (.execution k event) s).1.tables = s.tables ∧
    (step (.execution k event) s).2 ≠ some .applied := by
  obtain ⟨e, he, hover⟩ := hended
  dsimp only [step]
  rw [he]
  refine act_harmless event fun halive howned => hover ?_
  refine ⟨h.owner e (mem_of_getElem? he) halive howned, ?_⟩
  obtain ⟨row, hrow, hid, hrunning, -⟩ := howned
  exact ⟨row, hrow, hid, hrunning⟩

end Runs

/-- In a run whose claims are separate, whatever an execution, or a holder of its context,
does once its claim is over leaves every table as it is, and no transition of it is applied:
an applied completion, retry or failure belongs to the claim that is current at the time. -/
theorem ended_claim_harmless (inputs later : List (Input π)) (k : Nat) (event : Event π)
    (hrun : Meets SeparateClaims step (inputs ++ later) System.empty)
    (hended : Ended k (exec step inputs System.empty)) :
    let s := exec step (inputs ++ later) System.empty
    (step (.execution k event) s).1.tables = s.tables ∧
    (step (.execution k event) s).2 ≠ some .applied := by
  have hlater := (meets_append inputs later System.empty).1 hrun
  have hend := ended_run hlater.2 (owned_run hlater.1) hended
  rw [← exec_append] at hend
  exact ended_harmless event (owned_run hrun) hend

section Example

/-- The inputs of a plan where each statement reads the newest rows and finds none of
them locked. -/
def plain : List (Int × (Moment π → Input π)) → System π → List (Input π)
  | [], _ => []
  | (now, input) :: plan, s =>
      let i := input ⟨now, s.tables, fun _ => false, fun _ => false⟩
      i :: plain plan (step i s).1

def worker : WorkerOwnerId := ⟨"worker", by decide⟩

def otherWorker : WorkerOwnerId := ⟨"other", by decide⟩

theorem validTaskName_report : validTaskName "report" = true := by decide

def report : TaskName := ⟨"report", validTaskName_report⟩

def enqueueReport (m : Moment Unit) : Input Unit :=
  .statement m (.singleEnqueue report ⟨none, 5, 0, numericDomains_five_retries⟩ 1 ())

def claimReport (workerId : WorkerOwnerId) (m : Moment Unit) : Input Unit :=
  .claim m [report] 1 workerId true true

/-- A job is claimed and started, and reclaimed a minute after its last heartbeat. -/
def reclaimed : List (Input Unit) :=
  plain [(0, enqueueReport), (10, claimReport worker), (20, fun _ => .execution 0 (.begin true)),
    (30, fun m => .execution 0 (.statement m 0 true)),
    (60000031, fun m => .statement m (.reclaimExpiredRunningJobsToPendingForRetry 60000000 10))]
      System.empty

/-- It is claimed and started again, and then its first handler returns. -/
def claimedAgain (workerId : WorkerOwnerId) : List (Input Unit) :=
  plain [(60000040, claimReport workerId), (60000050, fun _ => .execution 1 (.begin true)),
    (60000060, fun m => .execution 1 (.statement m 0 true)),
    (60000070, fun _ => .execution 0 (.handlerDone (.returned (.ok ())) none))]
    (exec step reclaimed System.empty)

def takenAgain (workerId : WorkerOwnerId) : System Unit :=
  exec step (reclaimed ++ claimedAgain workerId) System.empty

/-- The first execution sends its completion. -/
def lateCompletion (workerId : WorkerOwnerId) : Event Unit :=
  .statement ⟨60000080, (takenAgain workerId).tables, fun _ => false, fun _ => false⟩ 0 true

theorem ended_claim_harmless_other_worker :
    let s := takenAgain otherWorker
    (step (.execution 0 (lateCompletion otherWorker)) s).1.tables = s.tables ∧
      (step (.execution 0 (lateCompletion otherWorker)) s).2 ≠ some .applied :=
  ended_claim_harmless reclaimed (claimedAgain otherWorker) 0 (lateCompletion otherWorker) (by decide)
    ⟨_, rfl, by decide⟩

/-- The run that claimed the job the first time claims it again: the late completion
of its first handler completes the second claim, whose handler is still running. -/
theorem late_completion_ends_next_claim :
    let s := takenAgain worker
    let s' := (step (.execution 0 (lateCompletion worker)) s)
    Ended 0 (exec step reclaimed System.empty) ∧ s.claimOf 1 = 2 ∧
      (s.executions[1]?.map (·.phase)) = some .running ∧ s'.2 = some .applied ∧
      s.tables.jobs.map (·.status) = [.running] ∧ s'.1.tables.jobs.map (·.status) = [.completed] :=
  ⟨⟨_, rfl, by decide⟩, by decide, by decide, by decide, by decide, by decide⟩

/-- The first handler returns before the job is claimed again, but has left a clone of its
context to a task that it spawned. -/
def claimedAfterReturn : List (Input Unit) :=
  plain [(60000032, fun _ => .execution 0 (.handlerDone (.returned (.ok ())) none)),
    (60000034, fun m => .execution 0 (.statement m 0 true)), (60000040, claimReport worker),
    (60000050, fun _ => .execution 1 (.begin true)), (60000060, fun m => .execution 1 (.statement m 0 true))]
    (exec step reclaimed System.empty)

def takenAfterReturn : System Unit := exec step (reclaimed ++ claimedAfterReturn) System.empty

/-- The run claims the job again after its first execution of it has finished, and a
heartbeat of the first context counts for the second claim. -/
theorem late_heartbeat_refreshes_next_claim :
    let s := takenAfterReturn
    let s' := step (.execution 0 (.heartbeat ⟨60000080, s.tables, fun _ => false, fun _ => false⟩)) s
    Meets (fun i s => ∀ e ∈ s.executions, Unfinished e → retakes i s e = false) step
        (reclaimed ++ claimedAfterReturn) System.empty ∧
      Ended 0 (exec step reclaimed System.empty) ∧ s.claimOf 1 = 2 ∧
      (s.executions.map (·.phase)) = [.finished, .running] ∧ s'.2 = some .applied ∧
      s.tables.jobs.map (·.executionHeartbeatAt) = [some 60000060] ∧
      s'.1.tables.jobs.map (·.executionHeartbeatAt) = [some 60000080] :=
  ⟨by decide, ⟨_, rfl, by decide⟩, by decide, by decide, by decide, by decide, by decide⟩

end Example

end Paranoid.QueueOwnership
