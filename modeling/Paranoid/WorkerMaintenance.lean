import Paranoid.CronReturns
import Paranoid.WorkerLoop

namespace Paranoid.WorkerMaintenance

open List ErrorModel Transitions
open CronModel (Cron CronResult)
open QueueModel (Tables)
open WorkerLoop (LoopError LoopState WorkerConfig WorkerRunLoopSummary)

variable {π : Type}

section Results

inductive MaintenanceCron
  | reclaim
  | cleanup
  deriving DecidableEq

def MaintenanceCron.name : MaintenanceCron → String
  | .reclaim => "reclaim"
  | .cleanup => "cleanup"

def MaintenanceCron.other : MaintenanceCron → MaintenanceCron
  | .reclaim => .cleanup
  | .cleanup => .reclaim

inductive RuntimeFailure
  | worker (error : LoopError)
  | workerTaskJoinFailed (reason : String)
  | maintenanceCronRunFailed (cronName : String) (source : ErrorValue (.cronRun .queue))
  | maintenanceCronTaskJoinFailed (cronName reason : String)
  | maintenanceCronStoppedUnexpectedly (cronName : String)

/-- What the worker's task ends with. `expectPanics` is the panic of an `expect`. -/
inductive RuntimeError
  | one (failure : RuntimeFailure)
  | workerRuntimeMultipleFailures (failures : List RuntimeFailure)
  | expectPanics

/-- What is awaited at a join handle; the error of a task that has panicked says why. -/
abbrev WorkerEnd : Type := Except String (Except LoopError WorkerRunLoopSummary)

abbrev CronEnd : Type := Except String (CronResult .queue Unit)

def queueWorkerRunLoopResultFromJoinResult : WorkerEnd → Except RuntimeFailure WorkerRunLoopSummary
  | .ok result => result.mapError .worker
  | .error reason => .error (.workerTaskJoinFailed reason)

def queueMaintenanceCronResultFromJoinResult (cronName : String) : CronEnd → Except RuntimeFailure Unit
  | .ok (.ok ()) => .ok ()
  | .ok (.error source) => .error (.maintenanceCronRunFailed cronName source)
  | .error reason => .error (.maintenanceCronTaskJoinFailed cronName reason)

def failureOf {α : Type} : Except RuntimeFailure α → List RuntimeFailure
  | .ok _ => []
  | .error failure => [failure]

def collectQueueWorkerRuntimeComponentFailures (workerResult : Except RuntimeFailure WorkerRunLoopSummary)
    (firstMaintenanceResult secondMaintenanceResult : Except RuntimeFailure Unit) :
    Option WorkerRunLoopSummary × List RuntimeFailure :=
  (workerResult.toOption,
    failureOf workerResult ++ failureOf firstMaintenanceResult ++ failureOf secondMaintenanceResult)

def queueWorkerSummaryOrRuntimeFailures :
    Option WorkerRunLoopSummary → List RuntimeFailure → Except RuntimeError WorkerRunLoopSummary
  | some summary, [] => .ok summary
  | none, [] => .error .expectPanics
  | _, [failure] => .error (.one failure)
  | _, failures => .error (.workerRuntimeMultipleFailures failures)

def combineQueueWorkerRuntimeStopResults (shutdownWasAlreadyRequested : Bool) (stoppedCronName : String)
    (workerResult : Except RuntimeFailure WorkerRunLoopSummary)
    (stoppedCronResult otherCronResult : Except RuntimeFailure Unit) :
    Except RuntimeError WorkerRunLoopSummary :=
  let (summary, failures) :=
    collectQueueWorkerRuntimeComponentFailures workerResult stoppedCronResult otherCronResult
  queueWorkerSummaryOrRuntimeFailures summary
    (if !shutdownWasAlreadyRequested && stoppedCronResult.isOk then
      failures ++ [.maintenanceCronStoppedUnexpectedly stoppedCronName]
    else failures)

def combineQueueWorkerCompletedFirstRuntimeStopResults
    (workerResult : Except RuntimeFailure WorkerRunLoopSummary)
    (reclaimResult cleanupResult : Except RuntimeFailure Unit) : Except RuntimeError WorkerRunLoopSummary :=
  let (summary, failures) :=
    collectQueueWorkerRuntimeComponentFailures workerResult reclaimResult cleanupResult
  queueWorkerSummaryOrRuntimeFailures summary failures

end Results

section Model

structure Config where
  worker : WorkerConfig
  cron : MaintenanceCron → Cron

/-- The maintenance crons are run continuously. -/
def Config.continuousCron (config : Config) (cron : MaintenanceCron) : Cron :=
  { config.cron cron with continuous := true }

/-- Where the supervising task is: in the select over the three join handles, or at the handles that are
left. -/
inductive Phase
  | selecting
  | workerStopped (worker : WorkerEnd) (reclaim : Option CronEnd)
  | cronStopped (cron : MaintenanceCron) (shutdownWasAlreadyRequested : Bool) (stopped : CronEnd)
      (worker : Option WorkerEnd)
  | returned (result : Except RuntimeError WorkerRunLoopSummary)

/-- The shutdown signal is the one that the worker loop holds. Each cron sees the tables of its lease in
its own state; the other cron is one of its others. -/
structure State (π : Type) where
  worker : LoopState π
  workerPanic : Option String
  cron : MaintenanceCron → CronModel.State .queue
  cronPanic : MaintenanceCron → Option String
  phase : Phase

def start (t : Tables π) : State π where
  worker := .start t
  workerPanic := none
  cron := fun _ => CronModel.start
  cronPanic := fun _ => none
  phase := .selecting

def State.workerEnd (s : State π) : Option WorkerEnd :=
  match s.workerPanic, s.worker.phase with
  | some reason, _ => some (.error reason)
  | none, .returned result => some (.ok result)
  | none, _ => none

def State.cronEnd (s : State π) (cron : MaintenanceCron) : Option CronEnd :=
  match s.cronPanic cron, (s.cron cron).place with
  | some reason, _ => some (.error reason)
  | none, .finished result => some (.ok result)
  | none, _ => none

/-- One step of one of the tasks, a panic of one, or a look of the supervising task at one. -/
inductive Event (π : Type)
  | worker (input : WorkerLoop.Input π)
  | workerPanics (reason : String)
  | cron (cron : MaintenanceCron) (event : CronModel.Event .queue)
  | cronPanics (cron : MaintenanceCron) (reason : String)
  | joinsWorker
  | joinsCron (cron : MaintenanceCron)

/-- What still happens once the worker's task has panicked. -/
def outlivesPanic : WorkerLoop.Input π → Bool
  | .requestShutdown | .task .. | .other .. => true
  | _ => false

/-- The stop future of a cron is the wait for the shutdown signal, and its policy is to stop. -/
def admits (shutdownRequested : Bool) : CronModel.Event .queue → Bool
  | .stops => shutdownRequested
  | .decides action => action = .stop
  | _ => true

def State.requestShutdown (s : State π) : State π :=
  { s with worker := { s.worker with shutdownRequested := true } }

/-- The supervising task finds the worker's handle ready, where it waits for it. -/
def joinWorker (s : State π) : State π :=
  match s.phase, s.workerEnd with
  | .selecting, some worker => { s.requestShutdown with phase := .workerStopped worker none }
  | .cronStopped cron already stopped none, some worker =>
      { s with phase := .cronStopped cron already stopped (some worker) }
  | _, _ => s

def cronResult (cron : MaintenanceCron) (cronEnd : CronEnd) : Except RuntimeFailure Unit :=
  queueMaintenanceCronResultFromJoinResult cron.name cronEnd

/-- The supervising task finds a cron's handle ready, where it waits for it. -/
def joinCron (cron : MaintenanceCron) (s : State π) : State π :=
  match s.phase, s.cronEnd cron with
  | .selecting, some stopped =>
      { s.requestShutdown with phase := .cronStopped cron s.worker.shutdownRequested stopped none }
  | .workerStopped worker none, some reclaim =>
      if cron = .reclaim then { s with phase := .workerStopped worker (some reclaim) } else s
  | .workerStopped worker (some reclaim), some cleanup =>
      if cron = .cleanup then
        { s with phase := .returned (combineQueueWorkerCompletedFirstRuntimeStopResults
          (queueWorkerRunLoopResultFromJoinResult worker) (cronResult .reclaim reclaim)
          (cronResult .cleanup cleanup)) }
      else s
  | .cronStopped stoppedCron already stopped (some worker), some other =>
      if cron = stoppedCron.other then
        { s with phase := .returned (combineQueueWorkerRuntimeStopResults already stoppedCron.name
          (queueWorkerRunLoopResultFromJoinResult worker) (cronResult stoppedCron stopped)
          (cronResult cron other)) }
      else s
  | _, _ => s

/-- A step of a cron shows what the cron shows. -/
def step (config : Config) (event : Event π) (s : State π) : State π × Option CronModel.Output :=
  match event with
  | .worker input =>
      if s.workerPanic.isNone || outlivesPanic input then
        ({ s with worker := s.worker.next config.worker input }, none)
      else (s, none)
  | .workerPanics reason =>
      if s.workerEnd.isNone then ({ s with workerPanic := some reason }, none) else (s, none)
  | .cron cron event =>
      if (s.cronPanic cron).isNone && admits s.worker.shutdownRequested event then
        let (after, out) := CronModel.step (config.continuousCron cron) event (s.cron cron)
        ({ s with cron := Function.update s.cron cron after }, some out)
      else (s, none)
  | .cronPanics cron reason =>
      if (s.cronEnd cron).isNone then
        ({ s with cronPanic := Function.update s.cronPanic cron (some reason) }, none)
      else (s, none)
  | .joinsWorker => (joinWorker s, none)
  | .joinsCron cron => (joinCron cron s, none)

/-- What a run shows of one cron. -/
def cronEntry (cron : MaintenanceCron) :
    Event π × Option CronModel.Output → Option (CronModel.Event .queue × CronModel.Output)
  | (.cron stepped event, some out) => if stepped = cron then some (event, out) else none
  | _ => none

def cronTrace (cron : MaintenanceCron) (entries : List (Event π × Option CronModel.Output)) :
    List (CronModel.Event .queue × CronModel.Output) :=
  entries.filterMap (cronEntry cron)

end Model

section Components

variable {config : WorkerConfig} {loop : LoopState π} {result : Except LoopError WorkerRunLoopSummary}

theorem finishCleanup_requested (exit : WorkerLoop.Exit) (errors : List WorkerLoop.WorkerError)
    (cleanupResult : Except WorkerLoop.CleanupError Unit) :
    (loop.finishCleanup exit errors cleanupResult).shutdownRequested = loop.shutdownRequested := by
  obtain ⟨result, heq⟩ := WorkerLoop.finishCleanup_fields (s := loop) exit errors cleanupResult
  rw [heq]
  rfl

/-- A shutdown that was requested stays requested. -/
theorem next_requested (input : WorkerLoop.Input π) (h : loop.shutdownRequested = true) :
    (loop.next config input).shutdownRequested = true := by
  cases input with
  | startup delay =>
      simp only [LoopState.next]
      split <;> exact h
  | requestShutdown => rfl
  | claim m reply =>
      simp only [LoopState.next, LoopState.claim, h, if_true]
      split
      · rfl
      · exact h
  | timerElapsed =>
      simp only [LoopState.next]
      split <;> exact h
  | noticeShutdown =>
      simp only [LoopState.next]
      split
      · rfl
      · rfl
      · exact h
  | joined index joined =>
      have hhandle : ∀ loop' : LoopState π, loop'.shutdownRequested = true →
          ∀ next, (loop'.handleJoinedJob joined next).shutdownRequested = true := by
        intro loop' h' next
        cases joined with
        | processed outcome =>
            simp only [LoopState.handleJoinedJob]
            split <;> exact h'
        | failed | cancelled | panicked => rfl
      simp only [LoopState.next, LoopState.joined]
      split
      · split
        · refine hhandle _ ?_ _
          exact h
        · refine hhandle _ ?_ _
          exact h
        · exact h
        · exact h
      · exact h
  | noneInFlight =>
      simp only [LoopState.next, LoopState.noneInFlight]
      split
      · split <;> exact h
      · exact h
  | gracePeriodElapsed =>
      simp only [LoopState.next, LoopState.gracePeriodElapsed]
      split <;> exact h
  | cleanup m reply =>
      simp only [LoopState.next, LoopState.cleanup]
      split
      · split
        · rw [finishCleanup_requested, h]
        · split
          · rw [finishCleanup_requested, h]
          · exact h
        · split
          · rw [finishCleanup_requested, h]
          · exact h
        · split
          · rw [finishCleanup_requested, h]
          · exact h
        · exact h
      · exact h
  | task index event =>
      simp only [LoopState.next]
      split <;> exact h
  | other m statement =>
      simp only [LoopState.next]
      split
      · exact h
      · split <;> exact h

/-- A worker loop that has returned takes no step. -/
theorem next_returned (input : WorkerLoop.Input π) (h : loop.phase = .returned result) :
    (loop.next config input).phase = .returned result := by
  cases input with
  | startup | claim | timerElapsed | noticeShutdown | cleanup =>
      simp only [LoopState.next, LoopState.cleanup, h]
  | requestShutdown => exact h
  | joined index joined =>
      simp only [LoopState.next, LoopState.joined, h]
      split <;> exact h
  | noneInFlight =>
      simp only [LoopState.next, LoopState.noneInFlight, h]
      split <;> exact h
  | gracePeriodElapsed =>
      simp only [LoopState.next, LoopState.gracePeriodElapsed, h]
  | task index event =>
      simp only [LoopState.next]
      split <;> exact h
  | other m statement =>
      simp only [LoopState.next]
      split
      · exact h
      · split <;> exact h

variable {t : ErrorType} {cron : Cron} {s : CronModel.State t} {finished : CronResult t Unit}

/-- A cron that has returned takes no step. -/
theorem step_finished (event : CronModel.Event t) (h : s.place = .finished finished) :
    (CronModel.step cron event s).1.place = .finished finished := by
  cases event <;>
    simp only [CronModel.step, CronModel.generate, CronModel.tryClaim, CronModel.stop, CronModel.delay,
      CronModel.elapse, CronModel.advance, CronModel.onGuard, CronModel.decideTaskError,
      CronModel.noticeLoss, CronModel.release, h]

end Components

section Reports

def failures (worker : WorkerEnd) (reclaim cleanup : CronEnd) : List RuntimeFailure :=
  failureOf (queueWorkerRunLoopResultFromJoinResult worker) ++ failureOf (cronResult .reclaim reclaim) ++
    failureOf (cronResult .cleanup cleanup)

/-- The result tells how the three tasks have ended: the failures in it are theirs, each once. -/
def Reports (worker : WorkerEnd) (reclaim cleanup : CronEnd) :
    Except RuntimeError WorkerRunLoopSummary → Prop
  | .ok summary => worker = .ok (.ok summary) ∧ reclaim = .ok (.ok ()) ∧ cleanup = .ok (.ok ())
  | .error (.one failure) => failures worker reclaim cleanup = [failure]
  | .error (.workerRuntimeMultipleFailures reported) =>
      reported.Perm (failures worker reclaim cleanup) ∧ 2 ≤ reported.length
  | .error .expectPanics => False

variable {worker : WorkerEnd} {reclaim cleanup : CronEnd} {cronEnd : CronEnd}

theorem cron_ok_of_failureOf {cron : MaintenanceCron} (h : failureOf (cronResult cron cronEnd) = []) :
    cronEnd = .ok (.ok ()) := by
  cases cronEnd with
  | error reason => cases h
  | ok result =>
      cases result with
      | error source => cases h
      | ok value => rfl

theorem worker_ok_of_failureOf (h : failureOf (queueWorkerRunLoopResultFromJoinResult worker) = []) :
    ∃ summary, worker = .ok (.ok summary) := by
  cases worker with
  | error reason => cases h
  | ok result =>
      cases result with
      | error error => cases h
      | ok summary => exact ⟨summary, rfl⟩

theorem reports_of_perm {reported : List RuntimeFailure}
    (h : reported.Perm (failures worker reclaim cleanup)) :
    Reports worker reclaim cleanup (queueWorkerSummaryOrRuntimeFailures
      (queueWorkerRunLoopResultFromJoinResult worker).toOption reported) := by
  cases reported with
  | nil =>
      have hnone := h.symm.eq_nil
      rw [failures, append_eq_nil_iff, append_eq_nil_iff] at hnone
      obtain ⟨summary, rfl⟩ := worker_ok_of_failureOf hnone.1.1
      exact ⟨rfl, cron_ok_of_failureOf hnone.1.2, cron_ok_of_failureOf hnone.2⟩
  | cons failure rest =>
      cases rest with
      | nil =>
          have hone : failures worker reclaim cleanup = [failure] := perm_singleton.1 h.symm
          cases (queueWorkerRunLoopResultFromJoinResult worker).toOption <;> exact hone
      | cons other rest =>
          have hmany : (failure :: other :: rest).Perm (failures worker reclaim cleanup) ∧
            2 ≤ (failure :: other :: rest).length := ⟨h, by simp⟩
          cases (queueWorkerRunLoopResultFromJoinResult worker).toOption <;> exact hmany

/-- A maintenance cron that stops after the shutdown was requested, or fails, is no surprise. -/
theorem reports_stopped {first : MaintenanceCron} {already : Bool} {stopped other : CronEnd}
    (halready : stopped = .ok (.ok ()) → already = true) :
    Reports worker (if first = .reclaim then stopped else other)
      (if first = .cleanup then stopped else other) (combineQueueWorkerRuntimeStopResults already first.name
        (queueWorkerRunLoopResultFromJoinResult worker) (cronResult first stopped)
        (cronResult first.other other)) := by
  have hexpected : (!already && (cronResult first stopped).isOk) = false := by
    rw [Bool.and_eq_false_iff, Bool.not_eq_false']
    cases hresult : cronResult first stopped with
    | error failure => exact .inr rfl
    | ok value => exact .inl (halready (cron_ok_of_failureOf (by rw [hresult]; rfl)))
  simp only [combineQueueWorkerRuntimeStopResults, collectQueueWorkerRuntimeComponentFailures, hexpected,
    Bool.false_eq_true, if_false]
  apply reports_of_perm
  cases first with
  | reclaim => exact .refl _
  | cleanup =>
      rw [failures, append_assoc, append_assoc]
      exact perm_append_comm.append_left _

end Reports

section Steps

variable {config : Config} {s : State π} {event : Event π} {cron : MaintenanceCron}

/-- What only the supervising task changes. -/
structure SameTasks (s s' : State π) : Prop where
  phase : s'.worker.phase = s.worker.phase
  workerPanic : s'.workerPanic = s.workerPanic
  cron : s'.cron = s.cron
  cronPanic : s'.cronPanic = s.cronPanic
  requested : s.worker.shutdownRequested = true → s'.worker.shutdownRequested = true

theorem sameTasks_joinWorker (s : State π) : SameTasks s (joinWorker s) := by
  rw [joinWorker]
  split
  · exact ⟨rfl, rfl, rfl, rfl, fun _ => rfl⟩
  · exact ⟨rfl, rfl, rfl, rfl, id⟩
  · exact ⟨rfl, rfl, rfl, rfl, id⟩

theorem sameTasks_joinCron (cron : MaintenanceCron) (s : State π) : SameTasks s (joinCron cron s) := by
  have hsame : SameTasks s s := ⟨rfl, rfl, rfl, rfl, id⟩
  rw [joinCron]
  split
  · exact ⟨rfl, rfl, rfl, rfl, fun _ => rfl⟩
  · split
    · exact ⟨rfl, rfl, rfl, rfl, id⟩
    · exact hsame
  · split
    · exact ⟨rfl, rfl, rfl, rfl, id⟩
    · exact hsame
  · split
    · exact ⟨rfl, rfl, rfl, rfl, id⟩
    · exact hsame
  · exact hsame

theorem SameTasks.workerEnd {s' : State π} (h : SameTasks s s') : s'.workerEnd = s.workerEnd := by
  rw [State.workerEnd, State.workerEnd, h.phase, h.workerPanic]

theorem SameTasks.cronEnd {s' : State π} (h : SameTasks s s') : s'.cronEnd cron = s.cronEnd cron := by
  rw [State.cronEnd, State.cronEnd, h.cron, h.cronPanic]

theorem workerEnd_eq_some {worker : WorkerEnd} : s.workerEnd = some worker ↔
    (∃ reason, s.workerPanic = some reason ∧ worker = .error reason) ∨
      s.workerPanic = none ∧ ∃ result, s.worker.phase = .returned result ∧ worker = .ok result := by
  rw [State.workerEnd]
  split <;> simp_all [@eq_comm _ worker]

theorem cronEnd_eq_some {cronEnd : CronEnd} : s.cronEnd cron = some cronEnd ↔
    (∃ reason, s.cronPanic cron = some reason ∧ cronEnd = .error reason) ∨
      s.cronPanic cron = none ∧ ∃ result, (s.cron cron).place = .finished result ∧
        cronEnd = .ok result := by
  rw [State.cronEnd]
  split <;> simp_all [@eq_comm _ cronEnd]

theorem requested_step (h : s.worker.shutdownRequested = true) :
    (step config event s).1.worker.shutdownRequested = true := by
  cases event with
  | worker input =>
      simp only [step]
      split
      · exact next_requested input h
      · exact h
  | workerPanics | cron | cronPanics =>
      simp only [step]
      split <;> exact h
  | joinsWorker => exact (sameTasks_joinWorker s).requested h
  | joinsCron cron => exact (sameTasks_joinCron cron s).requested h

/-- A task that has ended stays so. -/
theorem workerEnd_step {worker : WorkerEnd} (h : s.workerEnd = some worker) :
    (step config event s).1.workerEnd = some worker := by
  cases event with
  | worker input =>
      simp only [step]
      split
      · rw [workerEnd_eq_some] at h ⊢
        rcases h with hpanicked | ⟨hpanic, result, hphase, rfl⟩
        · exact .inl hpanicked
        · exact .inr ⟨hpanic, result, next_returned input hphase, rfl⟩
      · exact h
  | workerPanics reason =>
      simp only [step, h, Option.isNone_some, Bool.false_eq_true, if_false]
  | cron | cronPanics =>
      simp only [step]
      split <;> exact h
  | joinsWorker => exact (sameTasks_joinWorker s).workerEnd.trans h
  | joinsCron cron => exact (sameTasks_joinCron cron s).workerEnd.trans h

theorem cronEnd_step {cronEnd : CronEnd} (h : s.cronEnd cron = some cronEnd) :
    (step config event s).1.cronEnd cron = some cronEnd := by
  cases event with
  | worker | workerPanics =>
      simp only [step]
      split <;> exact h
  | cron stepped event =>
      simp only [step]
      split
      · rw [cronEnd_eq_some] at h ⊢
        rcases h with hpanicked | ⟨hpanic, result, hplace, rfl⟩
        · exact .inl hpanicked
        · refine .inr ⟨hpanic, result, ?_, rfl⟩
          by_cases hsame : cron = stepped
          · subst hsame
            dsimp only
            rw [Function.update_self]
            exact step_finished event hplace
          · dsimp only
            rw [Function.update_of_ne hsame]
            exact hplace
      · exact h
  | cronPanics panicked reason =>
      simp only [step]
      split
      · rename_i hnone
        have hne : cron ≠ panicked := by
          rintro rfl
          rw [h] at hnone
          cases hnone
        rw [State.cronEnd] at h ⊢
        simpa only [Function.update_of_ne hne] using h
      · exact h
  | joinsWorker => exact (sameTasks_joinWorker s).cronEnd.trans h
  | joinsCron joined => exact (sameTasks_joinCron joined s).cronEnd.trans h

end Steps

section Runs

variable {config : Config} {s : State π} {event : Event π} {cron : MaintenanceCron}
  {entries : List (Event π × Option CronModel.Output)} {past : List (CronModel.Event .queue)}

/-- The cron has run by itself on these events, and was stopped only once the shutdown was requested. -/
structure Follows (config : Config) (cron : MaintenanceCron)
    (entries : List (Event π × Option CronModel.Output)) (s : State π)
    (past : List (CronModel.Event .queue)) : Prop where
  reached : s.cron cron = exec (CronModel.step (config.continuousCron cron)) past CronModel.start
  shown : cronTrace cron entries = trace (CronModel.step (config.continuousCron cron)) past CronModel.start
  stopped : .stops ∈ past → s.worker.shutdownRequested = true

theorem follows_stays (h : Follows config cron entries s past)
    (hcron : (step config event s).1.cron cron = s.cron cron)
    (hentry : cronEntry cron (event, (step config event s).2) = none) :
    Follows config cron (entries ++ [(event, (step config event s).2)]) (step config event s).1 past where
  reached := hcron.trans h.reached
  shown := by
    rw [cronTrace, filterMap_append, filterMap_cons_none hentry, filterMap_nil, append_nil]
    exact h.shown
  stopped := fun hmem => requested_step (h.stopped hmem)

theorem follows_step (event : Event π) (h : Follows config cron entries s past) : ∃ past,
    Follows config cron (entries ++ [(event, (step config event s).2)]) (step config event s).1 past := by
  cases event with
  | worker | workerPanics | cronPanics =>
      refine ⟨past, follows_stays h ?_ rfl⟩
      simp only [step]
      split <;> rfl
  | joinsWorker => exact ⟨past, follows_stays h (congrFun (sameTasks_joinWorker s).cron cron) rfl⟩
  | joinsCron joined => exact ⟨past, follows_stays h (congrFun (sameTasks_joinCron joined s).cron cron) rfl⟩
  | cron stepped event =>
      by_cases hsteps : (s.cronPanic stepped).isNone && admits s.worker.shutdownRequested event
      · by_cases hsame : stepped = cron
        · subst hsame
          let taken := CronModel.step (config.continuousCron stepped) event (s.cron stepped)
          have hstep : step config (.cron stepped event) s =
              ({ s with cron := Function.update s.cron stepped taken.1 }, some taken.2) := if_pos hsteps
          refine ⟨past ++ [event], ?_, ?_, ?_⟩
          · rw [hstep, exec_append, exec_cons, exec_nil, ← h.reached]
            exact Function.update_self ..
          · rw [hstep, cronTrace, filterMap_append, trace_append, trace_cons, trace_nil, ← h.reached,
              ← h.shown]
            simp [cronEntry, cronTrace, taken]
          · intro hmem
            rw [hstep]
            rcases mem_append.1 hmem with hmem | hmem
            · exact h.stopped hmem
            · rw [mem_singleton] at hmem
              subst hmem
              exact (Bool.and_eq_true_iff.1 hsteps).2
        · refine ⟨past, follows_stays h ?_ ?_⟩
          · simp only [step, hsteps, if_true]
            exact Function.update_of_ne (Ne.symm hsame) ..
          · simp only [step, hsteps, if_true, cronEntry, hsame, if_false]
      · refine ⟨past, follows_stays h ?_ ?_⟩
        · simp only [step, hsteps, Bool.false_eq_true, if_false]
        · simp only [step, hsteps, Bool.false_eq_true, if_false, cronEntry]

theorem place_of_cronEnd {result : CronResult .queue Unit} (h : s.cronEnd cron = some (.ok result)) :
    (s.cron cron).place = .finished result := by
  rcases cronEnd_eq_some.1 h with ⟨reason, -, hresult⟩ | ⟨-, other, hplace, hresult⟩
  · cases hresult
  · cases hresult
    exact hplace

/-- A cron succeeds only after the shutdown was requested. -/
theorem requested_of_cron_ok (h : Follows config cron entries s past)
    (hend : s.cronEnd cron = some (.ok (.ok ()))) : s.worker.shutdownRequested = true := by
  have haccounted := (CronReturns.accounted_exec (config.continuousCron cron) past).2
  rw [← h.reached, place_of_cronEnd hend] at haccounted
  obtain ⟨earlier, later, rfl, -⟩ := haccounted
  exact h.stopped (mem_append_right _ mem_cons_self)

/-- What the supervising task knows of the tasks. -/
def InPhase (s : State π) : Prop :=
  match s.phase with
  | .selecting => True
  | .workerStopped worker reclaim =>
      s.worker.shutdownRequested = true ∧ s.workerEnd = some worker ∧
        ∀ cronEnd, reclaim = some cronEnd → s.cronEnd .reclaim = some cronEnd
  | .cronStopped cron already stopped worker =>
      s.worker.shutdownRequested = true ∧ s.cronEnd cron = some stopped ∧
        (stopped = .ok (.ok ()) → already = true) ∧
        ∀ workerEnd, worker = some workerEnd → s.workerEnd = some workerEnd
  | .returned result =>
      s.worker.shutdownRequested = true ∧ ∃ worker reclaim cleanup, s.workerEnd = some worker ∧
        s.cronEnd .reclaim = some reclaim ∧ s.cronEnd .cleanup = some cleanup ∧
        Reports worker reclaim cleanup result

theorem inPhase_congr {s' : State π} (h : InPhase s) (hphase : s'.phase = s.phase)
    (hrequested : s.worker.shutdownRequested = true → s'.worker.shutdownRequested = true)
    (hworker : ∀ worker, s.workerEnd = some worker → s'.workerEnd = some worker)
    (hcron : ∀ cron cronEnd, s.cronEnd cron = some cronEnd → s'.cronEnd cron = some cronEnd) :
    InPhase s' := by
  rw [InPhase] at h ⊢
  rw [hphase]
  split at h
  · trivial
  · obtain ⟨hflag, hend, hreclaim⟩ := h
    exact ⟨hrequested hflag, hworker _ hend, fun cronEnd heq => hcron _ _ (hreclaim cronEnd heq)⟩
  · obtain ⟨hflag, hend, halready, hjoined⟩ := h
    exact ⟨hrequested hflag, hcron _ _ hend, halready, fun workerEnd heq => hworker _ (hjoined _ heq)⟩
  · obtain ⟨hflag, worker, reclaim, cleanup, hworkerEnd, hreclaim, hcleanup, hreports⟩ := h
    exact ⟨hrequested hflag, worker, reclaim, cleanup, hworker _ hworkerEnd, hcron _ _ hreclaim,
      hcron _ _ hcleanup, hreports⟩

theorem inPhase_joinWorker (h : InPhase s) : InPhase (joinWorker s) := by
  have hsame := sameTasks_joinWorker s
  rw [joinWorker] at hsame ⊢
  rw [InPhase] at h
  split at hsame
  · rename_i worker hphase hend
    exact ⟨rfl, hsame.workerEnd.trans hend, by simp⟩
  · rename_i cron already stopped worker hphase hend
    rw [hphase] at h
    obtain ⟨hflag, hstopped, halready, -⟩ := h
    refine ⟨hflag, hsame.cronEnd.trans hstopped, halready, ?_⟩
    rintro workerEnd ⟨⟩
    exact hsame.workerEnd.trans hend
  · exact h

/-- The cron that has stopped first is followed by the other. -/
theorem inPhase_joinCron (h : InPhase s)
    (hstopped : s.cronEnd cron = some (.ok (.ok ())) → s.worker.shutdownRequested = true) :
    InPhase (joinCron cron s) := by
  have hstays : InPhase s := h
  rw [joinCron]
  rw [InPhase] at h
  split
  · rename_i stopped hphase hend
    refine ⟨rfl, hend, ?_, by simp⟩
    rintro rfl
    exact hstopped hend
  · rename_i worker reclaim hphase hend
    rw [hphase] at h
    obtain ⟨hflag, hworker, -⟩ := h
    by_cases hcron : cron = .reclaim
    · rw [if_pos hcron]
      refine ⟨hflag, hworker, ?_⟩
      rintro cronEnd ⟨⟩
      exact hcron ▸ hend
    · rwa [if_neg hcron]
  · rename_i worker reclaim cleanup hphase hend
    rw [hphase] at h
    obtain ⟨hflag, hworker, hreclaim⟩ := h
    by_cases hcron : cron = .cleanup
    · rw [if_pos hcron]
      exact ⟨hflag, worker, reclaim, cleanup, hworker, hreclaim _ rfl, hcron ▸ hend,
        reports_of_perm (.refl _)⟩
    · rwa [if_neg hcron]
  · rename_i first already stopped worker other hphase hend
    rw [hphase] at h
    obtain ⟨hflag, hfirst, halready, hworker⟩ := h
    by_cases hcron : cron = first.other
    · rw [if_pos hcron]
      subst hcron
      refine ⟨hflag, worker, _, _, hworker _ rfl, ?_, ?_, reports_stopped halready⟩
      · cases first with
        | reclaim => exact hfirst
        | cleanup => exact hend
      · cases first with
        | reclaim => exact hend
        | cleanup => exact hfirst
    · rwa [if_neg hcron]
  · exact hstays

theorem inPhase_step (h : InPhase s)
    (hstopped : ∀ cron, s.cronEnd cron = some (.ok (.ok ())) → s.worker.shutdownRequested = true) :
    InPhase (step config event s).1 := by
  cases event with
  | joinsWorker => exact inPhase_joinWorker h
  | joinsCron cron => exact inPhase_joinCron h (hstopped cron)
  | worker | workerPanics | cron | cronPanics =>
      refine inPhase_congr h ?_ requested_step (fun _ => workerEnd_step) fun _ _ => cronEnd_step
      simp only [step]
      split <;> rfl

theorem inv_exec (config : Config) (t : Tables π) (events : List (Event π)) :
    (∀ cron, ∃ past, Follows config cron (trace (step config) events (start t))
      (exec (step config) events (start t)) past) ∧ InPhase (exec (step config) events (start t)) := by
  induction events using reverseRecOn with
  | nil => exact ⟨fun cron => ⟨[], rfl, rfl, by simp⟩, trivial⟩
  | append_singleton events event ih =>
      obtain ⟨hfollows, hphase⟩ := ih
      rw [exec_append, exec_cons, exec_nil, trace_append, trace_cons, trace_nil]
      constructor
      · intro cron
        obtain ⟨past, hpast⟩ := hfollows cron
        exact follows_step event hpast
      · apply inPhase_step hphase
        intro cron hend
        obtain ⟨past, hpast⟩ := hfollows cron
        exact requested_of_cron_ok hpast hend

/-- A cron that has returned has given up each guard that it was given. -/
theorem guards_of_cronEnd (h : Follows config cron entries s past) {result : CronResult .queue Unit}
    (hend : s.cronEnd cron = some (.ok result)) :
    (cronTrace cron entries).countP CronSteps.acquires =
      (cronTrace cron entries).countP CronSteps.givesUp := by
  rw [h.shown, CronReturns.guards_exec, ← h.reached, place_of_cronEnd hend]
  rfl

end Runs

/-- The end of a supervised worker: the shutdown was requested, all three tasks have ended and are
reported, and a cron that has not panicked has given up each guard that it was given. -/
def Ended (entries : List (Event π × Option CronModel.Output)) (s : State π)
    (result : Except RuntimeError WorkerRunLoopSummary) : Prop :=
  s.worker.shutdownRequested = true ∧
    (∃ worker reclaim cleanup, s.workerEnd = some worker ∧ s.cronEnd .reclaim = some reclaim ∧
      s.cronEnd .cleanup = some cleanup ∧ Reports worker reclaim cleanup result) ∧
    ∀ cron, s.cronPanic cron = none →
      (cronTrace cron entries).countP CronSteps.acquires = (cronTrace cron entries).countP CronSteps.givesUp

/-- However the steps of the tasks, of their supervisor and of everybody else interleave. -/
theorem supervised_worker_ends (config : Config) (t : Tables π) (events : List (Event π))
    {result : Except RuntimeError WorkerRunLoopSummary}
    (hreturned : (exec (step config) events (start t)).phase = .returned result) :
    Ended (trace (step config) events (start t)) (exec (step config) events (start t)) result := by
  obtain ⟨hfollows, hphase⟩ := inv_exec config t events
  rw [InPhase, hreturned] at hphase
  obtain ⟨hflag, worker, reclaim, cleanup, hworker, hreclaim, hcleanup, hreports⟩ := hphase
  refine ⟨hflag, ⟨worker, reclaim, cleanup, hworker, hreclaim, hcleanup, hreports⟩, ?_⟩
  intro cron hpanic
  obtain ⟨past, hpast⟩ := hfollows cron
  have hends : ∃ cronEnd, (exec (step config) events (start t)).cronEnd cron = some cronEnd := by
    cases cron with
    | reclaim => exact ⟨_, hreclaim⟩
    | cleanup => exact ⟨_, hcleanup⟩
  obtain ⟨cronEnd, hend⟩ := hends
  rcases cronEnd_eq_some.1 hend with ⟨reason, hpanicked, -⟩ | ⟨-, cronResult, -, rfl⟩
  · rw [hpanic] at hpanicked
    cases hpanicked
  · exact guards_of_cronEnd hpast hend

def sampleConfig : Config := ⟨WorkerLoop.reportWorker, fun _ => CronFencing.sampleCron⟩

/-- The reclaim cron's task panics, and the others are stopped. -/
def reclaimPanics : List (Event Unit) :=
  [.cronPanics .reclaim "index out of bounds", .joinsCron .reclaim, .worker (.startup (.ok false)),
    .joinsWorker, .cron .cleanup .stops, .joinsCron .cleanup]

theorem supervised_worker_ends_panicked :
    Ended (trace (step sampleConfig) reclaimPanics (start .empty))
      (exec (step sampleConfig) reclaimPanics (start .empty))
      (.error (.one (.maintenanceCronTaskJoinFailed "reclaim" "index out of bounds"))) :=
  supervised_worker_ends sampleConfig .empty reclaimPanics rfl

end Paranoid.WorkerMaintenance
