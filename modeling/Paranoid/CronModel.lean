import Paranoid.MutexGuardModel

namespace Paranoid.CronModel

open MutexGuardModel hiding step start advance State Event
open LeaseModel LeaseStatements ErrorModel

abbrev CronResult (t : ErrorType) (α : Type) : Type := Except (ErrorValue (.cronRun t)) α

/-- The cron's task and its mutex's task fail in the same ways, each with its own type. -/
def cronRunError {t : ErrorType} : ErrorValue (.mutexRun t) → ErrorValue (.cronRun t)
  | .mutexRunFleet error => .cronRunFleet error
  | .mutexRunFleetAndLeadershipLost source => .cronRunFleetAndLeadershipLost source
  | .mutexRunFleetAndRelease source releaseError => .cronRunFleetAndRelease source releaseError
  | .mutexRunLeadershipLost => .cronRunLeadershipLost
  | .mutexRunLeadershipLostAndRelease releaseError => .cronRunLeadershipLostAndRelease releaseError
  | .mutexRunTask source => .cronRunTask source
  | .mutexRunTaskAndLeadershipLost source => .cronRunTaskAndLeadershipLost source
  | .mutexRunRelease source => .cronRunRelease source
  | .mutexRunTaskAndRelease source releaseError => .cronRunTaskAndRelease source releaseError

def combineCronTaskAndReleaseResults {t : ErrorType} {α : Type} :
    CronResult t α → FleetResult Bool → CronResult t α
  | .ok value, .ok true => .ok value
  | .ok _, .ok false => .error .cronRunLeadershipLost
  | .ok _, .error source => .error (.cronRunRelease source)
  | .error (.cronRunTask source), .ok false => .error (.cronRunTaskAndLeadershipLost source)
  | .error (.cronRunFleet source), .ok false => .error (.cronRunFleetAndLeadershipLost source)
  | .error (.cronRunTask source), .ok true => .error (.cronRunTask source)
  | .error (.cronRunTask source), .error releaseError =>
      .error (.cronRunTaskAndRelease source releaseError)
  | .error (.cronRunFleet source), .error releaseError =>
      .error (.cronRunFleetAndRelease source releaseError)
  | .error .cronRunLeadershipLost, .error releaseError =>
      .error (.cronRunLeadershipLostAndRelease releaseError)
  | .error error, .ok _ => .error error
  | .error error, .error _ => .error error

inductive CronTaskErrorAction
  | continue
  | stop
  deriving DecidableEq

inductive CronLeadershipTenureOutcome
  | stopRequested
  | leadershipLost
  deriving DecidableEq

def releaseCronGuardAfterLeadershipLost {t : ErrorType} :
    FleetResult Bool → CronResult t CronLeadershipTenureOutcome
  | .ok _ => .ok .leadershipLost
  | .error releaseError => .error (.cronRunLeadershipLostAndRelease releaseError)

def sqlstateSerializationFailure : String := "40001"
def sqlstateDeadlockDetected : String := "40P01"
def sqlstateQueryCanceled : String := "57014"
def sqlstateAdminShutdown : String := "57P01"
def sqlstateCrashShutdown : String := "57P02"
def sqlstateCannotConnectNow : String := "57P03"
def sqlstateLockNotAvailable : String := "55P03"

/-- The first two bytes of the code are its class. -/
def hasClass (code class' : String) : Bool := class'.toList.isPrefixOf code.toList

def isRetryableDatabaseOperationError : ErrorValue .db → Bool
  | .dbTransaction _ => true
  | .dbQuery (some code) _ =>
      code = sqlstateSerializationFailure || code = sqlstateDeadlockDetected ||
        hasClass code "08" || hasClass code "53" || hasClass code "58" ||
        code ∈ [sqlstateQueryCanceled, sqlstateAdminShutdown, sqlstateCrashShutdown,
          sqlstateCannotConnectNow, sqlstateLockNotAvailable]
  | .dbQuery none _ => true
  | _ => false

def isRetryableCronLeadershipAcquireError : ErrorValue .fleet → Bool
  | .fleetDatabase source => isRetryableDatabaseOperationError source
  | .fleetCoordination (.coordinationDatabase source) => isRetryableDatabaseOperationError source
  | _ => false

/-- A cron, and whether it is run for one tenure of leadership or continuously. -/
structure Cron where
  key : Key
  leaseKey : Key
  claimDuration : ClaimDuration
  maxConsecutiveRenewalFailures : UInt32
  continuous : Bool

/-- A call of `claim_guard_when_available` draws a holder id and waits under it. -/
def Cron.mutex (cron : Cron) (holderId : HolderId) : GuardedRun where
  key := cron.key
  leaseKey := cron.leaseKey
  claimDuration := cron.claimDuration
  holderId := holderId
  maxConsecutiveRenewalFailures := cron.maxConsecutiveRenewalFailures
  waits := true

structure MutexGuardSnapshot where
  mutexKey : Key
  holderId : HolderId
  fencingToken : FencingToken
  expiresAtUnixMicroseconds : Int
  deriving DecidableEq

def guardSnapshot (claim : MutexManualRenewalClaim) : MutexGuardSnapshot where
  mutexKey := claim.mutexKey
  holderId := claim.leaseClaim.holderId
  fencingToken := claim.leaseClaim.fencingToken
  expiresAtUnixMicroseconds := claim.leaseClaim.expiresAtUnixMicroseconds

/-- Why a tenure gives up its guard. -/
inductive Ending (t : ErrorType)
  | stopRequested
  | leadershipLost
  | failed (error : ErrorValue (.cronRun t))

/-- Where a tenure is: in `execute_task_while_guarded`, in the select between two runs of
the task, in `guard.release()`. -/
inductive Phase (t : ErrorType)
  | executing
  | pausing
  | releasing (ending : Ending t)

/-- Where the cron is. The delay after a retryable error of the acquisition and the one
before the next tenure are drawn and slept in the same way. -/
inductive Place (t : ErrorType)
  | acquiring
  | claiming (holderId : HolderId)
  | delaying
  | waiting
  | guarded (holderId : HolderId) (phase : Phase t)
  | finished (result : CronResult t Unit)

/-- The tables with the guard of the tenure, and where the cron is. -/
structure State (t : ErrorType) where
  guard : MutexGuardModel.State t Unit
  place : Place t

/-- One step of some party. The stop future may be found resolved wherever the cron polls
it, and only there. A claim statement whose future is dropped is one of the others. -/
inductive Event (t : ErrorType)
  | others (input : LeaseRuns.Input)
  | generates (result : FleetResult HolderId)
  | claims (attempt : FleetResult Int) (leaseToken : Token) (rowVisible : Bool)
  | stops
  | delays (result : FleetResult Unit)
  | elapses
  | advances
  | taskReturns (result : Except (ErrorValue t) Unit)
  | decides (action : CronTaskErrorAction)
  | noticesLoss
  | releases (attempt : FleetResult Int)
  | beats
  | isNotified
  | renews (attempt : FleetResult Int) (nextLeaseToken : Token)
  | dies (source : ErrorValue .other)

/-- What a step shows: a lease statement with its answer, the snapshot that a run of the
task is started with, or what `guard.release()` returns. -/
inductive Output
  | nothing
  | statement (out : LeaseRuns.Output)
  | starts (snapshot : MutexGuardSnapshot)
  | released (result : FleetResult Bool)

variable {t : ErrorType}

def ofStatement : Option LeaseRuns.Output → Output
  | none => .nothing
  | some out => .statement out

def start : State t := ⟨MutexGuardModel.start, .acquiring⟩

def noGuard (tables : Tables) : MutexGuardModel.State t Unit :=
  { MutexGuardModel.start with tables }

def generate (result : FleetResult HolderId) (s : State t) : State t :=
  match s.place, result with
  | .acquiring, .ok holderId => ⟨noGuard s.guard.tables, .claiming holderId⟩
  | .acquiring, .error error => { s with place := .finished (.error (.cronRunFleet error)) }
  | _, _ => s

/-- Where the answer of a claim leaves the cron. -/
def placeAfterClaim (holderId : HolderId) : Progress t Unit → Place t
  | .claimed => .guarded holderId .executing
  | .notGuarded (.error error) =>
      if isRetryableCronLeadershipAcquireError error then .delaying
      else .finished (.error (.cronRunFleet error))
  | _ => .claiming holderId

def tryClaim (cron : Cron) (attempt : FleetResult Int) (leaseToken : Token) (rowVisible : Bool)
    (s : State t) : State t × Output :=
  match s.place with
  | .claiming holderId =>
      let (guard, out) := MutexGuardModel.step (cron.mutex holderId)
        (.claims attempt leaseToken rowVisible) s.guard
      (⟨guard, placeAfterClaim holderId guard.progress⟩, ofStatement out)
  | _ => (s, .nothing)

def stop (s : State t) : State t :=
  match s.place with
  | .acquiring => { s with place := .finished (.ok ()) }
  | .claiming _ => { s with place := .finished (.ok ()) }
  | .waiting => { s with place := .finished (.ok ()) }
  | .guarded holderId .pausing => { s with place := .guarded holderId (.releasing .stopRequested) }
  | _ => s

def delay (result : FleetResult Unit) (s : State t) : State t :=
  match s.place, result with
  | .delaying, .ok () => { s with place := .waiting }
  | .delaying, .error error => { s with place := .finished (.error (.cronRunFleet error)) }
  | _, _ => s

def elapse (s : State t) : State t :=
  match s.place with
  | .waiting => { s with place := .acquiring }
  | .guarded holderId .pausing =>
      ⟨{ s.guard with progress := .claimed }, .guarded holderId .executing⟩
  | _ => s

/-- The error that the task has returned, when it has. -/
def taskFailure : Progress t Unit → Option (ErrorValue t)
  | .executed (.error (.mutexRunTask source)) => some source
  | _ => none

/-- The answer of `on_task_error` to the error that the task has returned. -/
def decideTaskError (action : CronTaskErrorAction) (s : State t) : State t :=
  match s.place, taskFailure s.guard.progress, action with
  | .guarded holderId .executing, some source, .stop =>
      { s with place := .guarded holderId (.releasing (.failed (.cronRunTask source))) }
  | .guarded holderId .executing, some _, .continue =>
      if s.guard.leadershipLost then
        { s with place := .guarded holderId (.releasing .leadershipLost) }
      else { s with place := .guarded holderId .pausing }
  | _, _, _ => s

def noticeLoss (s : State t) : State t :=
  match s.place with
  | .guarded holderId .pausing =>
      if s.guard.leadershipLost then
        { s with place := .guarded holderId (.releasing .leadershipLost) }
      else s
  | _ => s

def tenureOutcome (ending : Ending t) (released : FleetResult Bool) :
    CronResult t CronLeadershipTenureOutcome :=
  match ending with
  | .stopRequested => (released.mapError .cronRunRelease).map fun _ => .stopRequested
  | .leadershipLost => releaseCronGuardAfterLeadershipLost released
  | .failed (.cronRunTask source) =>
      combineCronTaskAndReleaseResults (.error (.cronRunTask source)) released
  | .failed error =>
      (combineCronTaskAndReleaseResults (.error error) released).map
        fun () => .leadershipLost

/-- Where the outcome of a tenure leaves the cron. -/
def placeAfterTenure (cron : Cron) : CronResult t CronLeadershipTenureOutcome → Place t
  | .error error => .finished (.error error)
  | .ok .stopRequested => .finished (.ok ())
  | .ok .leadershipLost =>
      if cron.continuous then .delaying else .finished (.error .cronRunLeadershipLost)

/-- What `guard.release()` returns, once it does. -/
def releaseReturn (guard : MutexGuardModel.State t Unit) : Option (FleetResult Bool) :=
  match guard.progress with
  | .tried _ result => if isProtocolFailure result then none else some result
  | .joining _ result =>
      (stopHeartbeatLoop guard).map fun stopResult =>
        combineMutexGuardStopAndReleaseResults stopResult result
  | _ => none

/-- The run of the task that starts with this step of the guard. -/
def startedSnapshot (guard : MutexGuardModel.State t Unit) : Output :=
  match guard.progress, (MutexGuardModel.advance guard).progress, guard.currentClaim with
  | .snapshotting, .running, some claim => .starts (guardSnapshot claim)
  | _, _, _ => .nothing

/-- The next phase, when `execute_task_while_guarded` has returned something else than an
error of the task. -/
def phaseAfterTask : RunResult t Unit → Phase t
  | .ok () => .pausing
  | .error .mutexRunLeadershipLost => .releasing .leadershipLost
  | .error (.mutexRunTask _) => .executing
  | .error error => .releasing (.failed (cronRunError error))

/-- What the cron does by itself, from one await to the next. -/
def advance (cron : Cron) (s : State t) : State t × Output :=
  match s.place with
  | .guarded holderId .executing =>
      match s.guard.progress with
      | .executed result => ({ s with place := .guarded holderId (phaseAfterTask result) }, .nothing)
      | _ => ({ s with guard := MutexGuardModel.advance s.guard }, startedSnapshot s.guard)
  | .guarded _ (.releasing ending) =>
      match releaseReturn s.guard with
      | none => ({ s with guard := MutexGuardModel.advance s.guard }, .nothing)
      | some result =>
          (⟨noGuard s.guard.tables, placeAfterTenure cron (tenureOutcome ending result)⟩,
            .released result)
  | _ => (s, .nothing)

def onGuard (cron : Cron) (event : MutexGuardModel.Event t Unit) (s : State t) : State t × Output :=
  match s.place with
  | .guarded holderId _ =>
      let (guard, out) := MutexGuardModel.step (cron.mutex holderId) event s.guard
      ({ s with guard }, ofStatement out)
  | _ => (s, .nothing)

def release (cron : Cron) (attempt : FleetResult Int) (s : State t) : State t × Output :=
  match s.place with
  | .guarded _ (.releasing _) => onGuard cron (.releases attempt) s
  | _ => (s, .nothing)

def step (cron : Cron) (event : Event t) (s : State t) : State t × Output :=
  match event with
  | .others input =>
      ({ s with guard := { s.guard with tables := (LeaseRuns.step input s.guard.tables).1 } },
        .statement (LeaseRuns.step input s.guard.tables).2)
  | .generates result => (generate result s, .nothing)
  | .claims attempt leaseToken rowVisible => tryClaim cron attempt leaseToken rowVisible s
  | .stops => (stop s, .nothing)
  | .delays result => (delay result s, .nothing)
  | .elapses => (elapse s, .nothing)
  | .advances => advance cron s
  | .taskReturns result => onGuard cron (.taskReturns result) s
  | .decides action => (decideTaskError action s, .nothing)
  | .noticesLoss => (noticeLoss s, .nothing)
  | .releases attempt => release cron attempt s
  | .beats => onGuard cron .beats s
  | .isNotified => onGuard cron .isNotified s
  | .renews attempt nextLeaseToken => onGuard cron (.renews attempt nextLeaseToken) s
  | .dies source => onGuard cron (.dies source) s

end Paranoid.CronModel
