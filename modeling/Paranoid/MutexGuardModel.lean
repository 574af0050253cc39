import Paranoid.LeaseRuns
import Paranoid.ProtocolFailure

namespace Paranoid.MutexGuardModel

open Postgres LeaseModel LeaseStatements LeaseRuns ErrorModel ProtocolFailure

abbrev FleetResult (α : Type) : Type := Except (ErrorValue .fleet) α

abbrev RunResult (t : ErrorType) (α : Type) : Type := Except (ErrorValue (.mutexRun t)) α

def sqlState : SqlError → String
  | .integerOutOfRange => "22003"
  | .bigintOutOfRange => "22003"
  | .intervalOutOfRange => "22008"
  | .timestampOutOfRange => "22008"
  | .checkViolation => "23514"
  | .uniqueViolation => "23505"

/-- The error of the lease store, as the Fleet error that `?` makes of it. -/
def fromCoordination : CoordinationError → ErrorValue .fleet
  | .database error =>
      .fleetCoordination (.coordinationDatabase (.dbQuery (some (sqlState error)) .other))
  | _ => .fleetCoordination .coordinationPlain

/-- The mutex of a guarded run, with what the run was started with. A run that waits tries
again when it finds the mutex held. -/
structure GuardedRun where
  key : Key
  leaseKey : Key
  claimDuration : ClaimDuration
  holderId : HolderId
  maxConsecutiveRenewalFailures : UInt32
  waits : Bool

structure MutexManualRenewalClaim where
  mutexKey : Key
  leaseClaim : Claim
  deriving DecidableEq

def claimFromLeaseClaim (run : GuardedRun) (leaseClaim : Claim) : MutexManualRenewalClaim :=
  ⟨run.key, leaseClaim⟩

def requireClaimMatchesMutex (run : GuardedRun) (claim : MutexManualRenewalClaim) : FleetResult Unit :=
  if claim.mutexKey ≠ run.key ∨ claim.leaseClaim.key ≠ run.leaseKey then .error .fleetPlain else .ok ()

def combineMutexTaskAndReleaseResults {t : ErrorType} {α : Type} :
    RunResult t α → FleetResult Bool → RunResult t α
  | .ok value, .ok true => .ok value
  | .ok _, .ok false => .error .mutexRunLeadershipLost
  | .ok _, .error source => .error (.mutexRunRelease source)
  | .error (.mutexRunTask source), .ok false => .error (.mutexRunTaskAndLeadershipLost source)
  | .error (.mutexRunFleet source), .ok false => .error (.mutexRunFleetAndLeadershipLost source)
  | .error (.mutexRunTask source), .ok true => .error (.mutexRunTask source)
  | .error (.mutexRunTask source), .error releaseError =>
      .error (.mutexRunTaskAndRelease source releaseError)
  | .error (.mutexRunFleet source), .error releaseError =>
      .error (.mutexRunFleetAndRelease source releaseError)
  | .error .mutexRunLeadershipLost, .error releaseError =>
      .error (.mutexRunLeadershipLostAndRelease releaseError)
  | .error error, .ok _ => .error error
  | .error error, .error _ => .error error

def combineMutexGuardStopAndReleaseResults : FleetResult Unit → FleetResult Bool → FleetResult Bool
  | .ok (), .ok released => .ok released
  | .ok (), .error releaseError => .error releaseError
  | .error stopError, .ok _ => .error stopError
  | .error stopError, .error releaseError =>
      .error (.fleetMutexGuardStopAndReleaseFailed (.boxed stopError) (.boxed releaseError))

/-- Where the heartbeat task is. It keeps the lock on the current claim from the renewal
statement until it has taken in the answer. -/
inductive Heartbeat
  | sleeping (consecutiveFailures : UInt32)
  | locking (consecutiveFailures : UInt32)
  | renewing (consecutiveFailures : UInt32) (answer : FleetResult (Option MutexManualRenewalClaim))
  | ended (outcome : Except (ErrorValue .other) Unit)

/-- Where the guarded run is: before it has a guard, in its task, in `try_release` (which
keeps the lock on the current claim while it waits for the answer), in `release`. -/
inductive Progress (t : ErrorType) (α : Type)
  | claiming
  | notGuarded (result : FleetResult Unit)
  | claimed
  | snapshotting
  | running
  | returned (value : α)
  | executed (taskResult : RunResult t α)
  | releasing (taskResult : RunResult t α) (answer : FleetResult Bool)
  | stopping (taskResult : RunResult t α) (released : Bool)
  | tried (taskResult : RunResult t α) (result : FleetResult Bool)
  | joining (taskResult : RunResult t α) (result : FleetResult Bool)
  | finished (result : RunResult t α)

/-- The tables, what the guard and its heartbeat share, and where both are. -/
structure State (t : ErrorType) (α : Type) where
  tables : Tables
  currentClaim : Option MutexManualRenewalClaim
  stopHeartbeat : Bool
  leadershipLost : Bool
  heartbeatTaken : Bool
  heartbeat : Heartbeat
  progress : Progress t α

/-- One step of some party. A call of the lease store fails or has its statement executed
at a timestamp. A call that fails for its caller may have reached the database all the
same, or reach it later: its statement is then one of the others. -/
inductive Event (t : ErrorType) (α : Type)
  | others (input : Input)
  | claims (attempt : FleetResult Int) (leaseToken : Token) (rowVisible : Bool)
  | advances
  | taskReturns (result : Except (ErrorValue t) α)
  | releases (attempt : FleetResult Int)
  | beats
  | isNotified
  | renews (attempt : FleetResult Int) (nextLeaseToken : Token)
  | dies (source : ErrorValue .other)

variable {t : ErrorType} {α : Type}

def start : State t α := ⟨Tables.empty, none, false, false, false, .ended (.ok ()), .claiming⟩

def locked (s : State t α) : Bool :=
  match s.heartbeat, s.progress with
  | .renewing _ _, _ => true
  | _, .releasing _ _ => true
  | _, _ => false

def guardFromClaim (run : GuardedRun) (claim : Claim) (s : State t α) : State t α :=
  { s with
    currentClaim := some (claimFromLeaseClaim run claim)
    stopHeartbeat := false
    leadershipLost := false
    heartbeatTaken := false
    heartbeat := .sleeping 0
    progress := .claimed }

/-- What `stop_heartbeat_loop` returns, when the heartbeat task has ended. -/
def stopHeartbeatLoop (s : State t α) : Option (FleetResult Unit) :=
  match s.heartbeatTaken, s.heartbeat with
  | true, _ => some (.ok ())
  | false, .ended (.ok ()) => some (.ok ())
  | false, .ended (.error source) => some (.error (.fleetFailure .mutexHeartbeatTaskFailed source))
  | false, _ => none

def isProtocolFailure : FleetResult Bool → Bool
  | .ok _ => false
  | .error error => containsProtocolFailure ⟨_, error⟩

/-- What the guarded run does by itself, from one await to the next. -/
def advance (s : State t α) : State t α :=
  match s.progress with
  | .claimed =>
      if s.leadershipLost then { s with progress := .executed (.error .mutexRunLeadershipLost) }
      else { s with progress := .snapshotting }
  | .snapshotting =>
      if locked s then s
      else if s.currentClaim.isNone then { s with progress := .executed (.error .mutexRunLeadershipLost) }
      else { s with progress := .running }
  | .returned value =>
      if s.leadershipLost then { s with progress := .executed (.error .mutexRunLeadershipLost) }
      else { s with progress := .executed (.ok value) }
  | .releasing taskResult (.ok released) =>
      { s with currentClaim := none, stopHeartbeat := true, progress := .stopping taskResult released }
  | .releasing taskResult (.error error) => { s with progress := .tried taskResult (.error error) }
  | .stopping taskResult released =>
      match stopHeartbeatLoop s with
      | none => s
      | some stopResult =>
          { s with
            heartbeatTaken := true
            progress := .tried taskResult
              (combineMutexGuardStopAndReleaseResults stopResult (.ok released)) }
  | .tried taskResult result =>
      if isProtocolFailure result then { s with stopHeartbeat := true, progress := .joining taskResult result }
      else { s with progress := .finished (combineMutexTaskAndReleaseResults taskResult result) }
  | .joining taskResult result =>
      match stopHeartbeatLoop s with
      | none => s
      | some stopResult =>
          { s with
            currentClaim := none
            heartbeatTaken := true
            progress := .finished (combineMutexTaskAndReleaseResults taskResult
              (combineMutexGuardStopAndReleaseResults stopResult result)) }
  | _ => s

def taskReturn (result : Except (ErrorValue t) α) (s : State t α) : State t α :=
  match s.progress, result with
  | .running, .ok value => { s with progress := .returned value }
  | .running, .error source => { s with progress := .executed (.error (.mutexRunTask source)) }
  | _, _ => s

def saturatingSucc (n : UInt32) : UInt32 := if n = 4294967295 then n else n + 1

/-- What the heartbeat loop does by itself, when its sleep is over or its call returns. -/
def beat (run : GuardedRun) (s : State t α) : State t α :=
  match s.heartbeat with
  | .sleeping failures =>
      if s.stopHeartbeat then { s with heartbeat := .ended (.ok ()) } else { s with heartbeat := .locking failures }
  | .locking _ =>
      if locked s then s else if s.currentClaim.isNone then { s with heartbeat := .ended (.ok ()) } else s
  | .renewing _ (.ok (some renewed)) =>
      { s with currentClaim := some renewed, heartbeat := .sleeping 0 }
  | .renewing _ (.ok none) =>
      { s with currentClaim := none, leadershipLost := true, heartbeat := .ended (.ok ()) }
  | .renewing failures (.error error) =>
      if containsProtocolFailure ⟨_, error⟩ then { s with leadershipLost := true, heartbeat := .ended (.ok ()) }
      else if run.maxConsecutiveRenewalFailures ≤ saturatingSucc failures then
        { s with leadershipLost := true, heartbeat := .ended (.ok ()) }
      else { s with heartbeat := .sleeping (saturatingSucc failures) }
  | .ended _ => s

/-- The stop notification wakes the loop from its sleep. -/
def notify (s : State t α) : State t α :=
  match s.heartbeat with
  | .sleeping _ => if s.stopHeartbeat then { s with heartbeat := .ended (.ok ()) } else s
  | _ => s

def die (source : ErrorValue .other) (s : State t α) : State t α :=
  match s.heartbeat with
  | .ended _ => s
  | _ => { s with heartbeat := .ended (.error source) }

def tryClaim (run : GuardedRun) (attempt : FleetResult Int) (leaseToken : Token) (rowVisible : Bool)
    (s : State t α) : State t α × Option Output :=
  match s.progress, attempt with
  | .claiming, .error error => ({ s with progress := .notGuarded (.error error) }, none)
  | .claiming, .ok now =>
      let (tables, result) :=
        Store.tryClaimLease now rowVisible run.leaseKey
          run.holderId leaseToken run.claimDuration s.tables
      let s' : State t α := { s with tables }
      match result with
      | .error error => ({ s' with progress := .notGuarded (.error (fromCoordination error)) },
          some (.claimed result))
      | .ok none =>
          (if run.waits then s' else { s' with progress := .notGuarded (.ok ()) },
            some (.claimed result))
      | .ok (some claim) => (guardFromClaim run claim s', some (.claimed result))
  | _, _ => (s, none)

def tryRenew (run : GuardedRun) (attempt : FleetResult Int) (nextLeaseToken : Token) (s : State t α) :
    State t α × Option Output :=
  match s.heartbeat, s.currentClaim with
  | .locking failures, some claim =>
      if locked s then (s, none)
      else match requireClaimMatchesMutex run claim, attempt with
        | .error error, _ => ({ s with heartbeat := .renewing failures (.error error) }, none)
        | .ok (), .error error => ({ s with heartbeat := .renewing failures (.error error) }, none)
        | .ok (), .ok now =>
            let (tables, result) :=
              Store.tryRenewLease now claim.leaseClaim nextLeaseToken run.claimDuration s.tables
            let answer := (result.mapError fromCoordination).map (Option.map (claimFromLeaseClaim run))
            ({ s with tables, heartbeat := .renewing failures answer }, some (.renewed result))
  | _, _ => (s, none)

def tryRelease (run : GuardedRun) (attempt : FleetResult Int) (s : State t α) :
    State t α × Option Output :=
  match s.progress with
  | .executed taskResult =>
      if locked s then (s, none)
      else match s.currentClaim with
        | none => ({ s with stopHeartbeat := true, progress := .stopping taskResult false }, none)
        | some claim =>
            match requireClaimMatchesMutex run claim, attempt with
            | .error error, _ => ({ s with progress := .releasing taskResult (.error error) }, none)
            | .ok (), .error error =>
                ({ s with progress := .releasing taskResult (.error error) }, none)
            | .ok (), .ok now =>
                let (tables, result) := Store.releaseLease now claim.leaseClaim s.tables
                ({ s with
                  tables, progress := .releasing taskResult (result.mapError fromCoordination) },
                  some (.released result))
  | _ => (s, none)

/-- The output is that of the lease statement, when the step executes one. -/
def step (run : GuardedRun) (event : Event t α) (s : State t α) : State t α × Option Output :=
  match event with
  | .others input =>
      ({ s with tables := (LeaseRuns.step input s.tables).1 }, some (LeaseRuns.step input s.tables).2)
  | .claims attempt leaseToken rowVisible => tryClaim run attempt leaseToken rowVisible s
  | .advances => (advance s, none)
  | .taskReturns result => (taskReturn result s, none)
  | .releases attempt => tryRelease run attempt s
  | .beats => (beat run s, none)
  | .isNotified => (notify s, none)
  | .renews attempt nextLeaseToken => tryRenew run attempt nextLeaseToken s
  | .dies source => (die source s, none)

inductive MutexTryRunTaskResult (α : Type)
  | ran (value : α)
  | mutexHeld

/-- What `try_run_task` returns, once it does. -/
def Progress.result : Progress t α → Option (RunResult t (MutexTryRunTaskResult α))
  | .notGuarded (.ok ()) => some (.ok .mutexHeld)
  | .notGuarded (.error error) => some (.error (.mutexRunFleet error))
  | .finished result => some (result.map .ran)
  | _ => none

end Paranoid.MutexGuardModel
