import Paranoid.RowLocks
import Paranoid.Transitions

namespace Paranoid.OnceModel

open RowLocks

structure OnceCompletion where
  finishedAtUnixMicroseconds : Int
  holderId : String
  fencingToken : Int
  deriving DecidableEq

/-- The errors of a run, those of the database and of the mutex as one. -/
inductive Error
  | runOnceManualRunClaimNoLongerLive
  | runOnceCompletionAlreadyRecordedAfterStart
  | database
  deriving DecidableEq

/-- The results of the ways to run a task, their errors included. -/
inductive Outcome
  | ran
  | alreadyDone (completion : OnceCompletion)
  | alreadyRunning
  | fleet (source : Error)
  | task
  | taskAndRelease (releaseError : Error)
  | taskSucceededButCompletionFailed (source : Error)
  | taskSucceededButCompletionAndReleaseFailed (source releaseError : Error)
  | release (source : Error)
  | taskAndTransactionRollback (rollbackError : Error)
  | taskTransactionRollbackAndRelease (rollbackError releaseError : Error)
  | transactionAndRelease (source releaseError : Error)
  | notStarted
  | markedDone (marked : Bool)
  deriving DecidableEq

/-- A task beside its completion, a task in the transaction of its completion, and a manual
run, which its caller completes. -/
inductive Way
  | plain
  | atomic
  | manual
  deriving DecidableEq

/-- Where a run is, or a reset. The phases at the end wait for the rollback and for the
release of the mutex, and know what these make of the result. -/
inductive Phase
  | idle
  | checking (way : Way) (waits : Bool)
  | claiming (way : Way) (waits : Bool)
  | refused
  | claimed (way : Way)
  | ready (way : Way)
  | running (way : Way)
  | stopping (way : Way)
  | renewing (way : Way)
  | locking (way : Way)
  | deciding (way : Way)
  | leaving (marked : Bool)
  | committing (way : Way) (marked : Bool)
  | rollingBack (next : Except Error Unit → Phase)
  | releasing (finish : Except Error Unit → Outcome)
  | finished (outcome : Outcome)
  | resetClaiming
  | resetDeleting
  | resetLeaving
  | resetCommitting
  | resetFinished (result : Except Error Bool)
  | dead

/-- How a call of the run ends: of the mutex, of the task, of the connection. A commit may
have been made although its reply is lost. -/
inductive Answer
  | yes
  | no
  | fails
  | lost
  deriving DecidableEq

/-- The completion marker of one task, which a reset deletes, and as ghost state how many
resets have been committed, with the runs whose completion and whose task effects have
been committed since each. -/
structure State where
  markers : Table Nat Unit OnceCompletion
  phase : Nat → Phase
  resets : Nat
  completions : List (Nat × Nat)
  effects : List (Nat × Nat)

inductive Event
  | begins (run : Nat) (way : Way) (waits : Bool)
  | beginsReset (run : Nat)
  | proceeds (run : Nat) (answer : Answer)
  | dies (run : Nat)

def start : State where
  markers := .start fun _ => none
  phase := fun _ => .idle
  resets := 0
  completions := []
  effects := []

def State.enter (s : State) (run : Nat) (phase : Phase) : State :=
  { s with phase := Function.update s.phase run phase }

def rolledBack : Answer → Except Error Unit
  | .yes => .ok ()
  | _ => .error .database

def requireOnceTaskMutexReleased : Answer → Except Error Unit
  | .yes => .ok ()
  | .no => .error .runOnceManualRunClaimNoLongerLive
  | _ => .error .database

def releaseAfterAlreadyDone (completion : OnceCompletion) : Except Error Unit → Outcome
  | .ok () => .alreadyDone completion
  | .error source => .fleet source

def releaseAfterTaskError : Except Error Unit → Outcome
  | .ok () => .task
  | .error releaseError => .taskAndRelease releaseError

def releaseAfterFleetError (source : Error) : Except Error Unit → Outcome
  | .ok () => .fleet source
  | .error releaseError => .fleet releaseError

def releaseAfterCompletionFailed (source : Error) : Except Error Unit → Outcome
  | .ok () => .taskSucceededButCompletionFailed source
  | .error releaseError => .taskSucceededButCompletionAndReleaseFailed source releaseError

def releaseAfterCompleted : Except Error Unit → Outcome
  | .ok () => .ran
  | .error source => .release source

def releaseAfterFailedTransaction (source : Error) : Except Error Unit → Outcome
  | .ok () => .fleet source
  | .error releaseError => .transactionAndRelease source releaseError

def rollbackAndReleaseAfterAlreadyDone (completion : OnceCompletion) : Except Error Unit → Phase
  | .ok () => .releasing fun
      | .ok () => .alreadyDone completion
      | .error source => .release source
  | .error source => .releasing (releaseAfterFailedTransaction source)

def rollbackTransactionAndReleaseAfterTaskError : Except Error Unit → Phase
  | .ok () => .releasing releaseAfterTaskError
  | .error rollbackError => .releasing fun
      | .ok () => .taskAndTransactionRollback rollbackError
      | .error releaseError => .taskTransactionRollbackAndRelease rollbackError releaseError

def rollbackTransactionAndReleaseAfterFleetError (source : Error) : Except Error Unit → Phase
  | .ok () => .releasing (releaseAfterFailedTransaction source)
  | .error rollbackError => .releasing (releaseAfterFailedTransaction rollbackError)

/-- After the heartbeat has been stopped, a rollback error counts as one of the release
where the release has succeeded. -/
def rollbackAndReleaseAfterStopped (source : Error) : Except Error Unit → Phase
  | .ok () => .releasing (releaseAfterFailedTransaction source)
  | .error rollbackError => .releasing fun
      | .ok () => .transactionAndRelease source rollbackError
      | .error releaseError => .transactionAndRelease rollbackError releaseError

def rollbackTransactionAfterStoppedGuardWithoutClaim (source : Error) : Except Error Unit → Phase
  | .ok () => .finished (.fleet source)
  | .error rollbackError => .finished (.fleet rollbackError)

/-- An error drops the transaction, and with it what it has done. -/
def State.drops (s : State) (run : Nat) (phase : Phase) : State :=
  { s with markers := s.markers.abort run }.enter run phase

def checkDone (s : State) (run : Nat) (answer : Answer)
    (found : OnceCompletion → Phase) (absent : Phase) : State :=
  if answer = .fails then s.drops run (.finished (.fleet .database))
  else match s.markers.row run () with
    | some completion => s.enter run (found completion)
    | none => s.enter run absent

/-- The start of a run, and the check again where its claim has been refused. -/
def tryStart (s : State) (run : Nat) (answer : Answer) : Phase → State
  | .checking way waits => checkDone s run answer
      (fun completion => .finished
        (if way = .manual then .notStarted else .alreadyDone completion)) (.claiming way waits)
  | .claiming way waits =>
      match answer with
      | .yes => s.enter run (.claimed way)
      | .no =>
          if way = .manual then s.enter run (.finished .notStarted)
          else if waits then s else s.enter run .refused
      | _ => s.enter run (.finished (.fleet .database))
  | .refused => checkDone s run answer
      (fun completion => .finished (.alreadyDone completion)) (.finished .alreadyRunning)
  | _ => s

def runTaskAfterAcquiringGuard (s : State) (run : Nat) (answer : Answer) : Phase → State
  | .claimed .plain =>
      checkDone s run answer
      (fun completion => .releasing (releaseAfterAlreadyDone completion)) (.ready .plain)
  | .ready .plain =>
      if answer = .yes then s.enter run (.running .plain)
      else s.enter run (.releasing (releaseAfterFleetError .runOnceManualRunClaimNoLongerLive))
  | .running .plain =>
      if answer = .yes then s.enter run (.stopping .plain) else s.enter run (.releasing releaseAfterTaskError)
  | .stopping .plain =>
      if answer = .yes then s.enter run (.locking .plain)
      else s.enter run (.releasing (releaseAfterCompletionFailed .runOnceManualRunClaimNoLongerLive))
  | _ => s

def runTaskAtomicallyAfterAcquiringGuard (s : State) (run : Nat) (answer : Answer) : Phase → State
  | .claimed .atomic => checkDone s run answer
      (fun completion => .rollingBack (rollbackAndReleaseAfterAlreadyDone completion)) (.ready .atomic)
  | .ready .atomic =>
      if answer = .yes then s.enter run (.running .atomic)
      else s.enter run (.rollingBack
        (rollbackTransactionAndReleaseAfterFleetError .runOnceManualRunClaimNoLongerLive))
  | .running .atomic =>
      if answer = .yes then s.enter run (.stopping .atomic)
      else s.enter run (.rollingBack rollbackTransactionAndReleaseAfterTaskError)
  | .stopping .atomic =>
      match answer with
      | .yes => s.enter run (.renewing .atomic)
      | .no => s.enter run (.rollingBack
          (rollbackTransactionAfterStoppedGuardWithoutClaim .runOnceManualRunClaimNoLongerLive))
      | _ => s.enter run (.rollingBack (rollbackAndReleaseAfterStopped .database))
  | .renewing .atomic =>
      match answer with
      | .yes => s.enter run (.locking .atomic)
      | .no => s.enter run
          (.rollingBack (rollbackAndReleaseAfterStopped .runOnceManualRunClaimNoLongerLive))
      | _ => s.drops run (.finished (.fleet .database))
  | _ => s

/-- A manual run: its caller may never complete it. -/
def markDoneAndReleaseManualRun (s : State) (run : Nat) (answer : Answer) : Phase → State
  | .claimed .manual => checkDone s run answer
      (fun _ => .releasing fun
        | .ok () => .notStarted
        | .error source => .fleet source) (.renewing .manual)
  | .renewing .manual =>
      match answer with
      | .yes => s.enter run (.locking .manual)
      | .no => s.drops run (.finished (.fleet .runOnceManualRunClaimNoLongerLive))
      | _ => s.drops run (.finished (.fleet .database))
  | .leaving marked =>
      match requireOnceTaskMutexReleased answer with
      | .ok () => s.enter run (.committing .manual marked)
      | .error source => s.drops run (.finished (.fleet source))
  | _ => s

/-- What follows an error of the marking. -/
def State.unmarked (s : State) (run : Nat) : Way → State
  | .plain => s.drops run (.releasing (releaseAfterCompletionFailed .database))
  | _ => s.drops run (.finished (.fleet .database))

def afterMarking : Way → Bool → Phase
  | .plain, marked => .committing .plain marked
  | .manual, marked => .leaving marked
  | .atomic, true => .committing .atomic true
  | .atomic, false =>
      .rollingBack (rollbackAndReleaseAfterStopped .runOnceCompletionAlreadyRecordedAfterStart)

/-- The marking locks the row, a placeholder where it is absent, and keeps a marker that
it finds. -/
def markCompletion (completion : Nat → OnceCompletion) (s : State) (run : Nat) (answer : Answer) :
    Phase → State
  | .locking way =>
      if answer = .fails then s.unmarked run way
      else if s.markers.free run () then { s with markers := s.markers.lock run () }.enter run (.deciding way)
      else s
  | .deciding way =>
      if answer = .fails then s.unmarked run way
      else match s.markers.row run () with
        | some _ => s.enter run (afterMarking way false)
        | none =>
            { s with
              markers := s.markers.writeWhere run (fun _ => true) (some (completion run)) }.enter run
              (afterMarking way true)
  | _ => s

/-- After a commit, and after one whose reply is an error. -/
def afterCommit : Way → Bool → Phase
  | .plain, true | .atomic, _ => .releasing releaseAfterCompleted
  | .plain, false =>
      .releasing (releaseAfterCompletionFailed .runOnceCompletionAlreadyRecordedAfterStart)
  | .manual, marked => .finished (.markedDone marked)

def afterFailedCommit : Way → Phase
  | .plain => .releasing (releaseAfterCompletionFailed .database)
  | .atomic => .releasing (releaseAfterFailedTransaction .database)
  | .manual => .finished (.fleet .database)

def State.commits (s : State) (run : Nat) (way : Way) (marked : Bool) (phase : Phase) : State :=
  { s with
    markers := s.markers.commit run
    completions := if marked then s.completions ++ [(s.resets, run)] else s.completions
    effects := if way = Way.atomic then s.effects ++ [(s.resets, run)] else s.effects }.enter run phase

def finish (s : State) (run : Nat) (answer : Answer) : Phase → State
  | .committing way marked =>
      match answer with
      | .yes => s.commits run way marked (afterCommit way marked)
      | .lost => s.commits run way marked (afterFailedCommit way)
      | _ => s.drops run (afterFailedCommit way)
  | .rollingBack next => s.drops run (next (rolledBack answer))
  | .releasing finish => s.enter run (.finished (finish (requireOnceTaskMutexReleased answer)))
  | _ => s

/-- The deletion waits for another that has the marker. It does not see one that another
has not committed. -/
def tryReset (s : State) (run : Nat) (answer : Answer) : Phase → State
  | .resetClaiming =>
      match answer with
      | .yes => s.enter run .resetDeleting
      | .no => s.drops run (.resetFinished (.ok false))
      | _ => s.drops run (.resetFinished (.error .database))
  | .resetDeleting =>
      if answer = .fails then s.drops run (.resetFinished (.error .database))
      else match s.markers.row run () with
        | none => s.enter run .resetLeaving
        | some _ =>
            if s.markers.free run () then
              { s with markers := s.markers.writeWhere run (fun _ => true) none }.enter
                run .resetLeaving
            else s
  | .resetLeaving =>
      match requireOnceTaskMutexReleased answer with
      | .ok () => s.enter run .resetCommitting
      | .error source => s.drops run (.resetFinished (.error source))
  | .resetCommitting =>
      let committed := { s with markers := s.markers.commit run, resets := s.resets + 1 }
      match answer with
      | .yes => committed.enter run (.resetFinished (.ok true))
      | .lost => committed.enter run (.resetFinished (.error .database))
      | _ => s.drops run (.resetFinished (.error .database))
  | _ => s

def proceed (completion : Nat → OnceCompletion) (s : State) (run : Nat) (answer : Answer) : State :=
  let phase := s.phase run
  match phase with
  | .checking _ _ | .claiming _ _ | .refused => tryStart s run answer phase
  | .claimed way | .ready way | .running way | .stopping way | .renewing way =>
      match way with
      | .plain => runTaskAfterAcquiringGuard s run answer phase
      | .atomic => runTaskAtomicallyAfterAcquiringGuard s run answer phase
      | .manual => markDoneAndReleaseManualRun s run answer phase
  | .leaving _ => markDoneAndReleaseManualRun s run answer phase
  | .locking _ | .deciding _ => markCompletion completion s run answer phase
  | .committing _ _ | .rollingBack _ | .releasing _ => finish s run answer phase
  | .resetClaiming | .resetDeleting | .resetLeaving | .resetCommitting => tryReset s run answer phase
  | .idle | .finished _ | .resetFinished _ | .dead => s

/-- Runs and resets of one task, any number of them, in any order of their steps. The
mutex answers as it likes: it may be lost, taken over and won at any time. -/
def step (completion : Nat → OnceCompletion) (event : Event) (s : State) : State × Unit :=
  match event with
  | .begins run way waits =>
      match s.phase run with
      | .idle => (s.enter run (.checking way waits), ())
      | _ => (s, ())
  | .beginsReset run =>
      match s.phase run with
      | .idle => (s.enter run .resetClaiming, ())
      | _ => (s, ())
  | .proceeds run answer => (proceed completion s run answer, ())
  | .dies run => (s.drops run .dead, ())

end Paranoid.OnceModel
