import Mathlib.Algebra.Ring.Nat
import Mathlib.Logic.Function.Basic
import Paranoid.Transitions

namespace Paranoid.LocalLockModel

def acquireRetryLimit : Nat := 3

/-- In nanoseconds, as all times here. -/
def invalidLockStaleAfter : Nat := 1200000000

structure LeaseRecord where
  ownerId : Nat
  pid : Nat
  lastHeartbeatUnixNano : Nat
  deriving DecidableEq

/-- The text of a lease record, or any other text, of which 0 is the empty one. -/
inductive Content
  | record (record : LeaseRecord)
  | other (text : Nat)
  deriving DecidableEq

structure File where
  content : Content
  modified : Nat
  deriving DecidableEq

structure LeaseSnapshot where
  content : Content
  modified : Nat
  deriving DecidableEq

/-- What a snapshot is read for: to take a lock that may be stale, with so many attempts
left, or to remove one's own. -/
inductive Purpose
  | acquiring (left : Nat)
  | releasing
  deriving DecidableEq

/-- Where a process is, call by call of the file system. -/
inductive Phase
  | idle
  | creating (left : Nat)
  | building (file : Nat)
  | writing (file : Nat) (record : LeaseRecord)
  | cleaning
  | reading (purpose : Purpose)
  | statting (purpose : Purpose) (content : Content)
  | judging (purpose : Purpose) (snapshot : LeaseSnapshot)
  | rereading (purpose : Purpose) (snapshot : LeaseSnapshot)
  | removing (purpose : Purpose) (snapshot : LeaseSnapshot)
  | starting
  | holding
  | refused
  | stopping (owned : Bool)
  | released
  | dead
  deriving DecidableEq

/-- Where its heartbeat thread is. -/
inductive Heartbeat
  | off
  | waiting
  | opening
  | reading (file : Nat)
  | comparing (file : Nat) (record : LeaseRecord)
  | building (file : Nat) (record : LeaseRecord)
  | truncating (file : Nat) (record : LeaseRecord)
  | writing (file : Nat) (record : LeaseRecord)
  | verifying (file : Nat)
  | losing
  | callback
  | ended
  deriving DecidableEq

/-- A process, which acquires the lock once; the file that it has created is ghost state. -/
structure Process where
  phase : Phase
  heartbeat : Heartbeat
  held : Bool
  lockLost : Bool
  created : Option Nat

/-- The clock, the file at the path, and all files with or without a name. -/
structure State where
  now : Nat
  path : Option Nat
  files : Nat → File
  next : Nat
  process : Nat → Process

/-- A call succeeds or fails. The clock may be set to any time. -/
inductive Event
  | clock (now : Nat)
  | acquires (p : Nat)
  | proceeds (p : Nat) (ok : Bool)
  | beats (p : Nat) (ok : Bool)
  | releases (p : Nat)
  | dies (p : Nat)

/-- The lock file is there before, with any content, or is not. -/
def start (now : Nat) (file : Option File) : State where
  now := now
  path := file.map fun _ => 0
  files := Function.update (fun _ => ⟨.other 0, now⟩) 0 (file.getD ⟨.other 0, now⟩)
  next := 1
  process := fun _ => ⟨.idle, .off, false, false, none⟩

def State.change (s : State) (p : Nat) (f : Process → Process) : State :=
  { s with process := Function.update s.process p (f (s.process p)) }

def State.enter (s : State) (p : Nat) (phase : Phase) : State :=
  s.change p fun process => { process with phase }

def State.write (s : State) (file : Nat) (content : Content) : State :=
  { s with files := Function.update s.files file ⟨content, s.now⟩ }

/-- A new file, which is empty, at the path. -/
def State.create (s : State) (p : Nat) : State where
  now := s.now
  path := some s.next
  files := Function.update s.files s.next ⟨.other 0, s.now⟩
  next := s.next + 1
  process := Function.update s.process p
    { s.process p with phase := .building s.next, created := some s.next }

/-- A record of the version and with a heartbeat that fits 64 bits. -/
def parseLeaseRecord : Content → Option LeaseRecord
  | .record record =>
      if 0 < record.pid ∧ 0 < record.lastHeartbeatUnixNano ∧ record.lastHeartbeatUnixNano < 2 ^ 64 then some record else none
  | .other _ => none

/-- No time has elapsed since a time in the future. -/
def isLeaseStale (now threshold : Nat) (record : LeaseRecord) : Bool :=
  threshold ≤ now - record.lastHeartbeatUnixNano

def isInvalidLockStale (now modified : Nat) : Bool := invalidLockStaleAfter ≤ now - modified

/-- The owner id is that of the process's one call to acquire. -/
def buildLeaseRecord (now p : Nat) : LeaseRecord := ⟨p, p + 1, now⟩

/-- What follows where nothing could be removed, or has been. -/
def afterRemoval : Purpose → Phase
  | .acquiring left => if left ≤ 1 then .refused else .creating (left - 1)
  | .releasing => .released

def afterError : Purpose → Phase
  | .acquiring _ => .refused
  | .releasing => .released

def tryCreate (s : State) (p : Nat) (ok : Bool) : Phase → State
  | .creating left =>
      if !ok then s.enter p .refused
      else match s.path with
        | some _ => s.enter p (.reading (.acquiring left))
        | none => s.create p
  | .building file => s.enter p (.writing file (buildLeaseRecord s.now p))
  | .writing file record =>
      if ok then (s.write file (.record record)).enter p .starting else s.enter p .cleaning
  | .cleaning => { s with path := if ok then none else s.path }.enter p .refused
  | _ => s

/-- The contents and the time of change are read one after the other. -/
def readSnapshot (s : State) (p : Nat) (ok : Bool) : Phase → State
  | .reading purpose =>
      if !ok then s.enter p (afterError purpose)
      else match s.path with
        | none => s.enter p (afterRemoval purpose)
        | some file => s.enter p (.statting purpose (s.files file).content)
  | .statting purpose content =>
      if !ok then s.enter p (afterError purpose)
      else match s.path with
        | none => s.enter p (afterRemoval purpose)
        | some file => s.enter p (.judging purpose ⟨content, (s.files file).modified⟩)
  | _ => s

/-- A stale lock, a stale invalid one, or on release the process's own. -/
def judges (staleAfter : Nat → Nat) (now p : Nat) (snapshot : LeaseSnapshot) : Purpose → Bool
  | .acquiring _ =>
      match parseLeaseRecord snapshot.content with
      | some record => isLeaseStale now (staleAfter p) record
      | none => isInvalidLockStale now snapshot.modified
  | .releasing =>
      match parseLeaseRecord snapshot.content with
      | some record => record.ownerId = p
      | none => false

/-- The file is read again, and what is at the path then is removed. -/
def tryRemoveIfUnchanged (s : State) (p : Nat) (ok : Bool) : Phase → State
  | .rereading purpose snapshot =>
      if !ok then s.enter p (afterError purpose)
      else match s.path with
        | none => s.enter p (afterRemoval purpose)
        | some file =>
            if (s.files file).content = snapshot.content then s.enter p (.removing purpose snapshot)
            else s.enter p (afterRemoval purpose)
  | .removing purpose _ =>
      if !ok then s.enter p (afterError purpose) else { s with path := none }.enter p (afterRemoval purpose)
  | _ => s

def proceed (staleAfter : Nat → Nat) (s : State) (p : Nat) (ok : Bool) : State :=
  match (s.process p).phase with
  | .creating left => tryCreate s p ok (.creating left)
  | .building file => tryCreate s p ok (.building file)
  | .writing file record => tryCreate s p ok (.writing file record)
  | .cleaning => tryCreate s p ok .cleaning
  | .reading purpose => readSnapshot s p ok (.reading purpose)
  | .statting purpose content => readSnapshot s p ok (.statting purpose content)
  | .judging purpose snapshot =>
      if judges staleAfter s.now p snapshot purpose then s.enter p (.rereading purpose snapshot)
      else s.enter p (afterError purpose)
  | .rereading purpose snapshot => tryRemoveIfUnchanged s p ok (.rereading purpose snapshot)
  | .removing purpose snapshot => tryRemoveIfUnchanged s p ok (.removing purpose snapshot)
  | .starting => s.change p fun process =>
      { process with phase := .holding, heartbeat := .waiting, held := true }
  | .stopping owned =>
      match (s.process p).heartbeat with
      | .off | .ended => s.enter p (if owned then .reading .releasing else .released)
      | _ => s
  | .idle | .holding | .refused | .released | .dead => s

/-- The heartbeat thread writes into the file that it has opened, whatever its name. -/
def refreshHeartbeat (s : State) (p : Nat) (ok : Bool) : Heartbeat → State
  | .opening =>
      match s.path with
      | some file => s.change p fun process =>
          { process with heartbeat := if ok then .reading file else .losing }
      | none => s.change p fun process => { process with heartbeat := .losing }
  | .reading file =>
      match parseLeaseRecord (s.files file).content with
      | some record => s.change p fun process =>
          { process with heartbeat := if ok ∧ record.ownerId = p then .comparing file record else .losing }
      | none => s.change p fun process => { process with heartbeat := .losing }
  | .comparing file record => s.change p fun process =>
      { process with heartbeat := if ok ∧ s.path = some file then .building file record else .losing }
  | .building file record => s.change p fun process =>
      { process with heartbeat := .truncating file { record with lastHeartbeatUnixNano := s.now } }
  | .truncating file record =>
      if ok then (s.write file (.other 0)).change p fun process => { process with heartbeat := .writing file record }
      else s.change p fun process => { process with heartbeat := .losing }
  | .writing file record =>
      if ok then (s.write file (.record record)).change p fun process => { process with heartbeat := .verifying file }
      else s.change p fun process => { process with heartbeat := .losing }
  | .verifying file => s.change p fun process =>
      { process with heartbeat := if ok ∧ s.path = some file then .waiting else .losing }
  | _ => s

def handleLockLoss (s : State) (p : Nat) : Heartbeat → State
  | .losing => s.change p fun process =>
      if process.held then { process with held := false, heartbeat := .callback } else { process with heartbeat := .ended }
  | .callback => s.change p fun process => { process with lockLost := true, heartbeat := .ended }
  | _ => s

def beat (s : State) (p : Nat) (ok : Bool) : State :=
  match (s.process p).heartbeat with
  | .waiting =>
      match (s.process p).phase with
      | .stopping _ => s.change p fun process => { process with heartbeat := .ended }
      | _ => s.change p fun process => { process with heartbeat := .opening }
  | .opening => refreshHeartbeat s p ok .opening
  | .reading file => refreshHeartbeat s p ok (.reading file)
  | .comparing file record => refreshHeartbeat s p ok (.comparing file record)
  | .building file record => refreshHeartbeat s p ok (.building file record)
  | .truncating file record => refreshHeartbeat s p ok (.truncating file record)
  | .writing file record => refreshHeartbeat s p ok (.writing file record)
  | .verifying file => refreshHeartbeat s p ok (.verifying file)
  | .losing => handleLockLoss s p .losing
  | .callback => handleLockLoss s p .callback
  | .off | .ended => s

/-- The staleness threshold is that of the process that judges. -/
def step (staleAfter : Nat → Nat) (event : Event) (s : State) : State × Unit :=
  match event with
  | .clock now => ({ s with now }, ())
  | .acquires p =>
      match (s.process p).phase with
      | .idle => (s.enter p (.creating acquireRetryLimit), ())
      | _ => (s, ())
  | .proceeds p ok => (proceed staleAfter s p ok, ())
  | .beats p ok => (beat s p ok, ())
  | .releases p =>
      match (s.process p).phase with
      | .holding => (s.change p fun process =>
          { process with phase := .stopping process.held, held := false }, ())
      | _ => (s, ())
  | .dies p => (s.change p fun process => { process with phase := .dead, heartbeat := .off }, ())

end Paranoid.LocalLockModel
