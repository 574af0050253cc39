import Paranoid.KvAtomic
import Paranoid.LeaseStatements

namespace Paranoid.CacheModel

open Function KvAtomic LeaseModel LeaseStatements Postgres

variable {T : Type}

inductive CacheError
  | counterArithmeticOverflow
  | coalescingCacheComputeMutexLost
  | kv (error : KvError)
  | coordination (error : CoordinationError)
  /-- A timeout, a failed computation, a database error, or a caller that is gone. -/
  | gaveUp
  deriving DecidableEq

/-- The moments at which a value's epoch was read and its computation began. Ghost state:
a moment is the number of steps before it. -/
structure Origin where
  epochRead : Nat
  begun : Nat

structure Entry (T : Type) where
  value : T
  epoch : Int
  origin : Origin

inductive Request (T : Type)
  | fetch
  | set (value : T)
  | invalidate

/-- What a call is to do, and for a fetch when it began. -/
inductive Goal (T : Type)
  | fetch (started : Nat)
  | set (value : T)
  | invalidate

inductive Outcome (T : Type)
  | fetched (started : Nat) (entry : Entry T)
  | stored
  | invalidated
  | failed (error : CacheError)

def defaultCoalescingCacheMutexClaimDuration : ClaimDuration :=
  ⟨30000000000, by decide, by decide⟩

/-- Where a call is: before it holds its key's mutex, up to `claiming`, and then with it. -/
inductive Phase (T : Type)
  | idle
  | lookup (started : Nat)
  | lookedUp (started : Nat) (entry : Entry T)
  | claiming (goal : Goal T)
  | locked (goal : Goal T)
  | lockedLookedUp (started : Nat) (entry : Option (Entry T))
  | missed (started : Nat) (epoch : Int) (epochRead : Nat)
  | computing (started : Nat) (epoch : Int) (origin : Origin)
  | storing (goal : Goal T) (entry : Entry T)
  | releasing (outcome : Outcome T)

/-- A caller, with the claim that its guard holds. A cached value is known by the lease
key of its parts. -/
structure Process (T : Type) where
  key : Key
  phase : Phase T
  currentClaim : Option Claim
  leadershipLost : Bool

structure Returned where
  key : Key
  started : Nat
  origin : Origin

structure Invalidated where
  key : Key
  returnedAt : Nat

/-- A cache: its leases, its rows and its callers. The rest is ghost state: the steps
taken, the latest timestamp, and what fetches and invalidations have returned. -/
structure System (T : Type) where
  leases : Tables
  entries : Key → Option (Row (Entry T))
  epoch : Option (Row Int)
  processes : Nat → Process T
  steps : Nat
  latest : Int
  returns : List Returned
  invalidations : List Invalidated

def System.start (key : Key) (now : Int) : System T where
  leases := .empty
  entries _ := none
  epoch := none
  processes _ := ⟨key, .idle, none, false⟩
  steps := 0
  latest := now
  returns := []
  invalidations := []

/-- A statement has the timestamp `now`; the others are steps of a process by itself. -/
inductive Input (T : Type)
  | begin (p : Nat) (key : Key) (request : Request T)
  | get (p : Nat) (now : Int)
  | readEpoch (p : Nat) (now : Int)
  | claim (p : Nat) (now : Int) (rowVisible : Bool) (holderId : HolderId) (leaseToken : Token)
  | renew (p : Nat) (now : Int) (nextLeaseToken : Token)
  | loseLeadership (p : Nat)
  | compute (p : Nat)
  | computed (p : Nat) (value : T)
  | store (p : Nat) (now : Int)
  | delete (p : Nat) (now : Int)
  | release (p : Nat) (now : Int)
  | fail (p : Nat)
  | invalidateAll (now : Int) (delay : Nat)

def Input.now : Input T → Option Int
  | .get _ now | .readEpoch _ now | .claim _ now _ _ _ | .renew _ now _ | .store _ now | .delete _ now
  | .release _ now | .invalidateAll now _ => some now
  | _ => none

/-- The process whose step it is; the whole cache is invalidated by none of them. -/
def Input.caller : Input T → Option Nat
  | .begin p _ _ | .get p _ | .readEpoch p _ | .claim p _ _ _ _ | .renew p _ _ | .loseLeadership p
  | .compute p | .computed p _ | .store p _ | .delete p _ | .release p _ | .fail p => some p
  | .invalidateAll _ _ => none

def Outcome.returned (key : Key) : Outcome T → List Returned
  | .fetched started entry => [⟨key, started, entry.origin⟩]
  | _ => []

def Outcome.invalidated? (key : Key) (returnedAt : Nat) : Outcome T → List Invalidated
  | .invalidated => [⟨key, returnedAt⟩]
  | _ => []

inductive Reply (T : Type)
  | nothing
  | done (outcome : Outcome T)
  | invalidatedAll

abbrev Result (T : Type) : Type := System T × Reply T

section Steps

variable (valueTtl : Ttl) (claimDuration : ClaimDuration) (s : System T) (p : Nat)

def System.put (process : Process T) : System T := { s with processes := update s.processes p process }

def System.enter (phase : Phase T) : Result T := (s.put p { s.processes p with phase }, .nothing)

/-- The call returns, and the caller is free again. -/
def System.finish (outcome : Outcome T) : Result T :=
  let key := (s.processes p).key
  let returns := s.returns ++ outcome.returned key
  let invalidations := s.invalidations ++ outcome.invalidated? key s.steps
  ({ s with returns, invalidations }.put p ⟨key, .idle, none, false⟩, .done outcome)

/-- `fetch_current_epoch`. -/
def System.currentEpoch (now : Int) : Int := (liveValue now s.epoch).getD 0

/-- `fetch_cached_entry`, without the guard and with it. -/
def get (now : Int) : Result T :=
  let process := s.processes p
  let entry := liveValue now (s.entries process.key)
  match process.phase with
  | .lookup started =>
      match entry with
      | none => s.enter p (.claiming (.fetch started))
      | some entry => s.enter p (.lookedUp started entry)
  | .locked (.fetch started) => s.enter p (.lockedLookedUp started entry)
  | _ => (s, .nothing)

def readEpoch (now : Int) : Result T :=
  let process := s.processes p
  let epoch := s.currentEpoch now
  match process.phase with
  | .lookedUp started entry =>
      if entry.epoch < epoch then s.enter p (.claiming (.fetch started)) else s.finish p (.fetched started entry)
  | .lockedLookedUp started (some entry) =>
      if epoch ≤ entry.epoch then s.enter p (.releasing (.fetched started entry))
      else s.enter p (.missed started epoch s.steps)
  | .lockedLookedUp started none => s.enter p (.missed started epoch s.steps)
  | .locked (.set value) => s.enter p (.storing (.set value) ⟨value, epoch, s.steps, s.steps⟩)
  | _ => (s, .nothing)

def claim (now : Int) (rowVisible : Bool) (holderId : HolderId) (leaseToken : Token) : Result T :=
  let process := s.processes p
  match process.phase with
  | .claiming goal =>
      let (leases, result) :=
        Store.tryClaimLease now rowVisible process.key holderId leaseToken claimDuration s.leases
      match result with
      | .error e => { s with leases }.finish p (.failed (.coordination e))
      | .ok none => ({ s with leases }, .nothing)
      | .ok (some claim) =>
          ({ s with leases }.put p ⟨process.key, .locked goal, some claim, false⟩, .nothing)
  | _ => (s, .nothing)

/-- A beat of the guard's heartbeat. -/
def renew (now : Int) (nextLeaseToken : Token) : Result T :=
  let process := s.processes p
  match process.currentClaim with
  | none => (s, .nothing)
  | some presented =>
      let (leases, result) := Store.tryRenewLease now presented nextLeaseToken claimDuration s.leases
      match result with
      | .error _ => ({ s with leases }, .nothing)
      | .ok none => ({ s with leases }.put p { process with
          currentClaim := none, leadershipLost := true }, .nothing)
      | .ok (some renewed) =>
          ({ s with leases }.put p { process with currentClaim := some renewed }, .nothing)

/-- The computation has ended: its value is stored unless the guard knows that it has lost
its lease. -/
def computed (value : T) : Result T :=
  let process := s.processes p
  match process.phase with
  | .computing started epoch origin =>
      if process.leadershipLost then s.enter p (.releasing (.failed .coalescingCacheComputeMutexLost))
      else s.enter p (.storing (.fetch started) ⟨value, epoch, origin⟩)
  | _ => (s, .nothing)

/-- A fetch stores its value at best effort. -/
def storedOutcome : Goal T → Entry T → Except KvError (Row (Entry T)) → Outcome T
  | .fetch started, entry, _ => .fetched started entry
  | _, _, .error e => .failed (.kv e)
  | _, _, .ok _ => .stored

def store (now : Int) : Result T :=
  let process := s.processes p
  match process.phase with
  | .storing goal entry =>
      match setValueAndTtl now entry valueTtl with
      | .error e => s.enter p (.releasing (storedOutcome goal entry (.error e)))
      | .ok row =>
          { s with entries := update s.entries process.key (some row) }.enter p
            (.releasing (storedOutcome goal entry (.ok row)))
  | _ => (s, .nothing)

/-- The delete of an invalidation, which finds the value or does not. -/
def delete (now : Int) : Result T :=
  let process := s.processes p
  match process.phase with
  | .locked .invalidate =>
      if (liveValue now (s.entries process.key)).isSome then
        { s with entries := update s.entries process.key none }.enter p (.releasing .invalidated)
      else s.enter p (.releasing .invalidated)
  | _ => (s, .nothing)

/-- The guard is released: a claim that is no longer its own is an error of its call. -/
def release (now : Int) : Result T :=
  let process := s.processes p
  match process.phase with
  | .releasing outcome =>
      match process.currentClaim with
      | none => s.finish p (lost outcome)
      | some presented =>
          let (leases, result) := Store.releaseLease now presented s.leases
          match result with
          | .error e => { s with leases }.finish p (failedRelease outcome e)
          | .ok released => { s with leases }.finish p (if released then outcome else lost outcome)
  | _ => (s, .nothing)
where
  lost : Outcome T → Outcome T
    | .failed e => .failed e
    | _ => .failed .coalescingCacheComputeMutexLost
  failedRelease : Outcome T → CoordinationError → Outcome T
    | .failed e, _ => .failed e
    | _, e => .failed (.coordination e)

/-- A call that fails or is given up lets its guard go, which releases the claim later. -/
def fail : Result T :=
  let process := s.processes p
  match process.phase with
  | .idle => (s, .nothing)
  | .lookup _ | .lookedUp _ _ | .claiming _ => s.finish p (.failed .gaveUp)
  | _ => s.enter p (.releasing (.failed .gaveUp))

/-- The statements of `invalidate_all_in_current_transaction`, which take effect with the
commit; one that fails leaves the epoch. -/
def invalidateAll (now : Int) (delay : Nat) : Result T :=
  let decide (live : Int) : Except CacheError (Unit × AtomicMutation Int) :=
    if live = i64Max then throw .counterArithmeticOverflow else return ((), .setValue (live + 1) .noExpiration)
  match mutateLiveKeyOrInsertInitialValueAtomically .kv now delay 1 .noExpiration decide s.epoch with
  | .error e => (s, .done (.failed e))
  | .ok ((), epoch) => ({ s with epoch }, .invalidatedAll)

def act (input : Input T) : Result T :=
  match input with
  | .begin p key request =>
      match (s.processes p).phase with
      | .idle =>
          let phase := match request with
            | .fetch => .lookup s.steps
            | .set value => .claiming (.set value)
            | .invalidate => .claiming .invalidate
          (s.put p ⟨key, phase, none, false⟩, .nothing)
      | _ => (s, .nothing)
  | .get p now => get s p now
  | .readEpoch p now => readEpoch s p now
  | .claim p now rowVisible holderId leaseToken =>
      claim claimDuration s p now rowVisible holderId leaseToken
  | .renew p now nextLeaseToken => renew claimDuration s p now nextLeaseToken
  | .loseLeadership p => (s.put p { s.processes p with leadershipLost := true }, .nothing)
  | .compute p =>
      match (s.processes p).phase with
      | .missed started epoch epochRead => s.enter p (.computing started epoch ⟨epochRead, s.steps⟩)
      | _ => (s, .nothing)
  | .computed p value => computed s p value
  | .store p now => store valueTtl s p now
  | .delete p now => delete s p now
  | .release p now => release s p now
  | .fail p => fail s p
  | .invalidateAll now delay => invalidateAll s now delay

end Steps

/-- A step, and its account. -/
def step (valueTtl : Ttl) (claimDuration : ClaimDuration) (input : Input T) (s : System T) : Result T :=
  let (s', reply) := act valueTtl claimDuration s input
  ({ s' with steps := s.steps + 1, latest := input.now.elim s.latest (max s.latest) }, reply)

end Paranoid.CacheModel
