import Paranoid.KvAtomic
import Paranoid.LeaseModel
import Paranoid.RowLocks
import Paranoid.Transitions

namespace Paranoid.SemaphoreModel

open LeaseModel KvAtomic RowLocks

structure Semaphore where
  maxConcurrent : Nat
  maxHoldTtl : Ttl

def slotSuffixes (semaphore : Semaphore) : List String :=
  (List.range semaphore.maxConcurrent).map fun i => toString (i + 1)

/-- The value of a slot row, none for the empty bytes of a placeholder. -/
abbrev SlotRow : Type := Row (Option HolderId)

abbrev Slots : Type := Table Nat String SlotRow

structure SemaphoreClaim where
  slotSuffix : String
  holderId : HolderId
  deriving DecidableEq

/-- A claim with the time until which it has been granted. -/
structure Grant where
  claim : SemaphoreClaim
  expiresAt : Option Int
  deriving DecidableEq

/-- The row that a grant has written. -/
def Grant.row (grant : Grant) : SlotRow := ⟨some grant.claim.holderId, grant.expiresAt⟩

/-- What is left to do for a release that has the row of its slot locked. -/
inductive Mutation
  | deleteSlot
  | deletePlaceholder
  | keepExisting

/-- Where a transaction is. One that has failed can only be rolled back. -/
inductive Phase
  | idle
  | ensured (holderId : HolderId)
  | taken (holderId : HolderId) (grant : Option Grant)
  | locked (claim : SemaphoreClaim) (mutation : Mutation)
  | released (claim : SemaphoreClaim) (released : Bool)
  | swept
  | failed

/-- The slot rows with the clock of the database and the transactions in progress, and as
ghost state the grants that have been committed, less those whose release has. -/
structure State where
  slots : Slots
  clock : Int
  phase : Nat → Phase
  held : List Grant

/-- One statement of a transaction, its commit or abort, or the passing of time. A
statement has been on its way for the time `waited` since it was given its timestamp. -/
inductive Event
  | passes (microseconds : Nat)
  | ensureSlotKeysExist (tx : Nat) (holderId : HolderId) (waited : Nat)
  | acquireSlot (tx : Nat) (waited : Nat) (pick : String)
  | lockKeyForAtomicMutation (tx : Nat) (claim : SemaphoreClaim) (waited : Nat)
  | applyAtomicMutation (tx : Nat)
  | deleteExpiredKeysOnce (tx : Nat) (waited : Nat) (batch : String → Bool)
  | commits (tx : Nat)
  | aborts (tx : Nat)

def start : State := ⟨.start fun _ => none, 0, fun _ => .idle, []⟩

def State.enter (s : State) (tx : Nat) (slots : Slots) (phase : Phase) : State :=
  { s with slots, phase := Function.update s.phase tx phase }

def isExpired (now : Int) (row : Option SlotRow) : Bool := row.any fun row => !row.isLive now

def absent (semaphore : Semaphore) (tx : Nat) (s : State) (slot : String) : Bool :=
  slot ∈ slotSuffixes semaphore && (s.slots.row tx slot).isNone

/-- `INSERT ... ON CONFLICT DO NOTHING`. It waits for those that have written a row of
these keys, and not for those that have only locked one. -/
def ensureSlotKeysExist (semaphore : Semaphore) (tx : Nat)
    (holderId : HolderId) (now : Int) (s : State) : State :=
  if (slotSuffixes semaphore).all (s.slots.unwritten tx) then
    s.enter tx (s.slots.writeWhere tx (absent semaphore tx s) (some ⟨none, some (now - 1000000)⟩))
      (.ensured holderId)
  else s

/-- The row of a candidate that the statement can take, of those that are not locked. -/
def takeable (now : Int) (tx : Nat) (s : State) (slot : String) : Bool :=
  s.slots.free tx slot && isExpired now (s.slots.row tx slot)

/-- `UPDATE ... WHERE key = (SELECT ... LIMIT 1 FOR UPDATE SKIP LOCKED)`, which takes any
one of the rows that it can take. -/
def acquireSlot (semaphore : Semaphore) (tx : Nat)
    (holderId : HolderId) (now : Int) (pick : String) (s : State) :
    State × Option (Option Grant) :=
  if pick ∈ slotSuffixes semaphore ∧ takeable now tx s pick then
    match setValueAndTtl now (some holderId) semaphore.maxHoldTtl with
    | .error _ => (s.enter tx s.slots .failed, none)
    | .ok row =>
        let grant : Grant := ⟨⟨pick, holderId⟩, row.expiresAt⟩
        (s.enter tx (s.slots.writeWhere tx (· = pick) (some row)) (.taken holderId (some grant)),
          some (some grant))
  else if (slotSuffixes semaphore).any (takeable now tx s) then (s, none)
  else (s.enter tx s.slots (.taken holderId none), some none)

/-- The statement waits for the others that have the row. A live row whose value cannot be
decoded fails the release. -/
def lockKeyForAtomicMutation (tx : Nat) (claim : SemaphoreClaim) (now : Int) (s : State) : State :=
  if s.slots.free tx claim.slotSuffix then
    match s.slots.row tx claim.slotSuffix with
    | none =>
        s.enter tx (s.slots.writeWhere tx (· = claim.slotSuffix) (some ⟨none, some now⟩))
          (.locked claim .deletePlaceholder)
    | some row =>
        if row.isLive now then
          match row.value with
          | none => s.enter tx (s.slots.lock tx claim.slotSuffix) .failed
          | some holderId =>
              s.enter tx (s.slots.lock tx claim.slotSuffix)
                (.locked claim (if holderId = claim.holderId then .deleteSlot else .keepExisting))
        else s.enter tx (s.slots.lock tx claim.slotSuffix) (.locked claim .keepExisting)
  else s

def applyAtomicMutation (tx : Nat) (claim : SemaphoreClaim) (s : State) : Mutation → State
  | .deleteSlot => s.enter tx (s.slots.writeWhere tx (· = claim.slotSuffix) none) (.released claim true)
  | .deletePlaceholder =>
      s.enter tx (s.slots.writeWhere tx (· = claim.slotSuffix) none) (.released claim false)
  | .keepExisting => s.enter tx s.slots (.released claim false)

/-- A batch of the expired rows, of those that are not locked. The rows of other keys may
fill any part of the batch. -/
def deleteExpiredKeysOnce (tx : Nat) (now : Int) (batch : String → Bool) (s : State) : State :=
  s.enter tx (s.slots.writeWhere tx (fun slot => batch slot && takeable now tx s slot) none) .swept

def commit (tx : Nat) (s : State) : State :=
  let s' := s.enter tx (s.slots.commit tx) .idle
  match s.phase tx with
  | .taken _ (some grant) => { s' with held := grant :: s.held }
  | .taken _ none => s'
  | .released claim true => { s' with held := s.held.filter (·.claim ≠ claim) }
  | .released _ false => s'
  | .swept => s'
  | _ => s

/-- A step that does not apply leaves the state, and the output is the answer of the taking
statement. -/
def step (semaphore : Semaphore) (event : Event) (s : State) : State × Option (Option Grant) :=
  match event with
  | .passes microseconds => ({ s with clock := s.clock + microseconds }, none)
  | .ensureSlotKeysExist tx holderId waited =>
      match s.phase tx with
      | .idle => (ensureSlotKeysExist semaphore tx holderId (s.clock - waited) s, none)
      | _ => (s, none)
  | .acquireSlot tx waited pick =>
      match s.phase tx with
      | .ensured holderId => acquireSlot semaphore tx holderId (s.clock - waited) pick s
      | _ => (s, none)
  | .lockKeyForAtomicMutation tx claim waited =>
      match s.phase tx with
      | .idle => (lockKeyForAtomicMutation tx claim (s.clock - waited) s, none)
      | _ => (s, none)
  | .applyAtomicMutation tx =>
      match s.phase tx with
      | .locked claim mutation => (applyAtomicMutation tx claim s mutation, none)
      | _ => (s, none)
  | .deleteExpiredKeysOnce tx waited batch =>
      match s.phase tx with
      | .idle => (deleteExpiredKeysOnce tx (s.clock - waited) batch s, none)
      | _ => (s, none)
  | .commits tx => (commit tx s, none)
  | .aborts tx => (s.enter tx (s.slots.abort tx) .idle, none)

end Paranoid.SemaphoreModel
