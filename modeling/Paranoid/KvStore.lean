import Paranoid.KvStatements

namespace Paranoid.KvStore

open KvAtomic KvModel Postgres

def maxKvDeleteBatchSize : Nat := 10000

def maxKvScanLimit : Nat := 10000

def maxKvGetMultiKeys : Nat := 10000

def maxKvSetMultiEntries : Nat := 10000

def maxKvAcquireSlotCandidates : Nat := 10000

def query {α : Type} (result : Except SqlError α) : Except KvError α := result.mapError .database

section Validation

def requireRowsAffected (rowsAffected : Nat) : Except KvError Unit :=
  if rowsAffected = 0 then throw .keyNotFound else return

def validateScanLimit (limit : Nat) : Except KvError Unit := do
  if limit = 0 then throw .scanLimitIsZero
  if maxKvScanLimit < limit then throw (.scanLimitTooLarge limit maxKvScanLimit)

def validateDeleteBatchSize (batchSize : Nat) : Except KvError Unit := do
  if batchSize = 0 then throw .deleteBatchSizeIsZero
  if maxKvDeleteBatchSize < batchSize then throw (.deleteBatchSizeTooLarge batchSize maxKvDeleteBatchSize)

def validateUnique (keys : List Key) : Except KvError Unit :=
  if keys.Nodup then return else throw .duplicateKeyInBulkOperation

def scanAfterKeyText (keyPrefix : KeyPrefix) (afterKey : Option Key) : Except KvError String :=
  match afterKey with
  | none => return ""
  | some afterKey =>
      if keyPrefix.containsKey afterKey then return afterKey.text else throw .scanCursorOutsidePrefix

def prepareUniqueKeysForMultiGet (keys : List Key) : Except KvError (List Key) := do
  if maxKvGetMultiKeys < keys.length then throw (.getMultiKeyCountTooLarge keys.length maxKvGetMultiKeys)
  validateUnique keys
  return keys

def validateSetMultiEntryCount (entries : List (Key × Bytes)) : Except KvError Unit :=
  if maxKvSetMultiEntries < entries.length then throw (.setMultiEntryCountTooLarge entries.length maxKvSetMultiEntries)
  else return

def prepareUniqueKeysForSlotAcquisition (keys : List Key) : Except KvError (List Key) := do
  if maxKvAcquireSlotCandidates < keys.length then
    throw (.acquireSlotCandidateCountTooLarge keys.length maxKvAcquireSlotCandidates)
  validateUnique keys
  return keys

def positiveExpiringTtlMicroseconds (ttl : Ttl) : Except KvError Int :=
  match ttl.positiveMicroseconds with
  | none => throw .ttlNoExpirationNotAllowed
  | some microseconds => return microseconds

end Validation

section Operations

variable (now : Int) (t : Table)

def getBytes (key : Key) : Except KvError Bytes :=
  match KvStatements.getBytes now t key with
  | none => throw .keyNotFound
  | some value => return value

def getBytesAndReturnDatabaseTimestamp (key : Key) : Except KvError (Bytes × Int) := do
  match ← query (KvStatements.getBytesReturningDatabaseTimestamp now t key) with
  | none => throw .keyNotFound
  | some found => return found

/-- Puts the value of a returned row where its key was asked for. -/
def placeRow (keys : List Key) (results : List (Option Bytes)) (row : Key × Bytes) :
    List (Option Bytes) :=
  match keys.idxOf? row.1 with
  | none => results
  | some index => results.set index (some row.2)

def getBytesMulti (keys : List Key) : Except KvError (List (Option Bytes)) := do
  let keys ← prepareUniqueKeysForMultiGet keys
  if keys = [] then return []
  return (KvStatements.getBytesMulti now t keys).foldl (placeRow keys) (List.replicate keys.length none)

def setBytes (key : Key) (value : Bytes) (ttl : Ttl) : Except KvError Table :=
  query (KvStatements.setBytes now t key value ttl.positiveMicroseconds)

def setBytesAndReturnDatabaseTimestamp (key : Key) (value : Bytes) (ttl : Ttl) :
    Except KvError (Int × Table) :=
  query (KvStatements.setBytesReturningDatabaseTimestamp now t key value ttl.positiveMicroseconds)

def setBytesMulti (entries : List (Key × Bytes)) (ttl : Ttl) : Except KvError Table := do
  validateSetMultiEntryCount entries
  if entries = [] then return t
  validateUnique (entries.map Prod.fst)
  query (KvStatements.setBytesMulti now t entries ttl.positiveMicroseconds)

def setBytesIfNotExists (key : Key) (value : Bytes) (ttl : Ttl) : Except KvError (Bool × Table) :=
  query (KvStatements.setBytesIfNotExists now t key value ttl.positiveMicroseconds)

/-- The timestamp is there exactly where the value was set. -/
def setBytesIfNotExistsAndReturnDatabaseTimestamp (key : Key) (value : Bytes) (ttl : Ttl) :
    Except KvError (Option Int × Table) :=
  query (KvStatements.setBytesIfNotExistsReturningDatabaseTimestamp
    now t key value ttl.positiveMicroseconds)

/-- A statement on one live row, which must be there. -/
def affectRow (result : Except SqlError (Nat × Table)) : Except KvError Table := do
  let (rowsAffected, t) ← query result
  requireRowsAffected rowsAffected
  return t

def touchKey (key : Key) : Except KvError Table := affectRow (KvStatements.touchKey now t key)

def setKeyTtl (key : Key) (ttl : Ttl) : Except KvError Table :=
  affectRow (KvStatements.setKeyTtl now t key ttl.positiveMicroseconds)

def expireKey (key : Key) : Except KvError Table := affectRow (KvStatements.expireKey now t key)

def deleteKey (key : Key) : Except KvError Table := affectRow (.ok (KvStatements.deleteKey now t key))

def scanBytesWithPrefix (keyPrefix : KeyPrefix) (afterKey : Option Key) (limit : Nat) :
    Except KvError (List (Key × Bytes)) := do
  validateScanLimit limit
  let afterKeyText ← scanAfterKeyText keyPrefix afterKey
  return KvStatements.scanBytesWithPrefix now t keyPrefix afterKeyText limit

def scanKeysWithPrefix (keyPrefix : KeyPrefix) (afterKey : Option Key) (limit : Nat) :
    Except KvError (List Key) := do
  validateScanLimit limit
  let afterKeyText ← scanAfterKeyText keyPrefix afterKey
  return KvStatements.scanKeysWithPrefix now t keyPrefix afterKeyText limit

def deleteExpiredKeysOnce (batchSize : Nat) : Except KvError (Nat × Table) := do
  validateDeleteBatchSize batchSize
  return KvStatements.deleteExpiredKeysOnce now t batchSize

def deleteKeysWithPrefixOnce (keyPrefix : KeyPrefix) (batchSize : Nat) :
    Except KvError (Nat × Table) := do
  validateDeleteBatchSize batchSize
  return KvStatements.deleteKeysWithPrefixOnce t keyPrefix batchSize

/-- Two statements, the second `delay` later. -/
def acquireSlotBytes (delay : Nat) (candidateKeys : List Key) (value : Bytes) (ttl : Ttl) (pick : Nat) :
    Except KvError (Option Key × Table) := do
  let keys ← prepareUniqueKeysForSlotAcquisition candidateKeys
  let ttlMicroseconds ← positiveExpiringTtlMicroseconds ttl
  if keys = [] then return (none, t)
  let t ← query (KvStatements.ensureSlotKeysExist now t keys)
  query (KvStatements.acquireSlot (now + delay) t value ttlMicroseconds keys pick)

end Operations

section AtomicMutations

/-- What a callback is shown while the key is locked. -/
structure AtomicMutationCurrent where
  liveValue : Option Bytes
  databaseTimestamp : Int

inductive AtomicMutationOutcome
  | keptLiveValue
  | keptAbsent
  | setBytes
  | setBytesPreservingExpiration
  | deletedLiveValue
  | deletedAbsent
  deriving DecidableEq

structure AtomicMutationResult where
  previousLiveValue : Option Bytes
  outcome : AtomicMutationOutcome
  deriving DecidableEq

/-- The attempts to lock a key are bounded. -/
def lockAttempts : Nat := 8

/-- A step of a transaction leaves its table also where it fails: a failed statement
has changed nothing. The `attempt`-th statement runs at `clock attempt`. -/
def lockKeyForAtomicMutation (clock : Nat → Int) (key : Key) :
    Nat → Table → Except KvError (Bool × KvStatements.LockedKvRow) × Table
  | 0, t => (.error .atomicMutationCouldNotLockKey, t)
  | attempts + 1, t =>
      match KvStatements.lockKeyForAtomicMutation (clock (lockAttempts - (attempts + 1))) t key with
      | .error e => (.error (.database e), t)
      | .ok (some locked, t) => (.ok locked, t)
      | .ok (none, t) => lockKeyForAtomicMutation clock key attempts t

variable (now : Int) (t : Table) (key : Key)

def affectLockedRow (result : Except SqlError (Nat × Table)) (outcome : AtomicMutationOutcome) :
    Except KvError AtomicMutationOutcome × Table :=
  match result with
  | .error e => (.error (.database e), t)
  | .ok (rowsAffected, t) => ((requireRowsAffected rowsAffected).map fun _ => outcome, t)

def applyAtomicMutation (mutation : AtomicMutation Bytes)
    (hadPreviousLiveValue insertedAbsentPlaceholder : Bool) :
    Except KvError AtomicMutationOutcome × Table :=
  match mutation with
  | .keepExisting =>
      (.ok (if hadPreviousLiveValue then .keptLiveValue else .keptAbsent),
        if insertedAbsentPlaceholder then KvStatements.deleteKeyForAtomicMutation t key else t)
  | .setValue value ttl =>
      affectLockedRow t
        (KvStatements.updateKeyValueAndTtlForAtomicMutation
          now t key value ttl.positiveMicroseconds) .setBytes
  | .setValuePreservingExpiration value =>
      if !hadPreviousLiveValue then
        (.error .keyNotFound,
          if insertedAbsentPlaceholder then KvStatements.deleteKeyForAtomicMutation t key else t)
      else
        affectLockedRow t (KvStatements.updateKeyValuePreservingExpirationForAtomicMutation
          now t key value)
          .setBytesPreservingExpiration
  | .delete =>
      (.ok (if hadPreviousLiveValue then .deletedLiveValue else .deletedAbsent),
        KvStatements.deleteKeyForAtomicMutation t key)

variable {E : Type} (lift : KvError → E)

/-- The write runs `delay` after the statement that locked the key. -/
def mutateKeyAtomicallyInTransactionInternal (clock : Nat → Int) (delay : Nat)
    (decideMutation : AtomicMutationCurrent → Except E (AtomicMutation Bytes))
    (cleanupAbsentPlaceholderOnCallbackError : Bool) : Except E AtomicMutationResult × Table :=
  match lockKeyForAtomicMutation clock key lockAttempts t with
  | (.error e, t) => (.error (lift e), t)
  | (.ok (insertedAbsentPlaceholder, lockedRow), t) =>
      let previousLiveValue := if lockedRow.isLive then some lockedRow.value else none
      match decideMutation ⟨previousLiveValue, lockedRow.databaseTimestamp⟩ with
      | .error e =>
          (.error e,
            if insertedAbsentPlaceholder && cleanupAbsentPlaceholderOnCallbackError then
              KvStatements.deleteKeyForAtomicMutation t key
            else t)
      | .ok mutation =>
          match applyAtomicMutation (lockedRow.databaseTimestamp + delay) t key mutation previousLiveValue.isSome
            insertedAbsentPlaceholder with
          | (.error e, t) => (.error (lift e), t)
          | (.ok outcome, t) => (.ok ⟨previousLiveValue, outcome⟩, t)

def mutateKeyAtomicallyInCurrentTransaction (clock : Nat → Int) (delay : Nat)
    (decideMutation : AtomicMutationCurrent → Except E (AtomicMutation Bytes)) :
    Except E AtomicMutationResult × Table :=
  mutateKeyAtomicallyInTransactionInternal t key lift clock delay decideMutation true

/-- A transaction of its own, which rolls back where the mutation fails. -/
def mutateKeyAtomically (clock : Nat → Int) (delay : Nat)
    (decideMutation : AtomicMutationCurrent → Except E (AtomicMutation Bytes)) :
    Except E (AtomicMutationResult × Table) :=
  match mutateKeyAtomicallyInTransactionInternal t key lift clock delay decideMutation false with
  | (.error e, _) => .error e
  | (.ok result, t) => .ok (result, t)

end AtomicMutations

end Paranoid.KvStore
