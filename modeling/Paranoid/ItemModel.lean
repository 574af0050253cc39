import Paranoid.EnvelopeModel
import Paranoid.KvScans
import Paranoid.SweepLoop

namespace Paranoid.ItemModel

open KvAtomic KvKeys KvModel KvScans KvStore SweepLoop
open EnvelopeModel (utf8)

variable {T C E : Type}

section Codecs

/-- How the values of a type become bytes, and how bytes are read back as values. -/
structure Plaintext (T C : Type) where
  toPlaintextBytes : T → Except C Bytes
  fromPlaintextBytes : Bytes → Except C T

/-- What one call of an encrypted item meets: the answer of its keyset getter, and what the
keyset makes of bytes and associated data. The `n`-th encryption of the call draws random
bytes of its own. -/
structure Cipher (C : Type) where
  getKeyset : Except C Unit
  encrypt : Nat → Bytes → Bytes → Except C Bytes
  decrypt : Bytes → Bytes → Except C Bytes

inductive ItemCodec (C : Type)
  | plain
  | encrypted (cipher : Cipher C)

def ItemCodec.getKeyset : ItemCodec C → Except C Unit
  | .plain => .ok ()
  | .encrypted cipher => cipher.getKeyset

def itemAssociatedData (key : Key) : Bytes := utf8 "paranoid.db.kv.item.v1" ++ 0 :: utf8 key.text

variable (plaintext : Plaintext T C)

def encodeEncryptedValueForKey (cipher : Cipher C) (n : Nat) (key : Key) (value : T) :
    Except C Bytes := do
  cipher.encrypt n (← plaintext.toPlaintextBytes value) (itemAssociatedData key)

def decodeEncryptedValueForKey (cipher : Cipher C) (key : Key) (bytes : Bytes) : Except C T := do
  plaintext.fromPlaintextBytes (← cipher.decrypt bytes (itemAssociatedData key))

/-- Where the keyset has been fetched. -/
def encodeUnlocked (codec : ItemCodec C) (n : Nat) (key : Key) (value : T) : Except C Bytes :=
  match codec with
  | .plain => plaintext.toPlaintextBytes value
  | .encrypted cipher => encodeEncryptedValueForKey plaintext cipher n key value

def decodeUnlocked (codec : ItemCodec C) (key : Key) (bytes : Bytes) : Except C T :=
  match codec with
  | .plain => plaintext.fromPlaintextBytes bytes
  | .encrypted cipher => decodeEncryptedValueForKey plaintext cipher key bytes

def encodeValueForKey (codec : ItemCodec C) (n : Nat) (key : Key) (value : T) : Except C Bytes := do
  codec.getKeyset
  encodeUnlocked plaintext codec n key value

def decodeValueForKey (codec : ItemCodec C) (key : Key) (bytes : Bytes) : Except C T := do
  codec.getKeyset
  decodeUnlocked plaintext codec key bytes

/-- The keyset is fetched once, and only where there is a value to decode. -/
def decodeMultiValues (codec : ItemCodec C) (keys : List Key) (values : List (Option Bytes)) :
    Except C (List (Option T)) :=
  if values.all Option.isNone then .ok (values.map fun _ => none)
  else do
    codec.getKeyset
    (keys.zip values).mapM fun (key, value) =>
      match value with
      | none => .ok none
      | some bytes => (decodeUnlocked plaintext codec key bytes).map some

def decodeScannedRows (codec : ItemCodec C) (keyPrefix : KeyPrefix) (rows : List (Key × Bytes)) :
    Except C (List (String × T)) :=
  if rows = [] then .ok []
  else do
    codec.getKeyset
    rows.mapM fun (key, bytes) =>
      (decodeUnlocked plaintext codec key bytes).map fun value => (suffixFromKey keyPrefix key, value)

def encodeAtomicMutationForKey (codec : ItemCodec C) (n : Nat) (key : Key) :
    AtomicMutation T → Except C (AtomicMutation Bytes)
  | .keepExisting => .ok .keepExisting
  | .setValue value ttl => do return .setValue (← encodeValueForKey plaintext codec n key value) ttl
  | .setValuePreservingExpiration value => do
      return .setValuePreservingExpiration (← encodeValueForKey plaintext codec n key value)
  | .delete => .ok .delete

end Codecs

section Errors

inductive ItemError (C : Type)
  | store (error : KvError)
  | codec (error : C)
  | setMultiLengthMismatch (keyCount valueCount : Nat)
  deriving DecidableEq

def store {α : Type} (result : Except KvError α) : Except (ItemError C) α := result.mapError .store

def coded {α : Type} (result : Except C α) : Except (ItemError C) α := result.mapError .codec

@[simp] theorem store_ok {α : Type} (a : α) : (store (.ok a) : Except (ItemError C) α) = .ok a := rfl

@[simp] theorem store_error {α : Type} (error : KvError) :
    (store (.error error) : Except (ItemError C) α) = .error (.store error) := rfl

@[simp] theorem coded_ok {α : Type} (a : α) : (coded (.ok a) : Except (ItemError C) α) = .ok a := rfl

@[simp] theorem coded_error {α : Type} (error : C) :
    (coded (.error error) : Except (ItemError C) α) = .error (.codec error) := rfl

variable {ε δ α β : Type}

@[simp] theorem map_ok (f : α → β) (a : α) : (Except.ok a : Except ε α).map f = .ok (f a) := rfl

@[simp] theorem map_error (f : α → β) (e : ε) : (Except.error e : Except ε α).map f = .error e := rfl

@[simp] theorem mapError_ok (f : ε → δ) (a : α) : (Except.ok a : Except ε α).mapError f = .ok a := rfl

@[simp] theorem mapError_error (f : ε → δ) (e : ε) :
    (Except.error e : Except ε α).mapError f = .error (f e) := rfl

@[simp] theorem throw_eq_error (e : ε) : (throw e : Except ε α) = .error e := rfl

end Errors

section Keys

variable (keyPrefix : KeyPrefix)

def keyFromParts (keyParts : List String) : Except KvError Key :=
  buildKeyFromPrefixAndParts keyPrefix keyParts

def keysFromPartsList (keyPartsList : List (List String)) : Except KvError (List Key) :=
  keyPartsList.mapM (keyFromParts keyPrefix)

def keysFromPartsListForMultiGet (keyPartsList : List (List String)) : Except KvError (List Key) := do
  if maxKvGetMultiKeys < keyPartsList.length then
    throw (.getMultiKeyCountTooLarge keyPartsList.length maxKvGetMultiKeys)
  let keys ← keysFromPartsList keyPrefix keyPartsList
  validateUnique keys
  return keys

/-- The keys and the values, each encoded for its key. -/
def multiSetEntries (plaintext : Plaintext T C) (codec : ItemCodec C) (keyPartsList : List (List String))
    (values : List T) : Except (ItemError C) (List (Key × Bytes)) := do
  if keyPartsList.length ≠ values.length then
    throw (.setMultiLengthMismatch keyPartsList.length values.length)
  if maxKvSetMultiEntries < keyPartsList.length then
    throw (.store (.setMultiEntryCountTooLarge keyPartsList.length maxKvSetMultiEntries))
  let keys ← store (keysFromPartsList keyPrefix keyPartsList)
  store (validateUnique keys)
  if keys = [] then return []
  coded codec.getKeyset
  (keys.zip values).zipIdx.mapM fun ((key, value), n) =>
    coded ((encodeUnlocked plaintext codec n key value).map fun bytes => (key, bytes))

/-- Every candidate with its key, each key once. -/
def prepareSlotCandidateKeys (candidateSuffixes : List String) : Except KvError (List (Key × String)) := do
  if maxKvAcquireSlotCandidates < candidateSuffixes.length then
    throw (.acquireSlotCandidateCountTooLarge candidateSuffixes.length maxKvAcquireSlotCandidates)
  candidateSuffixes.foldlM (fun prepared suffix => do
    let key ← buildKeyFromPrefixAndParts keyPrefix [suffix]
    if key ∈ prepared.map Prod.fst then throw .duplicateKeyInBulkOperation
    return prepared ++ [(key, suffix)]) []

end Keys

section Operations

structure ItemAtomicMutationCurrent (T : Type) where
  liveValue : Option T
  databaseTimestamp : Int

structure ItemAtomicLiveMutationCurrent (T : Type) where
  liveValue : T
  databaseTimestamp : Int

inductive ItemOperation (T E : Type)
  | get (keyParts : List String)
  | getAndReturnDatabaseTimestamp (keyParts : List String)
  | getOrFallback (keyParts : List String) (fallback : T)
  | getMulti (keyPartsList : List (List String))
  | checkExists (keyParts : List String)
  | count
  | scan (afterKeySuffix : Option String) (limit : Nat)
  | scanKeySuffixes (afterKeySuffix : Option String) (limit : Nat)
  | set (keyParts : List String) (value : T) (ttl : Ttl)
  | setAndReturnDatabaseTimestamp (keyParts : List String) (value : T) (ttl : Ttl)
  | setIfNotExists (keyParts : List String) (value : T) (ttl : Ttl)
  | setIfNotExistsAndReturnDatabaseTimestamp (keyParts : List String) (value : T) (ttl : Ttl)
  | setMulti (keyPartsList : List (List String)) (values : List T) (ttl : Ttl)
  | delete (keyParts : List String)
  | touch (keyParts : List String)
  | setTtl (keyParts : List String) (ttl : Ttl)
  | expire (keyParts : List String)
  | deleteEntireNamespaceAtomically
  | acquireSlot (candidateSuffixes : List String) (value : T) (ttl : Ttl) (pick : Nat)
  | getOrInit (keyParts : List String) (initialValue : T) (ttl : Ttl)
  | mutateAtomically (keyParts : List String)
      (decideMutation : ItemAtomicMutationCurrent T → Except E (AtomicMutation T))
  | mutateLiveAtomically (keyParts : List String)
      (decideMutation : ItemAtomicLiveMutationCurrent T → Except E (AtomicMutation T))
  | mutateLiveOrInsertInitialValueAtomically (keyParts : List String)
      (initializeValue : Int → Except E (T × Ttl))
      (decideMutation : ItemAtomicLiveMutationCurrent T → Except E (AtomicMutation T))

inductive ItemReply (T : Type)
  | done
  | value (value : T)
  | valueAt (value : T) (databaseTimestamp : Int)
  | values (values : List (Option T))
  | present (present : Bool)
  | count (count : Nat)
  | scanned (values : List (String × T))
  | scannedSuffixes (suffixes : List String)
  | timestamp (databaseTimestamp : Int)
  | wasSet (wasSet : Bool)
  | setAt (databaseTimestamp : Option Int)
  | slot (suffix : Option String)
  | gotOrInit (value : T) (initialized : Bool)
  | mutated (previousLiveValue : Option T) (outcome : AtomicMutationOutcome)
  | mutatedLive (previousLiveValue : T) (outcome : AtomicMutationOutcome)
  | mutatedLiveOrInit (initialized : Bool) (liveValueSeenByCallback : T) (outcome : AtomicMutationOutcome)
  deriving DecidableEq

/-- The times of an operation: its first statement runs at `now`, the second `delay` later,
and the third `secondDelay` after that. -/
structure Times where
  now : Int
  delay : Nat
  secondDelay : Nat

def Times.last (times : Times) : Int := times.now + times.delay + times.secondDelay

theorem Times.now_le_last (times : Times) : times.now ≤ times.last := by
  rw [Times.last]
  omega

def namespaceSweep (keyPrefix : KeyPrefix) : Sweep Table Unit KvError where
  batchSize := maxKvDeleteBatchSize
  batch _ t := KvStore.deleteKeysWithPrefixOnce t keyPrefix maxKvDeleteBatchSize
  add total deleted := .ok (total + deleted)

/-- All batches run in one transaction, so nothing happens between them. -/
def deleteEntireNamespace (keyPrefix : KeyPrefix) (t : Table) : Except KvError (Nat × Table) :=
  let s := Transitions.exec (step (namespaceSweep keyPrefix))
    (aloneInputs (List.replicate (t.rows.length + 1) ())) (start t)
  match s.phase with
  | .returned (.error error) => .error error
  | _ => .ok (s.total, s.tables)

variable (plaintext : Plaintext T C) (codec : ItemCodec C) (keyPrefix : KeyPrefix) (times : Times)

def get (keyParts : List String) (t : Table) : Except (ItemError C) T := do
  let key ← store (keyFromParts keyPrefix keyParts)
  let bytes ← store (KvStore.getBytes times.now t key)
  coded (decodeValueForKey plaintext codec key bytes)

def getAndReturnDatabaseTimestamp (keyParts : List String) (t : Table) :
    Except (ItemError C) (T × Int) := do
  let key ← store (keyFromParts keyPrefix keyParts)
  let row ← store (KvStore.getBytesAndReturnDatabaseTimestamp times.now t key)
  return (← coded (decodeValueForKey plaintext codec key row.1), row.2)

def getOrFallback (keyParts : List String) (fallback : T) (t : Table) : Except (ItemError C) T :=
  match get plaintext codec keyPrefix times keyParts t with
  | .ok value => .ok value
  | .error (.store .keyNotFound) => .ok fallback
  | .error error => .error error

def getMulti (keyPartsList : List (List String)) (t : Table) :
    Except (ItemError C) (List (Option T)) := do
  let keys ← store (keysFromPartsListForMultiGet keyPrefix keyPartsList)
  let values ← store (KvStore.getBytesMulti times.now t keys)
  coded (decodeMultiValues plaintext codec keys values)

def scan (afterKeySuffix : Option String) (limit : Nat) (t : Table) :
    Except (ItemError C) (List (String × T)) := do
  let afterKey ← store (afterKeyFromOptionalSuffix keyPrefix afterKeySuffix)
  let rows ← store (KvStore.scanBytesWithPrefix times.now t keyPrefix afterKey limit)
  coded (decodeScannedRows plaintext codec keyPrefix rows)

/-- The slot is acquired before an encrypted value is made for its key: the value of a slot is
bound to the key, and which key it is the server decides. -/
def acquirePreparedKey (first : Key) (keys : List Key) (value : T) (ttl : Ttl) (pick : Nat) (t : Table) :
    Except (ItemError C) (Option Key × Table) :=
  match codec with
  | .plain => do
      let encoded ← coded (encodeValueForKey plaintext codec 0 first value)
      store (KvStore.acquireSlotBytes times.now t times.delay (first :: keys) encoded ttl pick)
  | .encrypted cipher => do
      coded cipher.getKeyset
      let plaintextBytes ← coded (plaintext.toPlaintextBytes value)
      let (acquired, t) ←
        store (KvStore.acquireSlotBytes times.now t times.delay (first :: keys) [] ttl pick)
      match acquired with
      | none => return (none, t)
      | some key =>
          let encoded ← coded (cipher.encrypt 0 plaintextBytes (itemAssociatedData key))
          let t ← store
            (KvStore.setBytes times.last t key encoded ttl)
          return (some key, t)

def acquireSlot (candidateSuffixes : List String) (value : T) (ttl : Ttl) (pick : Nat) (t : Table) :
    Except (ItemError C) (Option String × Table) := do
  let prepared ← store (prepareSlotCandidateKeys keyPrefix candidateSuffixes)
  let _ ← store (positiveExpiringTtlMicroseconds ttl)
  match prepared.map Prod.fst with
  | [] => return (none, t)
  | first :: keys =>
      let (acquired, t) ← acquirePreparedKey plaintext codec times first keys value ttl pick t
      return (acquired.bind fun key => prepared.lookup key, t)

end Operations

section Callbacks

variable (lift : ItemError C → E) (plaintext : Plaintext T C) (codec : ItemCodec C)
  (keyPrefix : KeyPrefix) (times : Times)

/-- An atomic mutation with a callback that also keeps something for its caller. It is called
once, with the live value that the store reports. -/
def mutateCapturing {κ : Type} (keyParts : List String)
    (decideMutation : Key → AtomicMutationCurrent → Except E (κ × AtomicMutation Bytes)) (t : Table) :
    Except E (κ × AtomicMutationOutcome × Table) := do
  let key ← (keyFromParts keyPrefix keyParts).mapError fun error => lift (.store error)
  let (result, t) ← KvStore.mutateKeyAtomically t key (fun error => lift (.store error))
    (fun _ => times.now) times.delay fun current => (decideMutation key current).map Prod.snd
  let databaseTimestamp ←
    (query (KvStatements.kvTimestampMicros times.now)).mapError fun error => lift (.store error)
  let (captured, _) ← decideMutation key ⟨result.previousLiveValue, databaseTimestamp⟩
  return (captured, result.outcome, t)

/-- What the callback of `get_or_init` loads. -/
def initOrKeep (initialValue : T) (ttl : Ttl) (key : Key) (current : AtomicMutationCurrent) :
    Except C (T × AtomicMutation Bytes) :=
  match current.liveValue with
  | some bytes => do return (← decodeValueForKey plaintext codec key bytes, .keepExisting)
  | none => do
      let encoded ← encodeValueForKey plaintext codec 0 key initialValue
      return (initialValue, .setValue encoded ttl)

def decideOnValue
    (decideMutation : ItemAtomicMutationCurrent T → Except E (AtomicMutation T)) (key : Key)
    (current : AtomicMutationCurrent) : Except E (Option T × AtomicMutation Bytes) := do
  let previousLiveValue ← match current.liveValue with
    | none => .ok none
    | some bytes =>
        ((decodeValueForKey plaintext codec key bytes).map some).mapError fun error => lift (.codec error)
  let mutation ← decideMutation ⟨previousLiveValue, current.databaseTimestamp⟩
  let encoded ← (encodeAtomicMutationForKey plaintext codec 0 key mutation).mapError fun error =>
    lift (.codec error)
  return (previousLiveValue, encoded)

def decideOnLiveValue
    (decideMutation : ItemAtomicLiveMutationCurrent T → Except E (AtomicMutation T)) (n : Nat) (key : Key)
    (bytes : Bytes) (databaseTimestamp : Int) : Except E (T × AtomicMutation Bytes) := do
  let liveValue ← (decodeValueForKey plaintext codec key bytes).mapError fun error => lift (.codec error)
  let mutation ← decideMutation ⟨liveValue, databaseTimestamp⟩
  let encoded ← (encodeAtomicMutationForKey plaintext codec n key mutation).mapError fun error =>
    lift (.codec error)
  return (liveValue, encoded)

def requireLiveValue
    (decideMutation : ItemAtomicLiveMutationCurrent T → Except E (AtomicMutation T)) (key : Key)
    (current : AtomicMutationCurrent) : Except E (T × AtomicMutation Bytes) :=
  match current.liveValue with
  | none => .error (lift (.store .keyNotFound))
  | some bytes =>
      decideOnLiveValue lift plaintext codec decideMutation 0 key bytes current.databaseTimestamp

/-- The callback sees an absent value as the initial one, which is written where it keeps it. -/
def initializeThenDecide (initializeValue : Int → Except E (T × Ttl))
    (decideMutation : ItemAtomicLiveMutationCurrent T → Except E (AtomicMutation T)) (key : Key)
    (current : AtomicMutationCurrent) : Except E ((Bool × T) × AtomicMutation Bytes) :=
  match current.liveValue with
  | some bytes => do
      let (seen, mutation) ←
        decideOnLiveValue lift plaintext codec decideMutation 0 key bytes current.databaseTimestamp
      return ((false, seen), mutation)
  | none => do
      let (initialValue, initialTtl) ← initializeValue current.databaseTimestamp
      let encoded ← (encodeValueForKey plaintext codec 0 key initialValue).mapError fun error =>
        lift (.codec error)
      let (seen, mutation) ←
        decideOnLiveValue lift plaintext codec decideMutation 1 key encoded current.databaseTimestamp
      return ((true, seen), match mutation with
        | .keepExisting => .setValue encoded initialTtl
        | .setValuePreservingExpiration value => .setValue value initialTtl
        | mutation => mutation)

/-- A call of an item in a transaction of its own, which rolls back where the call fails. -/
def runItem (operation : ItemOperation T E) (t : Table) : Except E (ItemReply T × Table) :=
  match operation with
  | .get keyParts =>
      ((get plaintext codec keyPrefix times keyParts t).map fun value => (.value value, t)).mapError lift
  | .getAndReturnDatabaseTimestamp keyParts =>
      ((getAndReturnDatabaseTimestamp plaintext codec keyPrefix times keyParts t).map fun found =>
        (.valueAt found.1 found.2, t)).mapError lift
  | .getOrFallback keyParts fallback =>
      ((getOrFallback plaintext codec keyPrefix times keyParts fallback t).map fun value =>
        (.value value, t)).mapError lift
  | .getMulti keyPartsList =>
      ((getMulti plaintext codec keyPrefix times keyPartsList t).map fun values =>
        (.values values, t)).mapError lift
  | .checkExists keyParts => Except.mapError lift do
      let key ← store (keyFromParts keyPrefix keyParts)
      return (.present (KvStatements.checkKeyExists times.now t key), t)
  | .count => .ok (.count (KvStatements.countLiveKeysWithPrefix times.now t keyPrefix), t)
  | .scan afterKeySuffix limit =>
      ((scan plaintext codec keyPrefix times afterKeySuffix limit t).map fun values =>
        (.scanned values, t)).mapError lift
  | .scanKeySuffixes afterKeySuffix limit =>
      ((store (KvScans.scanKeySuffixes keyPrefix limit times.now t afterKeySuffix)).map fun suffixes =>
        (.scannedSuffixes suffixes, t)).mapError lift
  | .set keyParts value ttl => Except.mapError lift do
      let key ← store (keyFromParts keyPrefix keyParts)
      let encoded ← coded (encodeValueForKey plaintext codec 0 key value)
      return (.done, ← store (KvStore.setBytes times.now t key encoded ttl))
  | .setAndReturnDatabaseTimestamp keyParts value ttl => Except.mapError lift do
      let key ← store (keyFromParts keyPrefix keyParts)
      let encoded ← coded (encodeValueForKey plaintext codec 0 key value)
      let (timestamp, t) ←
        store (KvStore.setBytesAndReturnDatabaseTimestamp times.now t key encoded ttl)
      return (.timestamp timestamp, t)
  | .setIfNotExists keyParts value ttl => Except.mapError lift do
      let key ← store (keyFromParts keyPrefix keyParts)
      let encoded ← coded (encodeValueForKey plaintext codec 0 key value)
      let (wasSet, t) ← store (KvStore.setBytesIfNotExists times.now t key encoded ttl)
      return (.wasSet wasSet, t)
  | .setIfNotExistsAndReturnDatabaseTimestamp keyParts value ttl => Except.mapError lift do
      let key ← store (keyFromParts keyPrefix keyParts)
      let encoded ← coded (encodeValueForKey plaintext codec 0 key value)
      let (timestamp, t) ←
        store (KvStore.setBytesIfNotExistsAndReturnDatabaseTimestamp times.now t key encoded ttl)
      return (.setAt timestamp, t)
  | .setMulti keyPartsList values ttl => Except.mapError lift do
      let entries ← multiSetEntries keyPrefix plaintext codec keyPartsList values
      return (.done, ← store (KvStore.setBytesMulti times.now t entries ttl))
  | .delete keyParts => Except.mapError lift do
      let key ← store (keyFromParts keyPrefix keyParts)
      return (.done, ← store (KvStore.deleteKey times.now t key))
  | .touch keyParts => Except.mapError lift do
      let key ← store (keyFromParts keyPrefix keyParts)
      return (.done, ← store (KvStore.touchKey times.now t key))
  | .setTtl keyParts ttl => Except.mapError lift do
      let key ← store (keyFromParts keyPrefix keyParts)
      return (.done, ← store (KvStore.setKeyTtl times.now t key ttl))
  | .expire keyParts => Except.mapError lift do
      let key ← store (keyFromParts keyPrefix keyParts)
      return (.done, ← store (KvStore.expireKey times.now t key))
  | .deleteEntireNamespaceAtomically =>
      ((store (deleteEntireNamespace keyPrefix t)).map fun (count, t) => (.count count, t)).mapError lift
  | .acquireSlot candidateSuffixes value ttl pick =>
      ((acquireSlot plaintext codec keyPrefix times candidateSuffixes value ttl pick t).map
        fun (suffix, t) => (.slot suffix, t)).mapError lift
  | .getOrInit keyParts initialValue ttl => do
      let (value, outcome, t) ← mutateCapturing lift keyPrefix times keyParts
        (fun key current => (initOrKeep plaintext codec initialValue ttl key current).mapError
          fun error => lift (.codec error)) t
      return (.gotOrInit value (outcome = .setBytes), t)
  | .mutateAtomically keyParts decideMutation => do
      let (previous, outcome, t) ← mutateCapturing lift keyPrefix times keyParts
        (decideOnValue lift plaintext codec decideMutation) t
      return (.mutated previous outcome, t)
  | .mutateLiveAtomically keyParts decideMutation => do
      let (previous, outcome, t) ← mutateCapturing lift keyPrefix times keyParts
        (requireLiveValue lift plaintext codec decideMutation) t
      return (.mutatedLive previous outcome, t)
  | .mutateLiveOrInsertInitialValueAtomically keyParts initializeValue decideMutation => do
      let ((initialized, seen), outcome, t) ← mutateCapturing lift keyPrefix times keyParts
        (initializeThenDecide lift plaintext codec initializeValue decideMutation) t
      return (.mutatedLiveOrInit initialized seen outcome, t)

end Callbacks

end Paranoid.ItemModel
