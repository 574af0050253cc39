import Paranoid.KvMutation

namespace Paranoid.KvOperations

open KvAtomic KvModel KvStatements KvStore KvMutation Postgres
open ExpiringMap (Entry live Map)

variable {E : Type} (lift : KvError → E)

inductive Operation (E : Type)
  | getBytes (key : Key)
  | getBytesAndReturnDatabaseTimestamp (key : Key)
  | getBytesMulti (keys : List Key)
  | setBytes (key : Key) (value : Bytes) (ttl : Ttl)
  | setBytesAndReturnDatabaseTimestamp (key : Key) (value : Bytes) (ttl : Ttl)
  | setBytesMulti (entries : List (Key × Bytes)) (ttl : Ttl)
  | setBytesIfNotExists (key : Key) (value : Bytes) (ttl : Ttl)
  | setBytesIfNotExistsAndReturnDatabaseTimestamp (key : Key) (value : Bytes) (ttl : Ttl)
  | touchKey (key : Key)
  | setKeyTtl (key : Key) (ttl : Ttl)
  | expireKey (key : Key)
  | deleteKey (key : Key)
  | checkKeyExists (key : Key)
  | countLiveKeysWithPrefix (keyPrefix : KeyPrefix)
  | scanBytesWithPrefix (keyPrefix : KeyPrefix) (afterKey : Option Key) (limit : Nat)
  | scanKeysWithPrefix (keyPrefix : KeyPrefix) (afterKey : Option Key) (limit : Nat)
  | deleteKeysWithPrefixOnce (keyPrefix : KeyPrefix) (batchSize : Nat)
  | acquireSlotBytes (candidateKeys : List Key) (value : Bytes) (ttl : Ttl) (pick : Nat)
  | mutateKeyAtomically (key : Key) (decideMutation : AtomicMutationCurrent → Except E (AtomicMutation Bytes))

inductive Reply
  | done
  | value (value : Bytes)
  | valueAt (value : Bytes) (databaseTimestamp : Int)
  | values (values : List (Option Bytes))
  | timestamp (databaseTimestamp : Int)
  | wasSet (wasSet : Bool)
  | setAt (databaseTimestamp : Option Int)
  | present (present : Bool)
  | count (count : Nat)
  | scannedBytes (rows : List (Key × Bytes))
  | scannedKeys (keys : List Key)
  | slot (key : Option Key)
  | mutated (result : AtomicMutationResult)
  deriving DecidableEq

section Results

variable {S α : Type}

def reads (s : S) (reply : α → Reply) (result : Except KvError α) : Except E (Reply × S) :=
  (result.map fun a => (reply a, s)).mapError lift

def writes (reply : α → Reply) (result : Except KvError (α × S)) : Except E (Reply × S) :=
  (result.map fun (a, s) => (reply a, s)).mapError lift

end Results

/-- An operation in a transaction of its own, whose first statement runs at `now` and
whose second one `delay` later. Where it fails the transaction rolls back. A key is
locked at the first attempt, since no other transaction is under way. -/
def run (now : Int) (delay : Nat) (operation : Operation E) (t : Table) : Except E (Reply × Table) :=
  match operation with
  | .getBytes key => reads lift t .value (KvStore.getBytes now t key)
  | .getBytesAndReturnDatabaseTimestamp key =>
      reads lift t (fun found => .valueAt found.1 found.2)
        (KvStore.getBytesAndReturnDatabaseTimestamp now t key)
  | .getBytesMulti keys => reads lift t .values (KvStore.getBytesMulti now t keys)
  | .setBytes key value ttl =>
      writes lift (fun _ => .done) ((KvStore.setBytes now t key value ttl).map (Prod.mk ()))
  | .setBytesAndReturnDatabaseTimestamp key value ttl =>
      writes lift .timestamp (KvStore.setBytesAndReturnDatabaseTimestamp now t key value ttl)
  | .setBytesMulti entries ttl =>
      writes lift (fun _ => .done) ((KvStore.setBytesMulti now t entries ttl).map (Prod.mk ()))
  | .setBytesIfNotExists key value ttl =>
      writes lift .wasSet (KvStore.setBytesIfNotExists now t key value ttl)
  | .setBytesIfNotExistsAndReturnDatabaseTimestamp key value ttl =>
      writes lift .setAt (KvStore.setBytesIfNotExistsAndReturnDatabaseTimestamp now t key value ttl)
  | .touchKey key => writes lift (fun _ => .done) ((KvStore.touchKey now t key).map (Prod.mk ()))
  | .setKeyTtl key ttl =>
      writes lift (fun _ => .done) ((KvStore.setKeyTtl now t key ttl).map (Prod.mk ()))
  | .expireKey key => writes lift (fun _ => .done) ((KvStore.expireKey now t key).map (Prod.mk ()))
  | .deleteKey key => writes lift (fun _ => .done) ((KvStore.deleteKey now t key).map (Prod.mk ()))
  | .checkKeyExists key => .ok (.present (KvStatements.checkKeyExists now t key), t)
  | .countLiveKeysWithPrefix keyPrefix =>
      .ok (.count (KvStatements.countLiveKeysWithPrefix now t keyPrefix), t)
  | .scanBytesWithPrefix keyPrefix afterKey limit =>
      reads lift t .scannedBytes (KvStore.scanBytesWithPrefix now t keyPrefix afterKey limit)
  | .scanKeysWithPrefix keyPrefix afterKey limit =>
      reads lift t .scannedKeys (KvStore.scanKeysWithPrefix now t keyPrefix afterKey limit)
  | .deleteKeysWithPrefixOnce keyPrefix batchSize =>
      writes lift .count (KvStore.deleteKeysWithPrefixOnce t keyPrefix batchSize)
  | .acquireSlotBytes candidateKeys value ttl pick =>
      writes lift .slot (KvStore.acquireSlotBytes now t delay candidateKeys value ttl pick)
  | .mutateKeyAtomically key decideMutation =>
      (KvStore.mutateKeyAtomically t key lift (fun _ => now) delay decideMutation).map
        fun (result, t) => (.mutated result, t)

/-- What an operation on one key makes of its live entry. -/
abbrev Effect (E : Type) : Type :=
  Option (Entry Bytes Int) → Except E (Reply × Option (Entry Bytes Int))

def requireLive (effect : Entry Bytes Int → Except KvError (Reply × Option (Entry Bytes Int))) :
    Effect E
  | none => .error (lift .keyNotFound)
  | some entry => (effect entry).mapError lift

def readLive (read : Entry Bytes Int → Except KvError Reply) : Effect E :=
  requireLive lift fun entry => (read entry).map fun reply => (reply, some entry)

def updateLive (written : Entry Bytes Int → Except SqlError (Entry Bytes Int)) : Effect E :=
  requireLive lift fun entry => (query (written entry)).map fun entry => (.done, some entry)

def overwrite (now : Int) (value : Bytes) (ttl : Ttl) (reply : Except SqlError Reply) :
    Effect E := fun _ =>
  Except.mapError lift do
    let expiresAt ← query (expiresAtExpression now ttl.positiveMicroseconds)
    return (← query reply, some ⟨value, expiresAt⟩)

def overwriteDead (now : Int) (value : Bytes) (ttl : Ttl)
    (set : Except SqlError Reply) (kept : Reply) : Effect E :=
  fun live => Except.mapError lift do
    let expiresAt ← query (expiresAtExpression now ttl.positiveMicroseconds)
    match live with
    | none => return (← query set, some ⟨value, expiresAt⟩)
    | some _ => return (kept, live)

/-- The operations on one key, as operations on an expiring map. -/
def keyEffect (now : Int) (delay : Nat) : Operation E → Option (Key × Effect E)
  | .getBytes key => some (key, readLive lift fun entry => .ok (.value entry.value))
  | .getBytesAndReturnDatabaseTimestamp key => some (key, readLive lift fun entry =>
      (query (kvTimestampMicros now)).map fun timestamp => .valueAt entry.value timestamp)
  | .setBytes key value ttl => some (key, overwrite lift now value ttl (.ok .done))
  | .setBytesAndReturnDatabaseTimestamp key value ttl =>
      some (key, overwrite lift now value ttl ((kvTimestampMicros now).map .timestamp))
  | .setBytesIfNotExists key value ttl =>
      some (key, overwriteDead lift now value ttl (.ok (.wasSet true)) (.wasSet false))
  | .setBytesIfNotExistsAndReturnDatabaseTimestamp key value ttl =>
      some (key, overwriteDead lift now value ttl
        ((kvTimestampMicros now).map fun timestamp => .setAt (some timestamp)) (.setAt none))
  | .touchKey key => some (key, updateLive lift fun entry => .ok entry)
  | .setKeyTtl key ttl => some (key, updateLive lift fun entry =>
      (expiresAtExpression now ttl.positiveMicroseconds).map fun expiresAt => { entry with expiresAt })
  | .expireKey key => some (key, updateLive lift fun entry => .ok { entry with expiresAt := some now })
  | .deleteKey key => some (key, requireLive lift fun _ => .ok (.done, none))
  | .checkKeyExists key => some (key, fun live => .ok (.present live.isSome, live))
  | .mutateKeyAtomically key decideMutation => some (key, fun live =>
      (decidedEntry lift now delay decideMutation live).map fun (result, cell) =>
        (.mutated result, cell))
  | _ => none

/-- The keys that a scan may return. -/
def scannedKey (keyPrefix : KeyPrefix) (afterKeyText : String) (key : Key) : Bool :=
  keyPrefix.containsKey key && afterKeyText < key.text

/-- A prefix delete frees the first live keys under its prefix, and reports no fewer.
It frees them all where it reports less than its batch. -/
structure Freed (m : Map Key Bytes Int) (now : Int) (keyPrefix : KeyPrefix) (batchSize count : Nat)
    (freed : Finset Key) : Prop where
  under : freed ⊆ (m.liveKeys now).filter fun key => keyPrefix.containsKey key
  counted : freed.card ≤ count
  bounded : count ≤ batchSize
  first : ∀ a ∈ freed, ∀ b ∈ m.liveKeys now, keyPrefix.containsKey b → b < a → b ∈ freed
  exhausted : count < batchSize → freed = (m.liveKeys now).filter fun key => keyPrefix.containsKey key

/-- A slot is a candidate that is not live, and there is none only where all are. -/
def Free (m : Map Key Bytes Int) (now : Int) (candidateKeys : List Key) : Option Key → Prop
  | none => ∀ key ∈ candidateKeys, (m.view now key).isSome
  | some slot => slot ∈ candidateKeys ∧ m.view now slot = none

def occupied (m : Map Key Bytes Int) (now : Int) (value : Bytes) (ttlMicroseconds : Int) :
    Option Key → Except SqlError (Option Key × Map Key Bytes Int)
  | none => .ok (none, m)
  | some slot => do
      let expiresAt ← timestampPlusMicroseconds now ttlMicroseconds
      return (some slot, m.put slot (some ⟨value, some expiresAt⟩))

/-- The results that an operation may have on an expiring map. -/
inductive Performs (now : Int) (delay : Nat) (m : Map Key Bytes Int) :
    Operation E → Except E (Reply × Map Key Bytes Int) → Prop
  | onKey {operation : Operation E} {key : Key} {effect : Effect E}
      (h : keyEffect lift now delay operation = some (key, effect)) :
      Performs now delay m operation
        ((effect (m.view now key)).map fun (reply, cell) => (reply, m.put key cell))
  | getBytesMulti (keys : List Key) :
      Performs now delay m (.getBytesMulti keys) (reads lift m .values do
        let keys ← prepareUniqueKeysForMultiGet keys
        return keys.map fun key => (m.view now key).map (·.value))
  | setBytesMulti (entries : List (Key × Bytes)) (ttl : Ttl) :
      Performs now delay m (.setBytesMulti entries ttl) (writes lift (fun _ => .done) do
        validateSetMultiEntryCount entries
        if entries = [] then return ((), m)
        validateUnique (entries.map Prod.fst)
        let expiresAt ← query (expiresAtExpression now ttl.positiveMicroseconds)
        return ((), entries.foldl (fun m entry => m.put entry.1 (some ⟨entry.2, expiresAt⟩)) m))
  | countLiveKeysWithPrefix (keyPrefix : KeyPrefix) :
      Performs now delay m (.countLiveKeysWithPrefix keyPrefix)
        (.ok (.count ((m.liveKeys now).filter fun key => keyPrefix.containsKey key).card, m))
  | scanBytesWithPrefix (keyPrefix : KeyPrefix) (afterKey : Option Key) (limit : Nat) :
      Performs now delay m (.scanBytesWithPrefix keyPrefix afterKey limit)
        (reads lift m .scannedBytes do
        validateScanLimit limit
        let afterKeyText ← scanAfterKeyText keyPrefix afterKey
        return (m.scan now (scannedKey keyPrefix afterKeyText) limit).filterMap fun key =>
          (m.view now key).map fun entry => (key, entry.value))
  | scanKeysWithPrefix (keyPrefix : KeyPrefix) (afterKey : Option Key) (limit : Nat) :
      Performs now delay m (.scanKeysWithPrefix keyPrefix afterKey limit) (reads lift m .scannedKeys do
        validateScanLimit limit
        let afterKeyText ← scanAfterKeyText keyPrefix afterKey
        return m.scan now (scannedKey keyPrefix afterKeyText) limit)
  | deleteKeysWithPrefixOnce {keyPrefix : KeyPrefix} {batchSize count : Nat} {freed : Finset Key}
      (h : Freed m now keyPrefix batchSize count freed) :
      Performs now delay m (.deleteKeysWithPrefixOnce keyPrefix batchSize) (writes lift .count do
        validateDeleteBatchSize batchSize
        return (count, m.without freed))
  | acquireSlotBytes {candidateKeys : List Key} {slot : Option Key} (value : Bytes) (ttl : Ttl) (pick : Nat)
      (h : Free m (now + delay) candidateKeys slot) :
      Performs now delay m (.acquireSlotBytes candidateKeys value ttl pick) (writes lift .slot do
        let keys ← prepareUniqueKeysForSlotAcquisition candidateKeys
        let ttlMicroseconds ← positiveExpiringTtlMicroseconds ttl
        if keys = [] then return (none, m)
        let _ ← query (timestamptz (now - oneSecond))
        query (occupied m (now + delay) value ttlMicroseconds slot))

end Paranoid.KvOperations
