import Paranoid.KvModel

namespace Paranoid.KvStatements

open KvAtomic KvModel Postgres

variable (now : Int) (t : Table)

/-- `(EXTRACT(EPOCH FROM timestamp) * 1000000)::bigint`. -/
def kvTimestampMicros (timestamp : Int) : Except SqlError Int := int8 timestamp

/-- `statement_timestamp() + ($n::bigint * INTERVAL '1 microsecond')`, or `NULL`. -/
def expiresAtExpression : Option Int → Except SqlError (Option Int)
  | none => .ok none
  | some ttlMicroseconds => do return some (← timestampPlusMicroseconds now ttlMicroseconds)

section Reads

def getBytes (key : Key) : Option Bytes := (t.liveRow? now key).map (·.value)

def getBytesReturningDatabaseTimestamp (key : Key) : Except SqlError (Option (Bytes × Int)) :=
  match t.liveRow? now key with
  | none => .ok none
  | some row => do return some (row.value, ← kvTimestampMicros now)

def getBytesMulti (keys : List Key) : List (Key × Bytes) :=
  (t.rows.filter fun row => row.key ∈ keys && notExpired now row).map fun row => (row.key, row.value)

def checkKeyExists (key : Key) : Bool := (t.liveRow? now key).isSome

def liveRowsWithPrefix (keyPrefix : KeyPrefix) : List KvRow :=
  t.rows.filter fun row => row.key.like (prefixLikePattern keyPrefix) && notExpired now row

def countLiveKeysWithPrefix (keyPrefix : KeyPrefix) : Nat := (liveRowsWithPrefix now t keyPrefix).length

/-- The rows after a key text, in key order. -/
def scanBytesWithPrefix (keyPrefix : KeyPrefix) (afterKeyText : String) (limit : Nat) :
    List (Key × Bytes) :=
  ((((liveRowsWithPrefix now t keyPrefix).filter fun row => afterKeyText < row.key.text).insertionSort
    fun a b => a.key ≤ b.key).take limit).map fun row => (row.key, row.value)

def scanKeysWithPrefix (keyPrefix : KeyPrefix) (afterKeyText : String) (limit : Nat) : List Key :=
  (scanBytesWithPrefix now t keyPrefix afterKeyText limit).map Prod.fst

end Reads

section Writes

def setBytes (key : Key) (value : Bytes) (ttlMicroseconds : Option Int) : Except SqlError Table := do
  let expiresAt ← expiresAtExpression now ttlMicroseconds
  return t.upsert ⟨key, value, expiresAt, now⟩

def setBytesReturningDatabaseTimestamp (key : Key) (value : Bytes) (ttlMicroseconds : Option Int) :
    Except SqlError (Int × Table) := do
  let t ← setBytes now t key value ttlMicroseconds
  return (← kvTimestampMicros now, t)

/-- The keys are distinct. -/
def setBytesMulti (entries : List (Key × Bytes)) (ttlMicroseconds : Option Int) :
    Except SqlError Table := do
  let expiresAt ← expiresAtExpression now ttlMicroseconds
  return entries.foldl (fun t entry => t.upsert ⟨entry.1, entry.2, expiresAt, now⟩) t

/-- The conflicting row is replaced where it has expired. -/
def setBytesIfNotExists (key : Key) (value : Bytes) (ttlMicroseconds : Option Int) :
    Except SqlError (Bool × Table) := do
  let expiresAt ← expiresAtExpression now ttlMicroseconds
  if (t.row? key).all (expired now) then return (true, t.upsert ⟨key, value, expiresAt, now⟩)
  else return (false, t)

def setBytesIfNotExistsReturningDatabaseTimestamp (key : Key)
    (value : Bytes) (ttlMicroseconds : Option Int) :
    Except SqlError (Option Int × Table) := do
  let (wasSet, t) ← setBytesIfNotExists now t key value ttlMicroseconds
  if wasSet then return (some (← kvTimestampMicros now), t) else return (none, t)

/-- An update of one key's row, with the number of rows affected. -/
def updateRow (row? : Option KvRow) (set : KvRow → Except SqlError KvRow) :
    Except SqlError (Nat × Table) :=
  match row? with
  | none => .ok (0, t)
  | some row => do return (1, t.upsert (← set row))

def touchKey (key : Key) : Except SqlError (Nat × Table) :=
  updateRow t (t.liveRow? now key) fun row => .ok { row with updatedAt := now }

def setKeyTtl (key : Key) (ttlMicroseconds : Option Int) : Except SqlError (Nat × Table) :=
  updateRow t (t.liveRow? now key) fun row => do
    let expiresAt ← expiresAtExpression now ttlMicroseconds
    return { row with expiresAt, updatedAt := now }

def expireKey (key : Key) : Except SqlError (Nat × Table) :=
  updateRow t (t.liveRow? now key) fun row => .ok { row with expiresAt := some now, updatedAt := now }

def deleteKey (key : Key) : Nat × Table :=
  ((t.liveRow? now key).toList.length, t.deleteWhere fun row => row.key = key && notExpired now row)

end Writes

section Batches

/-- The rows of a batch, and the table without them. -/
def deleteBatch (batch : List KvRow) : Nat × Table :=
  (batch.length, t.deleteWhere fun row => row.key ∈ batch.map KvRow.key)

/-- In the order of `expires_at, key`. -/
def deleteExpiredKeysOnce (batchSize : Nat) : Nat × Table :=
  deleteBatch t (((t.rows.filter (expired now)).insertionSort fun a b =>
    a.expiresAt.getD 0 < b.expiresAt.getD 0 ∨ a.expiresAt = b.expiresAt ∧ a.key ≤ b.key).take batchSize)

/-- Rows go whether they have expired or not. -/
def deleteKeysWithPrefixOnce (keyPrefix : KeyPrefix) (batchSize : Nat) : Nat × Table :=
  deleteBatch t (((t.rows.filter fun row =>
    row.key.like (prefixLikePattern keyPrefix)).insertionSort
    fun a b => a.key ≤ b.key).take batchSize)

end Batches

section Slots

def oneSecond : Int := 1000000

/-- Slot rows that have already expired; present rows are left alone. -/
def ensureSlotKeysExist (keys : List Key) : Except SqlError Table := do
  if keys = [] then return t
  let expiresAt ← timestamptz (now - oneSecond)
  return keys.foldl
    (fun t key => if (t.row? key).isSome then t else t.upsert ⟨key, [], some expiresAt, now⟩) t

/-- The query orders no rows before its `LIMIT 1`: `pick` is the server's choice. -/
def acquireSlot (value : Bytes) (ttlMicroseconds : Int) (keys : List Key) (pick : Nat) :
    Except SqlError (Option Key × Table) :=
  let free := t.rows.filter fun row => row.key ∈ keys && expired now row
  match free[pick % free.length]? with
  | none => .ok (none, t)
  | some row => do
      let expiresAt ← timestampPlusMicroseconds now ttlMicroseconds
      return (some row.key, t.upsert ⟨row.key, value, some expiresAt, now⟩)

end Slots

section AtomicMutations

structure LockedKvRow where
  value : Bytes
  isLive : Bool
  databaseTimestamp : Int

/-- The row, locked, or a placeholder inserted for an absent one and already expired;
the flag tells which. -/
def lockKeyForAtomicMutation (key : Key) : Except SqlError (Option (Bool × LockedKvRow) × Table) :=
  match t.row? key with
  | some row => do return (some (false, ⟨row.value, notExpired now row, ← kvTimestampMicros now⟩), t)
  | none => do
      return (some (true, ⟨[], false, ← kvTimestampMicros now⟩), t.upsert ⟨key, [], some now, now⟩)

def updateKeyValueAndTtlForAtomicMutation (key : Key) (value : Bytes) (ttlMicroseconds : Option Int) :
    Except SqlError (Nat × Table) :=
  updateRow t (t.row? key) fun row => do
    let expiresAt ← expiresAtExpression now ttlMicroseconds
    return { row with value, expiresAt, updatedAt := now }

def updateKeyValuePreservingExpirationForAtomicMutation (key : Key) (value : Bytes) :
    Except SqlError (Nat × Table) :=
  updateRow t (t.row? key) fun row => .ok { row with value, updatedAt := now }

def deleteKeyForAtomicMutation (key : Key) : Table := t.deleteWhere fun row => row.key = key

end AtomicMutations

end Paranoid.KvStatements
