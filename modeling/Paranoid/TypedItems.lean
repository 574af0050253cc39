import Paranoid.ItemModel
import Paranoid.KvMutation

namespace Paranoid.TypedItems

open ItemModel KvAtomic KvKeys KvModel KvScans KvStatements KvStore Postgres
open ExpiringMap (Entry Map)
open KvMutation (mutatedEntry)
open KvOperations (scannedKey)

variable {T C E : Type} (lift : ItemError C → E) (plaintext : Plaintext T C) (codec : ItemCodec C)
  (keyPrefix : KeyPrefix) (times : Times)

/-- Whether a value can be encoded; what it becomes is not told. -/
def accepts (n : Nat) (key : Key) (value : T) : Except C Unit := do
  let _ ← encodeValueForKey plaintext codec n key value

/-- What a call on one key makes of its live value. -/
abbrev ItemEffect (T E : Type) : Type :=
  Option (Entry T Int) → Except E (ItemReply T × Option (Entry T Int))

section Effects

def requireLive (effect : Entry T Int → Except (ItemError C) (ItemReply T × Option (Entry T Int))) :
    ItemEffect T E
  | none => .error (lift (.store .keyNotFound))
  | some entry => (effect entry).mapError lift

def updateLive (written : Entry T Int → Except SqlError (Entry T Int)) : ItemEffect T E :=
  requireLive lift fun entry => (store (query (written entry))).map fun entry => (.done, some entry)

def overwrite (key : Key) (value : T) (ttl : Ttl) (reply : Except SqlError (ItemReply T)) :
    ItemEffect T E := fun _ =>
  Except.mapError lift do
    coded (accepts plaintext codec 0 key value)
    let expiresAt ← store (query (expiresAtExpression times.now ttl.positiveMicroseconds))
    return (← store (query reply), some ⟨value, expiresAt⟩)

def overwriteDead (key : Key) (value : T) (ttl : Ttl) (set : Except SqlError (ItemReply T))
    (kept : ItemReply T) : ItemEffect T E := fun live =>
  Except.mapError lift do
    coded (accepts plaintext codec 0 key value)
    let expiresAt ← store (query (expiresAtExpression times.now ttl.positiveMicroseconds))
    match live with
    | none => return (← store (query set), some ⟨value, expiresAt⟩)
    | some _ => return (kept, live)

/-- The value that a mutation writes must be one that can be encoded. -/
def acceptsMutation (n : Nat) (key : Key) : AtomicMutation T → Except C Unit
  | .setValue value _ | .setValuePreservingExpiration value => accepts plaintext codec n key value
  | .keepExisting | .delete => .ok ()

/-- An atomic mutation: the live value is shown at the time of the lock, and what is decided on
it is written with the second statement. -/
def decided {κ : Type} (decide : Option T → Int → Except E (κ × AtomicMutation T))
    (reply : κ → AtomicMutationOutcome → ItemReply T) : ItemEffect T E := fun live => do
  let databaseTimestamp ←
    (query (kvTimestampMicros times.now)).mapError fun error => lift (.store error)
  let (captured, mutation) ← decide (live.map (·.value)) databaseTimestamp
  let (outcome, cell) ← (mutatedEntry (times.now + times.delay) live mutation).mapError fun error =>
    lift (.store error)
  return (reply captured outcome, cell)

def getOrInitDecision (initialValue : T) (ttl : Ttl) (key : Key) (live : Option T) :
    Except E (T × AtomicMutation T) :=
  Except.mapError (fun error => lift (.codec error)) <|
    match live with
    | some value => do
        codec.getKeyset
        return (value, .keepExisting)
    | none => do
        accepts plaintext codec 0 key initialValue
        return (initialValue, .setValue initialValue ttl)

def valueDecision (decideMutation : ItemAtomicMutationCurrent T → Except E (AtomicMutation T))
    (key : Key) (live : Option T) (databaseTimestamp : Int) : Except E (Option T × AtomicMutation T) := do
  if live.isSome then codec.getKeyset.mapError fun error => lift (.codec error)
  let mutation ← decideMutation ⟨live, databaseTimestamp⟩
  (acceptsMutation plaintext codec 0 key mutation).mapError fun error => lift (.codec error)
  return (live, mutation)

def liveDecision (decideMutation : ItemAtomicLiveMutationCurrent T → Except E (AtomicMutation T))
    (n : Nat) (key : Key) (value : T) (databaseTimestamp : Int) : Except E (T × AtomicMutation T) := do
  codec.getKeyset.mapError fun error => lift (.codec error)
  let mutation ← decideMutation ⟨value, databaseTimestamp⟩
  (acceptsMutation plaintext codec n key mutation).mapError fun error => lift (.codec error)
  return (value, mutation)

def liveOrInitDecision (initializeValue : Int → Except E (T × Ttl))
    (decideMutation : ItemAtomicLiveMutationCurrent T → Except E (AtomicMutation T)) (key : Key)
    (live : Option T) (databaseTimestamp : Int) : Except E ((Bool × T) × AtomicMutation T) :=
  match live with
  | some value => do
      let (seen, mutation) ←
        liveDecision lift plaintext codec decideMutation 0 key value databaseTimestamp
      return ((false, seen), mutation)
  | none => do
      let (initialValue, initialTtl) ← initializeValue databaseTimestamp
      (accepts plaintext codec 0 key initialValue).mapError fun error => lift (.codec error)
      let (seen, mutation) ←
        liveDecision lift plaintext codec decideMutation 1 key initialValue databaseTimestamp
      return ((true, seen), match mutation with
        | .keepExisting => .setValue initialValue initialTtl
        | .setValuePreservingExpiration value => .setValue value initialTtl
        | mutation => mutation)

/-- The calls on one key, as operations on an expiring map of values. -/
def itemEffect : ItemOperation T E → Option (List String × (Key → ItemEffect T E))
  | .get keyParts => some (keyParts, fun _ => requireLive lift fun entry => do
      coded codec.getKeyset
      return (.value entry.value, some entry))
  | .getAndReturnDatabaseTimestamp keyParts => some (keyParts, fun _ => requireLive lift fun entry => do
      let databaseTimestamp ← store (query (kvTimestampMicros times.now))
      coded codec.getKeyset
      return (.valueAt entry.value databaseTimestamp, some entry))
  | .getOrFallback keyParts fallback => some (keyParts, fun _ live =>
      match live with
      | none => .ok (.value fallback, none)
      | some entry => Except.mapError lift do
          coded codec.getKeyset
          return (.value entry.value, some entry))
  | .checkExists keyParts => some (keyParts, fun _ live => .ok (.present live.isSome, live))
  | .set keyParts value ttl =>
      some (keyParts, fun key => overwrite lift plaintext codec times key value ttl (.ok .done))
  | .setAndReturnDatabaseTimestamp keyParts value ttl => some (keyParts, fun key =>
      overwrite lift plaintext codec times key value ttl ((kvTimestampMicros times.now).map .timestamp))
  | .setIfNotExists keyParts value ttl => some (keyParts, fun key =>
      overwriteDead lift plaintext codec times key value ttl (.ok (.wasSet true)) (.wasSet false))
  | .setIfNotExistsAndReturnDatabaseTimestamp keyParts value ttl => some (keyParts, fun key =>
      overwriteDead lift plaintext codec times key value ttl
        ((kvTimestampMicros times.now).map fun timestamp => .setAt (some timestamp)) (.setAt none))
  | .delete keyParts => some (keyParts, fun _ => requireLive lift fun _ => .ok (.done, none))
  | .touch keyParts => some (keyParts, fun _ => updateLive lift fun entry => .ok entry)
  | .setTtl keyParts ttl => some (keyParts, fun _ => updateLive lift fun entry =>
      (expiresAtExpression times.now ttl.positiveMicroseconds).map fun expiresAt =>
        { entry with expiresAt })
  | .expire keyParts => some (keyParts, fun _ => updateLive lift fun entry =>
      .ok { entry with expiresAt := some times.now })
  | .getOrInit keyParts initialValue ttl => some (keyParts, fun key =>
      decided lift times (fun live _ => getOrInitDecision lift plaintext codec initialValue ttl key live)
        fun value outcome => .gotOrInit value (outcome = .setBytes))
  | .mutateAtomically keyParts decideMutation => some (keyParts, fun key =>
      decided lift times (valueDecision lift plaintext codec decideMutation key) .mutated)
  | .mutateLiveAtomically keyParts decideMutation => some (keyParts, fun key =>
      decided lift times (fun live databaseTimestamp =>
        match live with
        | none => .error (lift (.store .keyNotFound))
        | some value => liveDecision lift plaintext codec decideMutation 0 key value databaseTimestamp)
        .mutatedLive)
  | .mutateLiveOrInsertInitialValueAtomically keyParts initializeValue decideMutation =>
      some (keyParts, fun key =>
        decided lift times (liveOrInitDecision lift plaintext codec initializeValue decideMutation key)
          fun seen outcome => .mutatedLiveOrInit seen.1 seen.2 outcome)
  | _ => none

end Effects

section Slots

/-- A slot is a candidate that is not live, and there is none only where all are. -/
def Free (M : Map Key T Int) (now : Int) (candidateKeys : List Key) : Option Key → Prop
  | none => ∀ key ∈ candidateKeys, (M.view now key).isSome
  | some slot => slot ∈ candidateKeys ∧ M.view now slot = none

/-- What can be refused before a slot is looked for. -/
def acceptsUnslotted (first : Key) (value : T) : Except C Unit :=
  match codec with
  | .plain => accepts plaintext codec 0 first value
  | .encrypted cipher => do
      cipher.getKeyset
      let _ ← plaintext.toPlaintextBytes value

/-- The expiry of a slot: it is written with the second statement, and once more with the third
where the value is encrypted for it. -/
def slotExpiry (value : T) (ttlMicroseconds : Int) (slot : Key) : Except (ItemError C) Int := do
  let expiresAt ←
    store (query (timestampPlusMicroseconds (times.now + times.delay) ttlMicroseconds))
  match codec with
  | .plain => return expiresAt
  | .encrypted _ => do
      coded (accepts plaintext codec 0 slot value)
      store (query (timestampPlusMicroseconds times.last ttlMicroseconds))

/-- What becomes of the slot that there is, if any. -/
def occupied (M : Map Key T Int) (prepared : List (Key × String)) (value : T) (ttlMicroseconds : Int) :
    Option Key → Except (ItemError C) (ItemReply T × Map Key T Int)
  | none => .ok (.slot none, M)
  | some slot => do
      let expiresAt ← slotExpiry plaintext codec times value ttlMicroseconds slot
      return (.slot (prepared.lookup slot), M.put slot (some ⟨value, some expiresAt⟩))

end Slots

section Calls

/-- The keys that a scan returns. -/
noncomputable def scannedKeys (M : Map Key T Int) (afterKeySuffix : Option String) (limit : Nat) :
    Except KvError (List Key) := do
  let afterKey ← afterKeyFromOptionalSuffix keyPrefix afterKeySuffix
  validateScanLimit limit
  let afterKeyText ← scanAfterKeyText keyPrefix afterKey
  return M.scan times.now (scannedKey keyPrefix afterKeyText) limit

/-- The live keys of the item. -/
noncomputable def namespaceKeys (M : Map Key T Int) : Finset Key :=
  (M.liveKeys times.now).filter fun key => keyPrefix.containsKey key

/-- The results that a call may have on an expiring map of values. -/
inductive Performs (M : Map Key T Int) :
    ItemOperation T E → Except E (ItemReply T × Map Key T Int) → Prop
  | onKey {operation : ItemOperation T E} {keyParts : List String} {effect : Key → ItemEffect T E}
      (h : itemEffect lift plaintext codec times operation = some (keyParts, effect)) :
      Performs M operation do
        let key ← (keyFromParts keyPrefix keyParts).mapError fun error => lift (.store error)
        let (reply, cell) ← effect key (M.view times.now key)
        return (reply, M.put key cell)
  | getMulti (keyPartsList : List (List String)) :
      Performs M (.getMulti keyPartsList) (Except.mapError lift do
        let keys ← store (keysFromPartsListForMultiGet keyPrefix keyPartsList)
        let values := keys.map fun key => (M.view times.now key).map (·.value)
        if values.any Option.isSome then coded codec.getKeyset
        return (.values values, M))
  | count : Performs M .count (.ok (.count (namespaceKeys keyPrefix times M).card, M))
  | scan (afterKeySuffix : Option String) (limit : Nat) :
      Performs M (.scan afterKeySuffix limit) (Except.mapError lift do
        let keys ← store (scannedKeys keyPrefix times M afterKeySuffix limit)
        if keys ≠ [] then coded codec.getKeyset
        return (.scanned (keys.filterMap fun key => (M.view times.now key).map fun entry =>
          (suffixFromKey keyPrefix key, entry.value)), M))
  | scanKeySuffixes (afterKeySuffix : Option String) (limit : Nat) :
      Performs M (.scanKeySuffixes afterKeySuffix limit) (Except.mapError lift do
        let keys ← store (scannedKeys keyPrefix times M afterKeySuffix limit)
        return (.scannedSuffixes (keys.map (suffixFromKey keyPrefix)), M))
  | setMulti (keyPartsList : List (List String)) (values : List T) (ttl : Ttl) :
      Performs M (.setMulti keyPartsList values ttl) (Except.mapError lift do
        if keyPartsList.length ≠ values.length then
          throw (.setMultiLengthMismatch keyPartsList.length values.length)
        if maxKvSetMultiEntries < keyPartsList.length then
          throw (.store (.setMultiEntryCountTooLarge keyPartsList.length maxKvSetMultiEntries))
        let keys ← store (keysFromPartsList keyPrefix keyPartsList)
        store (validateUnique keys)
        if keys = [] then return (.done, M)
        (keys.zip values).zipIdx.forM fun ((key, value), n) => coded (accepts plaintext codec n key value)
        let expiresAt ← store (query (expiresAtExpression times.now ttl.positiveMicroseconds))
        return (.done, (keys.zip values).foldl
          (fun M entry => M.put entry.1 (some ⟨entry.2, expiresAt⟩)) M))
  | deleteEntireNamespaceAtomically {count : Nat} (h : (namespaceKeys keyPrefix times M).card ≤ count) :
      Performs M .deleteEntireNamespaceAtomically
        (.ok (.count count, M.without (namespaceKeys keyPrefix times M)))
  | acquireSlot {candidateSuffixes : List String} {slot : Option Key} (value : T) (ttl : Ttl) (pick : Nat)
      (h : ∀ prepared, prepareSlotCandidateKeys keyPrefix candidateSuffixes = .ok prepared →
        Free M (times.now + times.delay) (prepared.map Prod.fst) slot) :
      Performs M (.acquireSlot candidateSuffixes value ttl pick) (Except.mapError lift do
        let prepared ← store (prepareSlotCandidateKeys keyPrefix candidateSuffixes)
        let ttlMicroseconds ← store (positiveExpiringTtlMicroseconds ttl)
        match prepared.map Prod.fst with
        | [] => return (.slot none, M)
        | first :: _ =>
            coded (acceptsUnslotted plaintext codec first value)
            let _ ← store (query (timestamptz (times.now - oneSecond)))
            occupied plaintext codec times M prepared value ttlMicroseconds slot)

end Calls

end Paranoid.TypedItems
