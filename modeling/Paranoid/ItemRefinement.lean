import Paranoid.KvRuns
import Paranoid.TypedItems

namespace Paranoid.ItemRefinement

open ItemModel KvAtomic KvKeys KvModel KvScans KvStatements KvStore Postgres TypedItems
open ExpiringMap (Entry Map live)
open KvMutation (decidedEntry mutatedEntry)
open KvOperations (Effect reads writes)
open KvRefinement (OnKey onKey_run)

variable {T C E : Type}

section Representation

variable (plaintext : Plaintext T C) (calls : ItemCodec C → Prop) (keyPrefix : KeyPrefix)

/-- What one of the calls encodes, each of them decodes again, if it has its keyset. -/
def Lawful : Prop :=
  ∀ codec codec', calls codec → calls codec' → codec'.getKeyset = .ok () →
    ∀ n key value bytes, encodeValueForKey plaintext codec n key value = .ok bytes →
      decodeUnlocked plaintext codec' key bytes = .ok value

def ReadsAs (key : Key) (bytes : Bytes) (value : T) : Prop :=
  ∀ codec, calls codec → codec.getKeyset = .ok () → decodeUnlocked plaintext codec key bytes = .ok value

/-- A stored entry and the entry of a value that it is read as. -/
inductive Shows (key : Key) : Option (Entry Bytes Int) → Option (Entry T Int) → Prop
  | none : Shows key none none
  | some {bytes : Bytes} {value : T} {expiresAt : Option Int} (h : ReadsAs plaintext calls key bytes value) :
      Shows key (some ⟨bytes, expiresAt⟩) (some ⟨value, expiresAt⟩)

/-- The rows under the prefix are those of a map of values. -/
def Represents (now : Int) (t : Table) (M : Map Key T Int) : Prop :=
  ∀ key, keyPrefix.containsKey key → Shows plaintext calls key (t.view now key) (M.view now key)

variable {plaintext calls keyPrefix} {now : Int} {t t' : Table} {M : Map Key T Int} {key : Key}
  {stored : Option (Entry Bytes Int)} {cell : Option (Entry T Int)}

theorem Shows.isSome (h : Shows plaintext calls key stored cell) : stored.isSome = cell.isSome := by
  cases h <;> rfl

theorem shows_live {later : Int} (h : Shows plaintext calls key stored cell) :
    Shows plaintext calls key (live later stored) (live later cell) := by
  cases h with
  | none => exact .none
  | @some bytes value expiresAt h =>
      rw [ExpiringMap.live_some, ExpiringMap.live_some]
      by_cases hlive : Entry.Live later (⟨bytes, expiresAt⟩ : Entry Bytes Int)
      · rw [if_pos hlive, if_pos (show Entry.Live later (⟨value, expiresAt⟩ : Entry T Int) from hlive)]
        exact .some h
      · rw [if_neg hlive, if_neg (show ¬Entry.Live later (⟨value, expiresAt⟩ : Entry T Int) from hlive)]
        exact .none

theorem Represents.later {later : Int} (h : Represents plaintext calls keyPrefix now t M)
    (hlater : now ≤ later) :
    Represents plaintext calls keyPrefix later t M := by
  intro key hkey
  rw [KvRefinement.view_later hlater, ExpiringMap.view_later hlater]
  exact shows_live (h key hkey)

/-- A write at one key of both. -/
theorem represents_put {later : Int} (h : Represents plaintext calls keyPrefix now t M)
    (hview : ∀ later, now ≤ later → t'.view later = Function.update (t.view later) key (live later stored))
    (hcell : Shows plaintext calls key stored cell) (hlater : now ≤ later) :
    Represents plaintext calls keyPrefix later t' (M.put key cell) := by
  intro other hother
  rw [hview later hlater, ExpiringMap.view_put]
  by_cases heq : other = key
  · subst heq
    rw [Function.update_self, Function.update_self]
    exact shows_live hcell
  · rw [Function.update_of_ne heq, Function.update_of_ne heq]
    exact h.later hlater other hother

theorem containsKey_of_keyFromParts {keyParts : List String}
    (h : keyFromParts keyPrefix keyParts = .ok key) : keyPrefix.containsKey key := by
  obtain ⟨-, -, h⟩ := bind_eq_ok.1 h
  rw [KeyPrefix.containsKey, validateKeyLength_eq_ok h, String.toList_append]
  simp

end Representation

section Results

variable (lift : ItemError C → E) (plaintext : Plaintext T C) (calls : ItemCodec C → Prop)
  (codec : ItemCodec C) (keyPrefix : KeyPrefix) (times : Times)

/-- A result on the table is one that the call may have on the map that the table represents,
and no row outside the prefix is touched. -/
def Refines (M : Map Key T Int) (operation : ItemOperation T E) (t : Table)
    (result : Except E (ItemReply T × Table)) : Prop :=
  match result with
  | .error e => Performs lift plaintext codec keyPrefix times M operation (.error e)
  | .ok (reply, t') => ∃ M', Performs lift plaintext codec keyPrefix times M operation (.ok (reply, M')) ∧
      Represents plaintext calls keyPrefix (times.last) t' M' ∧
      ∀ key, keyPrefix.containsKey key = false →
        ∀ later, times.last ≤ later → t'.view later key = t.view later key

/-- A call on one key does to its live entry what the effect says. -/
def Affects (key : Key) (t : Table) (effect : Except E (ItemReply T × Option (Entry T Int)))
    (result : Except E (ItemReply T × Table)) : Prop :=
  match effect with
  | .error e => result = .error e
  | .ok (reply, cell) => ∃ t' stored, result = .ok (reply, t') ∧ Shows plaintext calls key stored cell ∧
      ∀ later, times.now ≤ later → t'.view later = Function.update (t.view later) key (live later stored)

variable {lift plaintext calls codec keyPrefix times} {t : Table} {M : Map Key T Int} {key : Key}

theorem refines_onKey {operation : ItemOperation T E} {keyParts : List String}
    {effect : Key → ItemEffect T E} (hM : Represents plaintext calls keyPrefix times.now t M)
    (h : itemEffect lift plaintext codec times operation = some (keyParts, effect))
    (hrefused : ∀ error, keyFromParts keyPrefix keyParts = .error error →
      runItem lift plaintext codec keyPrefix times operation t = .error (lift (.store error)))
    (haffects : ∀ key, keyFromParts keyPrefix keyParts = .ok key → keyPrefix.containsKey key →
      Affects plaintext calls times key t (effect key (M.view times.now key))
        (runItem lift plaintext codec keyPrefix times operation t)) :
    Refines lift plaintext calls codec keyPrefix times M operation t
      (runItem lift plaintext codec keyPrefix times operation t) := by
  have hperforms : Performs lift plaintext codec keyPrefix times M operation _ := .onKey h
  cases hkey : keyFromParts keyPrefix keyParts with
  | error error =>
      rw [hkey] at hperforms
      rw [hrefused error hkey]
      exact hperforms
  | ok key =>
      have hcontains := containsKey_of_keyFromParts hkey
      have hresult := haffects key hkey hcontains
      rw [hkey] at hperforms
      dsimp only [Except.mapError, ok_bind] at hperforms
      cases heffect : effect key (M.view times.now key) with
      | error e =>
          rw [heffect] at hresult hperforms
          have heq : runItem lift plaintext codec keyPrefix times operation t = .error e := hresult
          rw [heq]
          exact hperforms
      | ok written =>
          rw [heffect] at hresult hperforms
          obtain ⟨t', stored, heq, hshows, hview⟩ := hresult
          rw [heq]
          refine ⟨_, hperforms, represents_put hM hview hshows times.now_le_last, ?_⟩
          intro other hother later hlater
          have hne : other ≠ key := by
            rintro rfl
            rw [hcontains] at hother
            cases hother
          rw [hview later (times.now_le_last.trans hlater), Function.update_of_ne hne]

/-- A call that only reads. -/
theorem affects_read (reply : ItemReply T) {cell : Option (Entry T Int)}
    (hM : Represents plaintext calls keyPrefix times.now t M) (hkey : keyPrefix.containsKey key)
    (hcell : M.view times.now key = cell) :
    Affects (E := E) plaintext calls times key t (.ok (reply, cell)) (.ok (reply, t)) :=
  ⟨t, t.view times.now key, rfl, hcell ▸ hM key hkey, fun _ hlater => KvRefinement.view_same hlater⟩

end Results

section OneKey

variable {lift : ItemError C → E} {plaintext : Plaintext T C} {calls : ItemCodec C → Prop}
  {codec : ItemCodec C} {keyPrefix : KeyPrefix} {times : Times} {t : Table} {M : Map Key T Int} {key : Key}
  {cell : Option (Entry T Int)}

/-- What a call sees of a live row. -/
theorem live_cases (h : Shows plaintext calls key (t.view times.now key) cell) :
    (t.liveRow? times.now key = none ∧ cell = none) ∨
      ∃ row value, t.liveRow? times.now key = some row ∧ cell = some ⟨value, row.expiresAt⟩ ∧
        ReadsAs plaintext calls key row.value value := by
  cases hrow : t.liveRow? times.now key with
  | none =>
      rw [KvRefinement.view_of_none hrow] at h
      cases h
      exact .inl ⟨rfl, rfl⟩
  | some row =>
      rw [KvRefinement.liveRow_view hrow] at h
      obtain ⟨key', value, expiresAt, updatedAt⟩ := row
      cases h with
      | some h => exact .inr ⟨_, _, rfl, rfl, h⟩

theorem decodeValueForKey_eq {bytes : Bytes} {value : T} (h : ReadsAs plaintext calls key bytes value)
    (hcodec : calls codec) :
    decodeValueForKey plaintext codec key bytes = codec.getKeyset.map fun _ => value := by
  rw [decodeValueForKey]
  cases hkeyset : codec.getKeyset with
  | error e => rfl
  | ok => exact h codec hcodec hkeyset

/-- An encoding is refused or accepted, and what it becomes is read as the value. -/
theorem encode_cases (hlawful : Lawful plaintext calls) (hcodec : calls codec) (n : Nat) (key : Key)
    (value : T) :
    (∃ e, encodeValueForKey plaintext codec n key value = .error e ∧
      accepts plaintext codec n key value = .error e) ∨
    ∃ bytes, encodeValueForKey plaintext codec n key value = .ok bytes ∧
      accepts plaintext codec n key value = .ok () ∧ ReadsAs plaintext calls key bytes value := by
  rw [accepts]
  cases hencoded : encodeValueForKey plaintext codec n key value with
  | error e => exact .inl ⟨e, rfl, rfl⟩
  | ok bytes =>
      refine .inr ⟨bytes, rfl, rfl, fun codec' hcodec' hkeyset => ?_⟩
      exact hlawful codec codec' hcodec hcodec' hkeyset n key value bytes hencoded

theorem refines_get (hM : Represents plaintext calls keyPrefix times.now t M) (hcodec : calls codec)
    (keyParts : List String) : Refines lift plaintext calls codec keyPrefix times M (.get keyParts) t
      (runItem lift plaintext codec keyPrefix times (.get keyParts) t) := by
  apply refines_onKey hM rfl
  · intro error hkey
    simp [runItem, ItemModel.get, hkey]
  · intro key hkey hcontains
    simp only [runItem, ItemModel.get, hkey, KvStore.getBytes, KvStatements.getBytes, store_ok, ok_bind]
    rcases live_cases (hM key hcontains) with ⟨hrow, hcell⟩ | ⟨row, value, hrow, hcell, hreads⟩
    · simp [hrow, hcell, Affects, requireLive]
    · have hdecode := decodeValueForKey_eq hreads hcodec
      cases hkeyset : codec.getKeyset with
      | error e => simp [hrow, hcell, hdecode, hkeyset, Affects, requireLive]
      | ok =>
          have hread := affects_read (E := E) (.value value) hM hcontains hcell
          simpa [hrow, hcell, hdecode, hkeyset, requireLive] using hread

theorem refines_getAndReturnDatabaseTimestamp
    (hM : Represents plaintext calls keyPrefix times.now t M) (hcodec : calls codec)
    (keyParts : List String) :
    Refines lift plaintext calls codec keyPrefix times M (.getAndReturnDatabaseTimestamp keyParts) t
      (runItem lift plaintext codec keyPrefix times (.getAndReturnDatabaseTimestamp keyParts) t) := by
  apply refines_onKey hM rfl
  · intro error hkey
    simp [runItem, ItemModel.getAndReturnDatabaseTimestamp, hkey]
  · intro key hkey hcontains
    simp only [runItem, ItemModel.getAndReturnDatabaseTimestamp, hkey,
      KvStore.getBytesAndReturnDatabaseTimestamp, getBytesReturningDatabaseTimestamp, store_ok, ok_bind]
    rcases live_cases (hM key hcontains) with ⟨hrow, hcell⟩ | ⟨row, value, hrow, hcell, hreads⟩
    · simp [hrow, hcell, query, Affects, requireLive]
    · have hdecode := decodeValueForKey_eq hreads hcodec
      cases htimestamp : kvTimestampMicros times.now with
      | error e => simp [hrow, hcell, query, Affects, requireLive]
      | ok timestamp =>
          cases hkeyset : codec.getKeyset with
          | error e => simp [hrow, hcell, query, hdecode, hkeyset, Affects, requireLive]
          | ok =>
              have hread := affects_read (E := E) (.valueAt value timestamp) hM hcontains hcell
              simpa [hrow, hcell, query, hdecode, hkeyset, requireLive] using hread

theorem forM_eq_error {ε α : Type} {f : α → Except ε Unit} {xs : List α} {e : ε}
    (h : xs.forM f = .error e) : ∃ x ∈ xs, f x = .error e := by
  induction xs with
  | nil => cases h
  | cons x xs ih =>
      change (f x >>= fun _ => xs.forM f) = .error e at h
      rcases bind_eq_error.1 h with hx | ⟨-, -, hxs⟩
      · exact ⟨x, List.mem_cons_self, hx⟩
      · obtain ⟨x', hmem, hx'⟩ := ih hxs
        exact ⟨x', List.mem_cons_of_mem _ hmem, hx'⟩

theorem validateKeyPart_ne_keyNotFound (part : String) : validateKeyPart part ≠ .error .keyNotFound := by
  intro h
  simp only [validateKeyPart] at h
  split at h
  · cases h
  · split at h
    · cases h
    · split at h <;> cases h

/-- A key that is refused is not reported as absent. -/
theorem keyFromParts_ne_keyNotFound (keyParts : List String) :
    keyFromParts keyPrefix keyParts ≠ .error .keyNotFound := by
  intro h
  rcases bind_eq_error.1 h with hparts | ⟨-, -, hlength⟩
  · obtain ⟨part, -, hpart⟩ := forM_eq_error hparts
    exact validateKeyPart_ne_keyNotFound part hpart
  · rw [validateKeyLength] at hlength
    split at hlength <;> cases hlength

theorem refines_getOrFallback (hM : Represents plaintext calls keyPrefix times.now t M)
    (hcodec : calls codec) (keyParts : List String) (fallback : T) :
    Refines lift plaintext calls codec keyPrefix times M (.getOrFallback keyParts fallback) t
      (runItem lift plaintext codec keyPrefix times (.getOrFallback keyParts fallback) t) := by
  apply refines_onKey hM rfl
  · intro error hkey
    have hget : ItemModel.get plaintext codec keyPrefix times keyParts t = .error (.store error) := by
      simp [ItemModel.get, hkey]
    have hother : error ≠ .keyNotFound := by
      rintro rfl
      exact keyFromParts_ne_keyNotFound keyParts hkey
    cases error with
    | keyNotFound => exact absurd rfl hother
    | _ => simp [runItem, getOrFallback, hget]
  · intro key hkey hcontains
    simp only [runItem, getOrFallback, ItemModel.get, hkey, KvStore.getBytes, KvStatements.getBytes,
      store_ok, ok_bind]
    rcases live_cases (hM key hcontains) with ⟨hrow, hcell⟩ | ⟨row, value, hrow, hcell, hreads⟩
    · have hread := affects_read (E := E) (.value fallback) hM hcontains hcell
      simpa [hrow, hcell] using hread
    · have hdecode := decodeValueForKey_eq hreads hcodec
      cases hkeyset : codec.getKeyset with
      | error e => simp [hrow, hcell, hdecode, hkeyset, Affects]
      | ok =>
          have hread := affects_read (E := E) (.value value) hM hcontains hcell
          simpa [hrow, hcell, hdecode, hkeyset] using hread

theorem refines_checkExists (hM : Represents plaintext calls keyPrefix times.now t M)
    (keyParts : List String) :
    Refines lift plaintext calls codec keyPrefix times M (.checkExists keyParts) t
      (runItem lift plaintext codec keyPrefix times (.checkExists keyParts) t) := by
  apply refines_onKey hM rfl
  · intro error hkey
    simp [runItem, hkey]
  · intro key hkey hcontains
    have hread := affects_read (E := E) (.present (M.view times.now key).isSome) hM hcontains rfl
    have hlive : (t.liveRow? times.now key).isSome = (M.view times.now key).isSome := by
      rw [← (hM key hcontains).isSome, view_eq, Option.isSome_map]
    simpa [runItem, hkey, checkKeyExists, hlive] using hread

/-- A call that writes the row of its key. -/
theorem affects_upsert (times : Times) (t : Table) (reply : ItemReply T)
    {bytes : Bytes} {value : T} (expiresAt : Option Int)
    (hreads : ReadsAs plaintext calls key bytes value) :
    Affects (E := E) plaintext calls times key t (.ok (reply, some ⟨value, expiresAt⟩))
      (.ok (reply, t.upsert ⟨key, bytes, expiresAt, times.now⟩)) :=
  ⟨_, some ⟨bytes, expiresAt⟩, rfl, .some hreads, fun _ _ => view_upsert _⟩

theorem refines_set (hlawful : Lawful plaintext calls)
    (hM : Represents plaintext calls keyPrefix times.now t M) (hcodec : calls codec)
    (keyParts : List String) (value : T) (ttl : Ttl) :
    Refines lift plaintext calls codec keyPrefix times M (.set keyParts value ttl) t
      (runItem lift plaintext codec keyPrefix times (.set keyParts value ttl) t) := by
  apply refines_onKey hM rfl
  · intro error hkey
    simp [runItem, hkey]
  · intro key hkey hcontains
    simp only [runItem, hkey, KvStore.setBytes, KvStatements.setBytes, store_ok, ok_bind]
    rcases encode_cases hlawful hcodec 0 key value with
      ⟨e, hencode, haccepts⟩ | ⟨bytes, hencode, haccepts, hreads⟩
    · simp [hencode, haccepts, overwrite, Affects]
    · cases hexpires : expiresAtExpression times.now ttl.positiveMicroseconds with
      | error e => simp [hencode, haccepts, hexpires, query, overwrite, Affects]
      | ok expiresAt =>
          have hwrite := affects_upsert (E := E) times t .done expiresAt hreads
          simpa [hencode, haccepts, hexpires, query, overwrite] using hwrite

theorem refines_setAndReturnDatabaseTimestamp (hlawful : Lawful plaintext calls)
    (hM : Represents plaintext calls keyPrefix times.now t M) (hcodec : calls codec)
    (keyParts : List String) (value : T) (ttl : Ttl) :
    Refines lift plaintext calls codec keyPrefix times M
      (.setAndReturnDatabaseTimestamp keyParts value ttl) t
      (runItem lift plaintext codec keyPrefix times
        (.setAndReturnDatabaseTimestamp keyParts value ttl) t) := by
  apply refines_onKey hM rfl
  · intro error hkey
    simp [runItem, hkey]
  · intro key hkey hcontains
    simp only [runItem, hkey, KvStore.setBytesAndReturnDatabaseTimestamp,
      setBytesReturningDatabaseTimestamp, KvStatements.setBytes, store_ok, ok_bind]
    rcases encode_cases hlawful hcodec 0 key value with
      ⟨e, hencode, haccepts⟩ | ⟨bytes, hencode, haccepts, hreads⟩
    · simp [hencode, haccepts, overwrite, Affects]
    · cases hexpires : expiresAtExpression times.now ttl.positiveMicroseconds with
      | error e => simp [hencode, haccepts, hexpires, query, overwrite, Affects]
      | ok expiresAt =>
          cases htimestamp : kvTimestampMicros times.now with
          | error e => simp [hencode, haccepts, hexpires, query, overwrite, Affects]
          | ok timestamp =>
              have hwrite :=
                affects_upsert (E := E) times t (.timestamp timestamp) expiresAt hreads
              simpa [hencode, haccepts, hexpires, query, overwrite] using hwrite

theorem refines_setIfNotExists (hlawful : Lawful plaintext calls)
    (hM : Represents plaintext calls keyPrefix times.now t M) (hcodec : calls codec)
    (keyParts : List String) (value : T) (ttl : Ttl) :
    Refines lift plaintext calls codec keyPrefix times M (.setIfNotExists keyParts value ttl) t
      (runItem lift plaintext codec keyPrefix times (.setIfNotExists keyParts value ttl) t) := by
  apply refines_onKey hM rfl
  · intro error hkey
    simp [runItem, hkey]
  · intro key hkey hcontains
    simp only [runItem, hkey, KvStore.setBytesIfNotExists,
      KvStatements.setBytesIfNotExists, store_ok, ok_bind]
    rcases encode_cases hlawful hcodec 0 key value with
      ⟨e, hencode, haccepts⟩ | ⟨bytes, hencode, haccepts, hreads⟩
    · simp [hencode, haccepts, overwriteDead, Affects]
    · cases hexpires : expiresAtExpression times.now ttl.positiveMicroseconds with
      | error e => simp [hencode, haccepts, hexpires, query, overwriteDead, Affects]
      | ok expiresAt =>
          rcases live_cases (hM key hcontains) with ⟨hrow, hcell⟩ | ⟨row, held, hrow, hcell, -⟩
          · have hwrite :=
              affects_upsert (E := E) times t (.wasSet true) expiresAt hreads
            simpa [hencode, haccepts, hexpires, hcell, KvRefinement.view_unlive hrow, query,
              overwriteDead] using hwrite
          · have hread := affects_read (E := E) (.wasSet false) hM hcontains hcell
            simpa [hencode, haccepts, hexpires, hcell, KvRefinement.view_live hrow, query,
              overwriteDead] using hread

theorem refines_setIfNotExistsAndReturnDatabaseTimestamp (hlawful : Lawful plaintext calls)
    (hM : Represents plaintext calls keyPrefix times.now t M) (hcodec : calls codec)
    (keyParts : List String) (value : T) (ttl : Ttl) :
    Refines lift plaintext calls codec keyPrefix times M
      (.setIfNotExistsAndReturnDatabaseTimestamp keyParts value ttl) t
      (runItem lift plaintext codec keyPrefix times
        (.setIfNotExistsAndReturnDatabaseTimestamp keyParts value ttl) t) := by
  apply refines_onKey hM rfl
  · intro error hkey
    simp [runItem, hkey]
  · intro key hkey hcontains
    simp only [runItem, hkey, KvStore.setBytesIfNotExistsAndReturnDatabaseTimestamp,
      setBytesIfNotExistsReturningDatabaseTimestamp, KvStatements.setBytesIfNotExists, store_ok, ok_bind]
    rcases encode_cases hlawful hcodec 0 key value with
      ⟨e, hencode, haccepts⟩ | ⟨bytes, hencode, haccepts, hreads⟩
    · simp [hencode, haccepts, overwriteDead, Affects]
    · cases hexpires : expiresAtExpression times.now ttl.positiveMicroseconds with
      | error e => simp [hencode, haccepts, hexpires, query, overwriteDead, Affects]
      | ok expiresAt =>
          rcases live_cases (hM key hcontains) with ⟨hrow, hcell⟩ | ⟨row, held, hrow, hcell, -⟩
          · cases htimestamp : kvTimestampMicros times.now with
            | error e =>
                simp [hencode, haccepts, hexpires, hcell, KvRefinement.view_unlive hrow, query,
                  overwriteDead, Affects]
            | ok timestamp =>
                have hwrite := affects_upsert (E := E) times t
                  (.setAt (some timestamp)) expiresAt hreads
                simpa [hencode, haccepts, hexpires, hcell, KvRefinement.view_unlive hrow, query,
                  overwriteDead] using hwrite
          · have hread := affects_read (E := E) (.setAt none) hM hcontains hcell
            simpa [hencode, haccepts, hexpires, hcell, KvRefinement.view_live hrow, query,
              overwriteDead] using hread

/-- A call that updates a live row and keeps its value. -/
theorem refines_update {operation : ItemOperation T E} {keyParts : List String}
    (hM : Represents plaintext calls keyPrefix times.now t M)
    (written : Option Int → Except SqlError (Option Int)) (set : KvRow → Except SqlError KvRow)
    (hset : ∀ row, (set row).map KvRow.entry =
      (written row.expiresAt).map fun expiresAt => { row.entry with expiresAt })
    (hkey : ∀ row row', set row = .ok row' → row'.key = row.key)
    (heffect : itemEffect lift plaintext codec times operation = some (keyParts, fun _ =>
      updateLive lift fun entry => (written entry.expiresAt).map fun expiresAt => { entry with expiresAt }))
    (hrun : runItem lift plaintext codec keyPrefix times operation t = Except.mapError lift do
      let key ← store (keyFromParts keyPrefix keyParts)
      return (.done, ← store (affectRow (updateRow t (t.liveRow? times.now key) set)))) :
    Refines lift plaintext calls codec keyPrefix times M operation t
      (runItem lift plaintext codec keyPrefix times operation t) := by
  apply refines_onKey hM heffect
  · intro error hparts
    simp [hrun, hparts]
  · intro key hparts hcontains
    simp only [hrun, hparts, store_ok, ok_bind]
    rcases live_cases (hM key hcontains) with ⟨hrow, hcell⟩ | ⟨row, value, hrow, hcell, hreads⟩
    · simp [hrow, hcell, updateRow, affectRow, query, requireRowsAffected, updateLive, requireLive, Affects]
    · have hentry := hset row
      cases hnew : set row with
      | error e =>
          cases hwritten : written row.expiresAt with
          | ok expiresAt => simp [hnew, hwritten] at hentry
          | error e' =>
              simp only [hnew, hwritten, map_error, Except.error.injEq] at hentry
              simp [hrow, hcell, hnew, hwritten, hentry, updateRow, affectRow, query, updateLive,
                requireLive, Affects]
      | ok row' =>
          cases hwritten : written row.expiresAt with
          | error e => simp [hnew, hwritten] at hentry
          | ok expiresAt =>
              simp only [hnew, hwritten, map_ok, Except.ok.injEq] at hentry
              have hkey' : row'.key = key := (hkey row row' hnew).trans (KvRefinement.liveRow_key hrow)
              have hwrite : Affects (E := E) plaintext calls times key t
                  (.ok (.done, some ⟨value, expiresAt⟩)) (.ok (.done, t.upsert row')) := by
                refine ⟨_, some row'.entry, rfl, hentry ▸ .some hreads, fun later _ => ?_⟩
                rw [view_upsert, hkey']
              simpa [hrow, hcell, hnew, hwritten, updateRow, affectRow, query, requireRowsAffected,
                updateLive, requireLive] using hwrite

theorem refines_touch (hM : Represents plaintext calls keyPrefix times.now t M) (keyParts : List String) :
    Refines lift plaintext calls codec keyPrefix times M (.touch keyParts) t
      (runItem lift plaintext codec keyPrefix times (.touch keyParts) t) := by
  apply refines_update hM .ok (fun row => .ok { row with updatedAt := times.now }) (fun _ => rfl)
    (fun row row' h => by rw [← Except.ok.inj h]) rfl rfl

theorem refines_setTtl (hM : Represents plaintext calls keyPrefix times.now t M) (keyParts : List String)
    (ttl : Ttl) : Refines lift plaintext calls codec keyPrefix times M (.setTtl keyParts ttl) t
      (runItem lift plaintext codec keyPrefix times (.setTtl keyParts ttl) t) := by
  apply refines_update hM (fun _ => expiresAtExpression times.now ttl.positiveMicroseconds)
    (fun row => do
      let expiresAt ← expiresAtExpression times.now ttl.positiveMicroseconds
      return { row with expiresAt, updatedAt := times.now }) _ _ rfl rfl
  · intro row
    cases expiresAtExpression times.now ttl.positiveMicroseconds <;> rfl
  · intro row row' h
    obtain ⟨expiresAt, -, hrow⟩ := bind_eq_ok.1 h
    rw [← Except.ok.inj hrow]

theorem refines_expire (hM : Represents plaintext calls keyPrefix times.now t M) (keyParts : List String) :
    Refines lift plaintext calls codec keyPrefix times M (.expire keyParts) t
      (runItem lift plaintext codec keyPrefix times (.expire keyParts) t) := by
  apply refines_update hM (fun _ => .ok (some times.now))
    (fun row => .ok { row with expiresAt := some times.now, updatedAt := times.now }) (fun _ => rfl)
    (fun row row' h => by rw [← Except.ok.inj h]) rfl rfl

theorem refines_delete (hM : Represents plaintext calls keyPrefix times.now t M) (keyParts : List String) :
    Refines lift plaintext calls codec keyPrefix times M (.delete keyParts) t
      (runItem lift plaintext codec keyPrefix times (.delete keyParts) t) := by
  apply refines_onKey hM rfl
  · intro error hkey
    simp [runItem, hkey]
  · intro key hkey hcontains
    simp only [runItem, hkey, KvStore.deleteKey, KvStatements.deleteKey, store_ok, ok_bind]
    rcases live_cases (hM key hcontains) with ⟨hrow, hcell⟩ | ⟨row, value, hrow, hcell, -⟩
    · simp [hrow, hcell, affectRow, query, requireRowsAffected, requireLive, Affects]
    · have hdelete : Affects (E := E) plaintext calls times key t (.ok (.done, none))
          (.ok (.done, t.deleteWhere fun row => row.key = key && notExpired times.now row)) :=
        ⟨_, none, rfl, .none, fun _ hlater => KvRefinement.view_deleteLive hlater⟩
      simpa [hrow, hcell, affectRow, query, requireRowsAffected, requireLive] using hdelete

end OneKey

end Paranoid.ItemRefinement
