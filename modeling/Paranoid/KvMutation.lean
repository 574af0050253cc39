import Paranoid.KvStore

namespace Paranoid.KvMutation

open KvAtomic KvModel KvStatements KvStore Postgres
open ExpiringMap (Entry live)

variable {E : Type} {t t' : Table} {key : Key} {now : Int}

/-- The outcome of a mutation that is written at `now`, and the entry that it makes of
the live one. -/
def mutatedEntry {V : Type} (now : Int) (live : Option (Entry V Int)) :
    AtomicMutation V → Except KvError (AtomicMutationOutcome × Option (Entry V Int))
  | .keepExisting => .ok (if live.isSome then .keptLiveValue else .keptAbsent, live)
  | .setValue value ttl => do
      let expiresAt ← query (expiresAtExpression now ttl.positiveMicroseconds)
      return (.setBytes, some ⟨value, expiresAt⟩)
  | .setValuePreservingExpiration value =>
      match live with
      | none => .error .keyNotFound
      | some entry => .ok (.setBytesPreservingExpiration, some ⟨value, entry.expiresAt⟩)
  | .delete => .ok (if live.isSome then .deletedLiveValue else .deletedAbsent, none)

/-- An atomic update of an expiring map: the callback decides on the live entry at
`now`, and its decision is written `delay` later. -/
def decidedEntry (lift : KvError → E) (now : Int) (delay : Nat)
    (decideMutation : AtomicMutationCurrent → Except E (AtomicMutation Bytes))
    (live : Option (Entry Bytes Int)) :
    Except E (AtomicMutationResult × Option (Entry Bytes Int)) := do
  let timestamp ← (query (kvTimestampMicros now)).mapError lift
  let mutation ← decideMutation ⟨live.map (·.value), timestamp⟩
  let (outcome, cell) ← (mutatedEntry (now + delay) live mutation).mapError lift
  return (⟨live.map (·.value), outcome⟩, cell)

/-- The row of a key after its lock: a placeholder where there was none. -/
def placed (now : Int) (t : Table) (key : Key) : Table :=
  if (t.row? key).isSome then t else t.upsert ⟨key, [], some now, now⟩

theorem row?_placed (other : Key) :
    (placed now t key).row? other =
      if other = key then some ((t.row? key).getD ⟨key, [], some now, now⟩) else t.row? other := by
  rw [placed]
  cases hrow : t.row? key with
  | none =>
      rw [if_neg (by simp), row?_upsert]
      rfl
  | some row =>
      rw [Option.isSome_some, if_pos rfl]
      by_cases hother : other = key
      · rw [if_pos hother, hother, hrow]
        rfl
      · rw [if_neg hother]

theorem lock_eq (clock : Nat → Int) :
    KvStore.lockKeyForAtomicMutation clock key lockAttempts t =
      match kvTimestampMicros (clock 0) with
      | .error e => (.error (.database e), t)
      | .ok timestamp =>
          (.ok ((t.row? key).isNone, ⟨((t.row? key).map (·.value)).getD [],
            (t.row? key).any (notExpired (clock 0)), timestamp⟩), placed (clock 0) t key) := by
  cases htimestamp : kvTimestampMicros (clock 0) with
  | error e =>
      cases hrow : t.row? key <;>
        simp [KvStore.lockKeyForAtomicMutation, lockAttempts,
          KvStatements.lockKeyForAtomicMutation, hrow, htimestamp]
  | ok timestamp =>
      cases hrow : t.row? key <;>
        simp [KvStore.lockKeyForAtomicMutation, lockAttempts,
          KvStatements.lockKeyForAtomicMutation, hrow, htimestamp,
          placed]

/-- Deleting the locked row undoes a placeholder. -/
theorem row?_deleteKey (other : Key) :
    (deleteKeyForAtomicMutation (placed now t key) key).row? other =
      if other = key then none else t.row? other := by
  rw [deleteKeyForAtomicMutation, row?_deleteWhere, row?_placed]
  by_cases hother : other = key
  · subst hother
    rw [if_pos rfl, if_pos rfl]
    cases hrow : t.row? other with
    | none => simp [Option.filter]
    | some row => simp [Option.filter, (row?_eq_some.1 hrow).2]
  · rw [if_neg hother, if_neg hother]
    cases hrow : t.row? other with
    | none => rfl
    | some row => simp [Option.filter, (row?_eq_some.1 hrow).2, hother]

/-- What an atomic mutation leaves, at every key. -/
structure Leaves (now : Int) (t t' : Table) (key : Key) (cell : Option (Entry Bytes Int)) : Prop where
  others : ∀ other, other ≠ key → t'.row? other = t.row? other
  written : t'.cell key = cell ∨ t'.row? key = t.row? key ∧ t.view now key = cell

/-- Only an expired row may differ. -/
structure Kept (now : Int) (t t' : Table) (key : Key) : Prop where
  others : ∀ other, other ≠ key → t'.row? other = t.row? other
  live : ∀ row, notExpired now row → (t'.row? key = some row ↔ t.row? key = some row)

theorem kept_of_row? (h : ∀ other, t'.row? other = t.row? other) : Kept now t t' key :=
  ⟨fun other _ => h other, fun row _ => by rw [h]⟩

theorem kept_placed : Kept now t (placed now t key) key := by
  constructor
  · intro other hother
    rw [row?_placed, if_neg hother]
  · intro row hrow
    rw [row?_placed, if_pos rfl]
    cases h : t.row? key with
    | some row' => rw [Option.getD_some]
    | none =>
        constructor
        · intro hplaceholder
          rw [← Option.some.inj hplaceholder] at hrow
          simp [notExpired] at hrow
        · rintro ⟨⟩

theorem placed_row (now : Int) (t : Table) (key : Key) :
    ∃ row, (placed now t key).row? key = some row ∧ row.key = key := by
  have hrow : (placed now t key).row? key = _ := row?_placed key
  rw [if_pos rfl] at hrow
  exact ⟨_, hrow, (row?_eq_some.1 hrow).2⟩

/-- A write of the locked row leaves the row that it sets, or fails without effect. -/
theorem affectLockedRow_leaves (set : KvRow → Except SqlError KvRow) (outcome : AtomicMutationOutcome)
    {row : KvRow} (hrow : (placed now t key).row? key = some row)
    (hkey : ∀ row', set row = .ok row' → row'.key = key) :
    match set row with
    | .error e =>
        affectLockedRow (placed now t key)
          (updateRow (placed now t key) ((placed now t key).row? key) set) outcome =
          (.error (.database e), placed now t key)
    | .ok row' => ∃ t',
        affectLockedRow (placed now t key)
          (updateRow (placed now t key) ((placed now t key).row? key) set) outcome =
          (.ok outcome, t') ∧ Leaves now t t' key (some row'.entry) := by
  rw [hrow, updateRow]
  cases hset : set row with
  | error e => rfl
  | ok row' =>
      have hrowKey := hkey row' hset
      refine ⟨(placed now t key).upsert row', rfl, fun other hother => ?_, .inl ?_⟩
      · rw [row?_upsert, hrowKey, if_neg hother, row?_placed, if_neg hother]
      · rw [Table.cell, row?_upsert, if_pos hrowKey.symm, Option.map_some]

/-- Without its placeholder the table is as it was. -/
theorem row?_restored (other : Key) :
    (if (t.row? key).isNone then deleteKeyForAtomicMutation
      (placed now t key) key else placed now t key).row? other =
      t.row? other := by
  cases habsent : t.row? key with
  | none =>
      rw [Option.isNone_none, if_pos rfl, row?_deleteKey]
      by_cases hother : other = key
      · rw [if_pos hother, hother, habsent]
      · rw [if_neg hother]
  | some row =>
      rw [Option.isNone_some, if_neg Bool.false_ne_true,
        placed, habsent, Option.isSome_some, if_pos rfl]

/-- What `applyAtomicMutation` makes of a locked key. -/
theorem apply_leaves (now writeNow : Int) (t : Table) (key : Key) (mutation : AtomicMutation Bytes) :
    match mutatedEntry writeNow (t.view now key) mutation with
    | .error e => ∃ t',
        applyAtomicMutation writeNow (placed now t key) key mutation (t.view now key).isSome
        (t.row? key).isNone = (.error e, t') ∧ Kept now t t' key
    | .ok (outcome, cell) =>
        ∃ t', applyAtomicMutation writeNow (placed now t key) key mutation (t.view now key).isSome
        (t.row? key).isNone = (.ok outcome, t') ∧ Leaves now t t' key cell := by
  obtain ⟨row, hrow, hkey⟩ := placed_row now t key
  cases mutation with
  | keepExisting => exact ⟨_, rfl, fun other _ => row?_restored other, .inr ⟨row?_restored key, rfl⟩⟩
  | delete =>
      refine ⟨_, rfl, fun other hother => ?_, .inl ?_⟩
      · rw [row?_deleteKey, if_neg hother]
      · rw [Table.cell, row?_deleteKey, if_pos rfl, Option.map_none]
  | setValue value ttl =>
      have hset := affectLockedRow_leaves (fun row => do
        let expiresAt ← expiresAtExpression writeNow ttl.positiveMicroseconds
        return { row with value, expiresAt, updatedAt := writeNow }) .setBytes hrow
      dsimp only [mutatedEntry, applyAtomicMutation, updateKeyValueAndTtlForAtomicMutation]
      cases hexpires : expiresAtExpression writeNow ttl.positiveMicroseconds with
      | error e =>
          rw [hexpires] at hset
          exact ⟨_, hset (fun _ h => by cases h), kept_placed⟩
      | ok expiresAt =>
          rw [hexpires] at hset
          obtain ⟨t', heq, hleaves⟩ := hset fun row' h => by rw [← Except.ok.inj h, hkey]
          exact ⟨t', heq, hleaves⟩
  | setValuePreservingExpiration value =>
      dsimp only [mutatedEntry, applyAtomicMutation,
        updateKeyValuePreservingExpirationForAtomicMutation]
      cases hlive : t.view now key with
      | none => exact ⟨_, rfl, kept_of_row? row?_restored⟩
      | some entry =>
          obtain ⟨t', heq, hleaves⟩ := affectLockedRow_leaves (fun row =>
            .ok { row with value, updatedAt := writeNow }) .setBytesPreservingExpiration hrow
            fun row' h => by rw [← Except.ok.inj h, hkey]
          refine ⟨t', heq, hleaves.others, ?_⟩
          have hentry : row.entry = entry := by
            rw [view_eq, Option.map_eq_some_iff] at hlive
            obtain ⟨stored, hstored, rfl⟩ := hlive
            rw [row?_placed, if_pos rfl, (liveRow?_eq_some.1 hstored).1] at hrow
            exact congrArg KvRow.entry (Option.some.inj hrow).symm
          rw [← hentry]
          exact hleaves.written

theorem view_of_leaves {cell : Option (Entry Bytes Int)} (h : Leaves now t t' key cell) {later : Int}
    (hlater : now ≤ later) : t'.view later = Function.update (t.view later) key (live later cell) := by
  funext other
  by_cases hother : other = key
  · subst hother
    rw [Function.update_self]
    rcases h.written with hcell | ⟨hrow, hview⟩
    · rw [Table.view, hcell]
    · rw [← hview, Table.view, Table.view, ExpiringMap.live_live hlater, Table.cell, Table.cell, hrow]
  · rw [Function.update_of_ne hother, Table.view, Table.view,
      Table.cell, Table.cell, h.others other hother]

variable (lift : KvError → E) (clock : Nat → Int) (delay : Nat)
  (decideMutation : AtomicMutationCurrent → Except E (AtomicMutation Bytes))

/-- A mutation in a transaction, with or without the cleanup that follows an error of
the callback. -/
theorem internal_leaves (cleanup : Bool) (t : Table) (key : Key) :
    match decidedEntry lift (clock 0) delay decideMutation (t.view (clock 0) key) with
    | .error e => ∃ t',
        mutateKeyAtomicallyInTransactionInternal t key lift clock delay decideMutation cleanup =
        (.error e, t') ∧ (cleanup → Kept (clock 0) t t' key)
    | .ok (result, cell) => ∃ t',
        mutateKeyAtomicallyInTransactionInternal t key lift clock delay decideMutation cleanup =
        (.ok result, t') ∧ Leaves (clock 0) t t' key cell := by
  rw [mutateKeyAtomicallyInTransactionInternal, lock_eq, decidedEntry]
  cases htimestamp : kvTimestampMicros (clock 0) with
  | error e => exact ⟨t, rfl, fun _ => kept_of_row? fun _ => rfl⟩
  | ok timestamp =>
      obtain rfl : timestamp = clock 0 := int8_eq_ok htimestamp
      have hlive : (if (t.row? key).any (notExpired (clock 0)) then some
        (((t.row? key).map (·.value)).getD []) else none) =
          (t.view (clock 0) key).map (·.value) := by
        rw [view_eq, Table.liveRow?]
        cases hrow : t.row? key with
        | none => rfl
        | some row => cases hnot : notExpired (clock 0) row <;> simp [Option.filter, hnot, KvRow.entry]
      dsimp only [query, Except.mapError, ok_bind]
      rw [hlive]
      cases hdecide : decideMutation ⟨(t.view (clock 0) key).map (·.value), clock 0⟩ with
      | error e =>
          refine ⟨_, rfl, fun hcleanup => kept_of_row? ?_⟩
          rw [hcleanup, Bool.and_true]
          exact row?_restored
      | ok mutation =>
          have happly := apply_leaves (clock 0) (clock 0 + delay) t key mutation
          dsimp only [ok_bind]
          rw [Option.isSome_map]
          cases hentry : mutatedEntry (clock 0 + delay) (t.view (clock 0) key) mutation with
          | error e =>
              rw [hentry] at happly
              obtain ⟨t', heq, hkept⟩ := happly
              exact ⟨t', by rw [heq], fun _ => hkept⟩
          | ok written =>
              rw [hentry] at happly
              obtain ⟨t', heq, hleaves⟩ := happly
              exact ⟨t', by rw [heq], hleaves⟩

/-- A mutation inside the caller's transaction is the update of the expiring map that
its callback decides on, at this key and no other. Where the callback or its decision
fails, no row that has not expired is changed. -/
theorem mutation_refines_expiring_map (t : Table) (key : Key) :
    match decidedEntry lift (clock 0) delay decideMutation (t.view (clock 0) key) with
    | .error e => ∃ t', mutateKeyAtomicallyInCurrentTransaction t key lift clock delay decideMutation =
        (.error e, t') ∧ Kept (clock 0) t t' key
    | .ok (result, cell) =>
        ∃ t', mutateKeyAtomicallyInCurrentTransaction t key lift clock delay decideMutation =
        (.ok result, t') ∧ Leaves (clock 0) t t' key cell ∧
        ∀ later, clock 0 ≤ later →
          t'.view later = Function.update (t.view later) key (live later cell) := by
  have hinternal := internal_leaves lift clock delay decideMutation true t key
  rw [mutateKeyAtomicallyInCurrentTransaction]
  cases hdecided : decidedEntry lift (clock 0) delay decideMutation (t.view (clock 0) key) with
  | error e =>
      rw [hdecided] at hinternal
      obtain ⟨t', heq, hkept⟩ := hinternal
      exact ⟨t', heq, hkept rfl⟩
  | ok decided =>
      rw [hdecided] at hinternal
      obtain ⟨t', heq, hleaves⟩ := hinternal
      exact ⟨t', heq, hleaves, fun later hlater => view_of_leaves hleaves hlater⟩

end Paranoid.KvMutation
