import Paranoid.Postgres

namespace Paranoid.KvAtomic

open Postgres

inductive KvError
  | emptyKey
  | emptyKeyPart
  | keyPartContainsSeparatorByte
  | keyPartContainsNullByte
  | keyTooLong (actual max : Nat)
  | ttlIsZero
  | ttlBelowMinimum (minimum : Nat)
  | ttlTooLarge
  | ttlNoExpirationNotAllowed
  | scanLimitIsZero
  | scanLimitTooLarge (actual max : Nat)
  | scanCursorOutsidePrefix
  | getMultiKeyCountTooLarge (actual max : Nat)
  | setMultiEntryCountTooLarge (actual max : Nat)
  | duplicateKeyInBulkOperation
  | acquireSlotCandidateCountTooLarge (actual max : Nat)
  | deleteBatchSizeIsZero
  | deleteBatchSizeTooLarge (actual max : Nat)
  | atomicMutationCouldNotLockKey
  | atomicMutationLockReturnedNoRow
  | keyNotFound
  | database (error : SqlError)
  deriving DecidableEq

/-- One second, in nanoseconds. -/
def minKvTtl : Nat := 1000000000

/-- Validated time to live, in nanoseconds; none for rows that do not expire. -/
structure Ttl where
  positiveDuration : Option Nat
  minimum : ∀ duration ∈ positiveDuration, minKvTtl ≤ duration
  fits : ∀ duration ∈ positiveDuration, (ceilMicroseconds duration : Int) ≤ i64Max
  deriving DecidableEq

def Ttl.expiresAfter (duration : Nat) : Except KvError Ttl :=
  if duration = 0 then throw .ttlIsZero
  else if minimum : minKvTtl ≤ duration then
    if fits : (ceilMicroseconds duration : Int) ≤ i64Max then
      return ⟨some duration, by simpa using minimum, by simpa using fits⟩
    else throw .ttlTooLarge
  else throw (.ttlBelowMinimum minKvTtl)

def Ttl.noExpiration : Ttl := ⟨none, nofun, nofun⟩

theorem minimum_minKvTtl : ∀ duration ∈ some minKvTtl, minKvTtl ≤ duration := by decide

theorem fits_minKvTtl : ∀ duration ∈ some minKvTtl, (ceilMicroseconds duration : Int) ≤ i64Max := by
  decide

def Ttl.positiveMicroseconds (ttl : Ttl) : Option Int :=
  ttl.positiveDuration.map fun duration => ceilMicroseconds duration

theorem Ttl.expiresAfter_eq_ok {duration : Nat} {ttl : Ttl} (h : Ttl.expiresAfter duration = .ok ttl) :
    ttl.positiveDuration = some duration := by
  unfold Ttl.expiresAfter at h
  split at h
  · cases h
  · split at h
    · split at h
      · rw [← Except.ok.inj h]
      · cases h
    · cases h

variable {V A E : Type}

/-- The stored row of one key. -/
structure Row (V : Type) where
  value : V
  expiresAt : Option Int

/-- `expires_at IS NULL OR expires_at > statement_timestamp()`. -/
def Row.isLive (now : Int) (row : Row V) : Bool := row.expiresAt.all (now < ·)

def liveValue (now : Int) (cell : Option (Row V)) : Option V :=
  (cell.filter (·.isLive now)).map (·.value)

inductive AtomicMutation (V : Type)
  | keepExisting
  | setValue (value : V) (ttl : Ttl)
  | setValuePreservingExpiration (value : V)
  | delete

def setValueAndTtl (now : Int) (value : V) (ttl : Ttl) : Except KvError (Row V) :=
  match ttl.positiveMicroseconds with
  | none => .ok ⟨value, none⟩
  | some microseconds =>
      match timestampPlusMicroseconds now microseconds with
      | .error e => .error (.database e)
      | .ok expiresAt => .ok ⟨value, some expiresAt⟩

/-- A transaction that locks a key at `now` and writes it `delay` later. The
placeholder inserted for an absent key is gone again by its end. -/
def mutateKeyAtomically (lift : KvError → E) (now : Int) (delay : Nat)
    (decideMutation : Option V → Except E (A × AtomicMutation V)) (cell : Option (Row V)) :
    Except E (A × Option (Row V)) := do
  let (answer, mutation) ← decideMutation (liveValue now cell)
  match mutation with
  | .keepExisting => return (answer, cell)
  | .setValue value ttl =>
      match setValueAndTtl (now + delay) value ttl with
      | .error e => throw (lift e)
      | .ok row => return (answer, some row)
  | .setValuePreservingExpiration value =>
      match cell.filter (·.isLive now) with
      | none => throw (lift .keyNotFound)
      | some row => return (answer, some { row with value })
  | .delete => return (answer, none)

def mutateLiveKeyAtomically (lift : KvError → E) (now : Int) (delay : Nat)
    (decideMutation : V → Except E (A × AtomicMutation V)) (cell : Option (Row V)) :
    Except E (A × Option (Row V)) :=
  mutateKeyAtomically lift now delay
    (fun live => match live with
      | none => throw (lift .keyNotFound)
      | some value => decideMutation value) cell

/-- The callback of an atomic initialise-or-mutate. -/
def liveOrInitial (initialValue : V) (initialTtl : Ttl) (decideMutation : V → Except E (A × AtomicMutation V)) :
    Option V → Except E (A × AtomicMutation V)
  | some value => decideMutation value
  | none => do
      let (answer, mutation) ← decideMutation initialValue
      match mutation with
      | .keepExisting => return (answer, .setValue initialValue initialTtl)
      | .setValuePreservingExpiration value => return (answer, .setValue value initialTtl)
      | .setValue value ttl => return (answer, .setValue value ttl)
      | .delete => return (answer, .delete)

def mutateLiveKeyOrInsertInitialValueAtomically (lift : KvError → E) (now : Int) (delay : Nat)
    (initialValue : V) (initialTtl : Ttl) (decideMutation : V → Except E (A × AtomicMutation V))
    (cell : Option (Row V)) : Except E (A × Option (Row V)) :=
  mutateKeyAtomically lift now delay (liveOrInitial initialValue initialTtl decideMutation) cell

theorem liveValue_none (now : Int) : liveValue now (none : Option (Row V)) = none := rfl

theorem liveValue_some {now : Int} {row : Row V} :
    liveValue now (some row) = if row.isLive now then some row.value else none := by
  cases h : row.isLive now <;> simp [liveValue, Option.filter, h]

theorem setValueAndTtl_value {now : Int} {value : V} {ttl : Ttl} {row : Row V}
    (h : setValueAndTtl now value ttl = .ok row) : row.value = value := by
  unfold setValueAndTtl at h
  split at h
  · rw [← Except.ok.inj h]
  · split at h
    · cases h
    · rw [← Except.ok.inj h]

theorem setValueAndTtl_noExpiration {now : Int} {value : V} {row : Row V}
    (h : setValueAndTtl now value .noExpiration = .ok row) : row = ⟨value, none⟩ :=
  (Except.ok.inj h).symm

theorem setValueAndTtl_expiresAt {now : Int} {value : V} {ttl : Ttl} {row : Row V} {duration : Nat}
    (hd : ttl.positiveDuration = some duration) (h : setValueAndTtl now value ttl = .ok row) :
    row.expiresAt = some (now + float8OfInt8 (ceilMicroseconds duration)) ∧
      float8OfInt8 (ceilMicroseconds duration) < 2 ^ 63 := by
  simp only [setValueAndTtl, Ttl.positiveMicroseconds, hd, Option.map_some] at h
  split at h
  · cases h
  · rename_i ht
    obtain ⟨rfl, hrange⟩ := timestampPlusMicroseconds_eq_ok ht
    rw [← Except.ok.inj h]
    exact ⟨rfl, hrange⟩

theorem setValueAndTtl_lt_endTimestamp {now expiresAt : Int}
    {value : V} {ttl : Ttl} {row : Row V} {duration : Nat}
    (hd : ttl.positiveDuration = some duration) (h : setValueAndTtl now value ttl = .ok row)
    (hexpires : row.expiresAt = some expiresAt) : expiresAt < endTimestamp := by
  simp only [setValueAndTtl, Ttl.positiveMicroseconds, hd, Option.map_some] at h
  split at h
  · cases h
  · rename_i ht
    cases h
    cases hexpires
    exact timestampPlusMicroseconds_lt_endTimestamp ht

/-- A committed initialise-or-mutate decided on the live value, or on the initial
one, and either kept a live row or wrote the row anew. -/
theorem mutateLiveKeyOrInsert_eq_ok {lift : KvError → E} {now : Int} {delay : Nat} {initialValue : V}
    {initialTtl : Ttl} {decideMutation : V → Except E (A × AtomicMutation V)} {answer : A}
    {cell cell' : Option (Row V)}
    (hset : ∀ value answer mutation, decideMutation value = .ok (answer, mutation) →
      mutation = .keepExisting ∨ ∃ next, mutation = .setValue next initialTtl)
    (h : mutateLiveKeyOrInsertInitialValueAtomically lift now delay initialValue initialTtl
      decideMutation cell = .ok (answer, cell')) :
    ∃ mutation, decideMutation ((liveValue now cell).getD initialValue) = .ok (answer, mutation) ∧
      (mutation = .keepExisting ∧ (liveValue now cell).isSome ∧ cell' = cell ∨
      ∃ row, cell' = some row ∧ setValueAndTtl (now + delay) row.value initialTtl = .ok row ∧
        (mutation = .setValue row.value initialTtl ∨
          mutation = .keepExisting ∧ liveValue now cell = none ∧ row.value = initialValue)) := by
  obtain ⟨⟨answer', mutation'⟩, hdecide, h⟩ := bind_eq_ok.1 h
  have write {value : V} (hmut : mutation' = .setValue value initialTtl) : answer' = answer ∧
      ∃ row, cell' = some row ∧ setValueAndTtl (now + delay) row.value initialTtl = .ok row ∧
        row.value = value := by
    subst hmut
    dsimp only at h
    split at h
    · cases h
    · rename_i row hrow
      obtain ⟨rfl, rfl⟩ := Prod.mk.inj (Except.ok.inj h)
      refine ⟨rfl, row, rfl, ?_, setValueAndTtl_value hrow⟩
      rw [setValueAndTtl_value hrow, hrow]
  cases hlive : liveValue now cell with
  | some value =>
      rw [hlive] at hdecide
      rcases hset _ _ _ hdecide with rfl | ⟨next, rfl⟩
      · obtain ⟨rfl, rfl⟩ := Prod.mk.inj (Except.ok.inj h)
        exact ⟨_, hdecide, .inl ⟨rfl, rfl, rfl⟩⟩
      · obtain ⟨rfl, row, hcell, hrow, hvalue⟩ := write rfl
        exact ⟨_, hdecide, .inr ⟨row, hcell, hrow, .inl (by rw [hvalue])⟩⟩
  | none =>
      rw [hlive] at hdecide
      obtain ⟨⟨answer'', mutation''⟩, hinner, hdecide⟩ := bind_eq_ok.1 hdecide
      rcases hset _ _ _ hinner with rfl | ⟨next, rfl⟩
      · obtain ⟨rfl, rfl⟩ := Prod.mk.inj (Except.ok.inj hdecide)
        obtain ⟨rfl, row, hcell, hrow, hvalue⟩ := write rfl
        exact ⟨_, hinner, .inr ⟨row, hcell, hrow, .inr ⟨rfl, rfl, hvalue⟩⟩⟩
      · obtain ⟨rfl, rfl⟩ := Prod.mk.inj (Except.ok.inj hdecide)
        obtain ⟨rfl, row, hcell, hrow, hvalue⟩ := write rfl
        exact ⟨_, hinner, .inr ⟨row, hcell, hrow, .inl (by rw [hvalue])⟩⟩

/-- A committed mutation of a live row kept it, or wrote it anew. -/
theorem mutateLiveKey_eq_ok {lift : KvError → E} {now : Int} {delay : Nat} {ttl : Ttl}
    {decideMutation : V → Except E (A × AtomicMutation V)} {answer : A} {cell cell' : Option (Row V)}
    (hset : ∀ value answer mutation, decideMutation value = .ok (answer, mutation) →
      mutation = .keepExisting ∨ ∃ next, mutation = .setValue next ttl)
    (h : mutateLiveKeyAtomically lift now delay decideMutation cell = .ok (answer, cell')) :
    ∃ value mutation, liveValue now cell = some value ∧ decideMutation value = .ok (answer, mutation) ∧
      (mutation = .keepExisting ∧ cell' = cell ∨
      ∃ row, cell' = some row ∧ setValueAndTtl (now + delay) row.value ttl = .ok row ∧
        mutation = .setValue row.value ttl) := by
  obtain ⟨⟨answer', mutation'⟩, hdecide, h⟩ := bind_eq_ok.1 h
  cases hlive : liveValue now cell with
  | none => rw [hlive] at hdecide; cases hdecide
  | some value =>
      rw [hlive] at hdecide
      rcases hset _ _ _ hdecide with rfl | ⟨next, rfl⟩
      · obtain ⟨rfl, rfl⟩ := Prod.mk.inj (Except.ok.inj h)
        exact ⟨value, _, rfl, hdecide, .inl ⟨rfl, rfl⟩⟩
      · dsimp only at h
        split at h
        · cases h
        · rename_i row hrow
          obtain ⟨rfl, rfl⟩ := Prod.mk.inj (Except.ok.inj h)
          have hvalue := setValueAndTtl_value hrow
          exact ⟨value, _, rfl, hdecide, .inr ⟨row, rfl, by rw [hvalue, hrow], by rw [hvalue]⟩⟩

end Paranoid.KvAtomic
