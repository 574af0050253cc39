import Paranoid.ThrottlerModel

namespace Paranoid.ThrottlerRelease

open Postgres KvAtomic ThrottlerModel

structure ThrottlerReleaseResult where
  concurrencySlotReleased : Bool
  circuitStateUpdated : Bool
  probeReleased : Bool
  deriving DecidableEq

def ThrottlerReleaseResult.default : ThrottlerReleaseResult := ⟨false, false, false⟩

def ThrottlerReleaseResult.stateWasModified (result : ThrottlerReleaseResult) : Bool :=
  result.concurrencySlotReleased || result.circuitStateUpdated || result.probeReleased

section Release

variable {T : Type} (throttler : Throttler)

def needsStateCleanup (permit : ThrottlerPermit) : Bool :=
  (throttler.concurrencyLimit.isSome && permit.slotSuffix.isSome) || throttler.circuitBreaker.isSome

/-- The slot that a permit names, when the stored slot carries its holder. -/
def ownedSlot (permit : ThrottlerPermit) (slots : Slots) : Option Nat :=
  match permit.slotSuffix, permit.holderId with
  | some suffix, some holderId =>
      if (slots.lookup suffix).any (·.holderId = holderId.text) then some suffix else none
  | _, _ => none

def releaseOwnedConcurrencySlot (state : ThrottlerState T) (permit : ThrottlerPermit) :
    Bool × ThrottlerState T :=
  if throttler.concurrencyLimit.isNone then (false, state)
  else match ownedSlot permit state.slots with
    | none => (false, state)
    | some suffix => (true, { state with slots := state.slots.erase suffix })

def applyTaskOutcomeToCircuitState (state : ThrottlerState T)
    (now : Int) (outcome : ThrottlerTaskOutcome) :
    Bool × ThrottlerState T :=
  match throttler.circuitBreaker with
  | none => (false, state)
  | some breaker =>
      match outcome with
      | .notExecuted => (false, state)
      | .failed =>
          let failures := min (state.consecutiveFailures + 1) (2 ^ 32 - 1)
          if state.circuitState = .closed ∧ breaker.failureThreshold ≤ failures then
            (true, { state with
              consecutiveFailures := failures
              circuitState := .opened
              circuitOpenedAtUnixMicroseconds := some now })
          else if state.circuitState = .opened then
            (true, { state with
              consecutiveFailures := failures
              circuitOpenedAtUnixMicroseconds := some now })
          else (true, { state with consecutiveFailures := failures })
      | .succeeded =>
          if state.consecutiveFailures = 0 ∧ state.circuitState = .closed ∧
              state.circuitOpenedAtUnixMicroseconds = none then (false, state)
          else (true, { state with
            consecutiveFailures := 0
            circuitState := .closed
            circuitOpenedAtUnixMicroseconds := none })

def clearProbeIfOwned (state : ThrottlerState T) (permit : ThrottlerPermit) : Bool × ThrottlerState T :=
  match permit.holderId with
  | none => (false, state)
  | some holderId =>
      if state.probeHolderId = some holderId.text then
        (true, { state with probeHolderId := none, probeExpiresAtUnixMicroseconds := none })
      else (false, state)

def applyReleaseAndOutcome (state : ThrottlerState T) (now : Int) (permit : ThrottlerPermit)
    (outcome : ThrottlerTaskOutcome) : ThrottlerReleaseResult × ThrottlerState T :=
  let (concurrencySlotReleased, state) := releaseOwnedConcurrencySlot throttler state permit
  if throttler.circuitBreaker.isNone then (⟨concurrencySlotReleased, false, false⟩, state)
  else
    let (circuitStateUpdated, state) := applyTaskOutcomeToCircuitState throttler state now outcome
    let (probeReleased, state) := clearProbeIfOwned state permit
    (⟨concurrencySlotReleased, circuitStateUpdated, probeReleased⟩, state)

/-- One release: the state row is locked at `now` and written `delay` later. A
row that is gone or has expired is no error. -/
def releaseManualPermitAfterTaskOutcome (now : Int) (delay : Nat) (permit : ThrottlerPermit)
    (outcome : ThrottlerTaskOutcome) (cell : Cell T) :
    Except FleetError (ThrottlerReleaseResult × Cell T) :=
  if permit.throttlerKey ≠ throttler.key then throw .throttlerPermitBelongsToDifferentThrottler
  else if !needsStateCleanup throttler permit then return (.default, cell)
  else
    let mutated := mutateLiveKeyAtomically FleetError.kv now delay
      (fun current =>
        let (result, state) := applyReleaseAndOutcome throttler current now permit outcome
        if result.stateWasModified then return (result, .setValue state throttler.stateTtl)
        else return (result, .keepExisting)) cell
    match mutated with
    | .error (.kv .keyNotFound) => return (.default, cell)
    | result => result

/-- One extension of a probe reservation: the state row is locked at `now` and written
`delay` later. A row that is gone or has expired is no error. -/
def extendProbeReservation (now : Int) (delay : Nat)
    (permit : ThrottlerPermit) (cell : Cell T) :
    Except FleetError (Bool × Cell T) :=
  if permit.throttlerKey ≠ throttler.key then throw .throttlerPermitBelongsToDifferentThrottler
  else if !permit.probeAcquired then return (false, cell)
  else match permit.holderId with
    | none => throw .throttlerHolderIdRequired
    | some holderId =>
        let mutated := mutateLiveKeyAtomically FleetError.kv now delay
          (fun current =>
            if current.circuitState ≠ .opened ∨ current.probeHolderId ≠ some holderId.text then
              return (false, .keepExisting)
            else match current.probeExpiresAtUnixMicroseconds with
              | none => return (false, .keepExisting)
              | some probeExpiresAt =>
                  if probeExpiresAt ≤ now then return (false, .keepExisting)
                  else do
                    let probeExpiresAt ← addDurationToTimestamp now defaultFleetThrottlerProbeWindow
                    return (true, .setValue
                      { current with probeExpiresAtUnixMicroseconds := some probeExpiresAt }
                      throttler.stateTtl)) cell
        match mutated with
        | .error (.kv .keyNotFound) => return (false, cell)
        | result => result

def withCircuitState (circuitState : ThrottlerCircuitState)
    (setOpenedAt resetConsecutiveFailures : Bool) (now : Int)
    (state : ThrottlerState T) : ThrottlerState T :=
  { state with
    circuitState
    circuitOpenedAtUnixMicroseconds := if setOpenedAt then some now else none
    probeHolderId := none
    probeExpiresAtUnixMicroseconds := none
    consecutiveFailures := if resetConsecutiveFailures then 0 else state.consecutiveFailures }

variable [TokenNumber T]

def setCircuitState (now : Int) (delay : Nat) (circuitState : ThrottlerCircuitState)
    (setOpenedAt resetConsecutiveFailures : Bool) (cell : Cell T) :
    Except FleetError (Unit × Cell T) :=
  if throttler.circuitBreaker.isNone then return ((), cell)
  else mutateLiveKeyOrInsertInitialValueAtomically .kv now
    delay (throttler.initialState now) throttler.stateTtl
    (fun current => return ((), .setValue
      (withCircuitState circuitState setOpenedAt resetConsecutiveFailures now current)
        throttler.stateTtl)) cell

def openCircuit (now : Int) (delay : Nat) (cell : Cell T) :
    Except FleetError (Unit × Cell T) :=
  setCircuitState throttler now delay .opened true false cell

def closeCircuit (now : Int) (delay : Nat) (cell : Cell T) :
    Except FleetError (Unit × Cell T) :=
  setCircuitState throttler now delay .closed false true cell

end Release

variable {T : Type} {throttler : Throttler} {state : ThrottlerState T} {now : Int} {permit : ThrottlerPermit}
  {outcome : ThrottlerTaskOutcome}

theorem applyTaskOutcome_slots :
    (applyTaskOutcomeToCircuitState throttler state now outcome).2.slots = state.slots := by
  unfold applyTaskOutcomeToCircuitState
  split
  · rfl
  · cases outcome with
    | notExecuted => rfl
    | failed =>
        dsimp only
        split
        · rfl
        · split
          · rfl
          · rfl
    | succeeded =>
        dsimp only
        split
        · rfl
        · rfl

theorem clearProbe_slots : (clearProbeIfOwned state permit).2.slots = state.slots := by
  unfold clearProbeIfOwned
  split
  · rfl
  · split
    · rfl
    · rfl

theorem releaseOwned_slots :
    (releaseOwnedConcurrencySlot throttler state permit).2.slots = state.slots ∨
    ∃ k, ownedSlot permit state.slots = some k ∧
      (releaseOwnedConcurrencySlot throttler state permit).2.slots = state.slots.erase k := by
  unfold releaseOwnedConcurrencySlot
  split
  · exact .inl rfl
  · split
    · exact .inl rfl
    · rename_i k hk
      exact .inr ⟨k, hk, rfl⟩

/-- A release takes away at most the slot that its permit is found to own. -/
theorem applyRelease_slots :
    (applyReleaseAndOutcome throttler state now permit outcome).2.slots = state.slots ∨
    ∃ k, ownedSlot permit state.slots = some k ∧
      (applyReleaseAndOutcome throttler state now permit outcome).2.slots = state.slots.erase k := by
  have hslots : (applyReleaseAndOutcome throttler state now permit outcome).2.slots =
      (releaseOwnedConcurrencySlot throttler state permit).2.slots := by
    unfold applyReleaseAndOutcome
    dsimp only
    split
    · rfl
    · rw [clearProbe_slots, applyTaskOutcome_slots]
  rw [hslots]
  exact releaseOwned_slots

theorem ownedSlot_eq_some {slots : Slots} {k : Nat} (h : ownedSlot permit slots = some k) :
    permit.slotSuffix = some k ∧ ∃ holder slot, permit.holderId = some holder ∧
      slots.lookup k = some slot ∧ slot.holderId = holder.text := by
  unfold ownedSlot at h
  split at h
  · rename_i suffix holder hsuffix hholder
    split at h
    · rename_i hany
      obtain rfl := Option.some.inj h
      refine ⟨hsuffix, holder, ?_⟩
      cases hslot : slots.lookup suffix with
      | none => simp [hslot] at hany
      | some slot => exact ⟨slot, hholder, rfl, by simpa [hslot] using hany⟩
    · cases h
  · cases h

/-- A committed release found nothing to do, or stored what it applied to the live state. -/
theorem release_eq_ok {delay : Nat} {result : ThrottlerReleaseResult}
    {cell cell' : Cell T}
    (h : releaseManualPermitAfterTaskOutcome throttler now delay permit outcome cell =
      .ok (result, cell')) :
    result.stateWasModified = false ∧ cell' = cell ∨
      ∃ current row, liveValue now cell = some current ∧ cell' = some row ∧
      setValueAndTtl (now + delay) row.value throttler.stateTtl = .ok row ∧
      applyReleaseAndOutcome throttler current now permit outcome = (result, row.value) := by
  unfold releaseManualPermitAfterTaskOutcome at h
  split at h
  · cases h
  · split at h
    · obtain ⟨rfl, rfl⟩ := Prod.mk.inj (Except.ok.inj h)
      exact .inl ⟨rfl, rfl⟩
    · dsimp only at h
      split at h
      · obtain ⟨rfl, rfl⟩ := Prod.mk.inj (Except.ok.inj h)
        exact .inl ⟨rfl, rfl⟩
      · obtain ⟨current, mutation, hlive, hdecide, hcell⟩ := mutateLiveKey_eq_ok
          (fun value answer mutation hm => by
            split at hm
            · exact .inr ⟨_, (Prod.mk.inj (Except.ok.inj hm)).2.symm⟩
            · exact .inl (Prod.mk.inj (Except.ok.inj hm)).2.symm) h
        split at hdecide
        · obtain ⟨rfl, rfl⟩ := Prod.mk.inj (Except.ok.inj hdecide)
          rcases hcell with ⟨hkeep, -⟩ | ⟨row, hrow, hset, hmutation⟩
          · cases hkeep
          · exact .inr ⟨current, row, hlive, hrow, hset,
              by rw [← (AtomicMutation.setValue.inj hmutation).1]⟩
        · rename_i hunmodified
          obtain ⟨rfl, rfl⟩ := Prod.mk.inj (Except.ok.inj hdecide)
          rcases hcell with ⟨-, hsame⟩ | ⟨row, -, -, hmutation⟩
          · exact .inl ⟨Bool.eq_false_iff.2 hunmodified, hsame⟩
          · cases hmutation

theorem extend_eq_ok {delay : Nat} {extended : Bool} {cell cell' : Cell T}
    (h : extendProbeReservation throttler now delay permit cell = .ok (extended, cell')) :
    extended = false ∧ cell' = cell ∨
      extended = true ∧ ∃ current row holderId probeExpiresAt extendedTo,
      liveValue now cell = some current ∧ cell' = some row ∧
      setValueAndTtl (now + delay) row.value throttler.stateTtl = .ok row ∧
        permit.holderId = some holderId ∧
      current.circuitState = .opened ∧ current.probeHolderId = some holderId.text ∧
      current.probeExpiresAtUnixMicroseconds = some probeExpiresAt ∧ now < probeExpiresAt ∧
      addDurationToTimestamp now defaultFleetThrottlerProbeWindow = .ok extendedTo ∧
      row.value = { current with probeExpiresAtUnixMicroseconds := some extendedTo } := by
  unfold extendProbeReservation at h
  split at h
  · cases h
  split at h
  · obtain ⟨rfl, rfl⟩ := Prod.mk.inj (Except.ok.inj h)
    exact .inl ⟨rfl, rfl⟩
  split at h
  · cases h
  rename_i holderId hholder
  dsimp only at h
  split at h
  · obtain ⟨rfl, rfl⟩ := Prod.mk.inj (Except.ok.inj h)
    exact .inl ⟨rfl, rfl⟩
  obtain ⟨current, mutation, hlive, hdecide, hcell⟩ := mutateLiveKey_eq_ok
    (fun value answer mutation hm => by
      split at hm
      · exact .inl (Prod.mk.inj (Except.ok.inj hm)).2.symm
      · split at hm
        · exact .inl (Prod.mk.inj (Except.ok.inj hm)).2.symm
        · split at hm
          · exact .inl (Prod.mk.inj (Except.ok.inj hm)).2.symm
          · obtain ⟨extendedTo, -, hm⟩ := bind_eq_ok.1 hm
            exact .inr ⟨_, (Prod.mk.inj (Except.ok.inj hm)).2.symm⟩) h
  split at hdecide
  · obtain ⟨rfl, rfl⟩ := Prod.mk.inj (Except.ok.inj hdecide)
    rcases hcell with ⟨-, rfl⟩ | ⟨row, -, -, hmutation⟩
    · exact .inl ⟨rfl, rfl⟩
    · cases hmutation
  rename_i howned
  rw [not_or, not_ne_iff, not_ne_iff] at howned
  split at hdecide
  · obtain ⟨rfl, rfl⟩ := Prod.mk.inj (Except.ok.inj hdecide)
    rcases hcell with ⟨-, rfl⟩ | ⟨row, -, -, hmutation⟩
    · exact .inl ⟨rfl, rfl⟩
    · cases hmutation
  rename_i probeExpiresAt hprobe
  split at hdecide
  · obtain ⟨rfl, rfl⟩ := Prod.mk.inj (Except.ok.inj hdecide)
    rcases hcell with ⟨-, rfl⟩ | ⟨row, -, -, hmutation⟩
    · exact .inl ⟨rfl, rfl⟩
    · cases hmutation
  rename_i hunexpired
  obtain ⟨extendedTo, hextended, hdecide⟩ := bind_eq_ok.1 hdecide
  obtain ⟨rfl, rfl⟩ := Prod.mk.inj (Except.ok.inj hdecide)
  rcases hcell with ⟨hkeep, -⟩ | ⟨row, hrow, hset, hmutation⟩
  · cases hkeep
  · exact .inr ⟨rfl, current, row, holderId, probeExpiresAt,
      extendedTo, hlive, hrow, hset, hholder, howned.1, howned.2,
      hprobe, not_le.1 hunexpired, hextended, (AtomicMutation.setValue.inj hmutation).1.symm⟩

theorem setCircuitState_eq_ok [TokenNumber T] {delay : Nat} {circuitState : ThrottlerCircuitState}
    {setOpenedAt resetConsecutiveFailures : Bool} {cell cell' : Cell T}
    {breaker : ResolvedThrottlerCircuitBreaker} (hbreaker : throttler.circuitBreaker = some breaker)
    (h : setCircuitState throttler now delay circuitState
      setOpenedAt resetConsecutiveFailures cell = .ok ((), cell')) :
    ∃ row, cell' = some row ∧ setValueAndTtl (now + delay) row.value throttler.stateTtl = .ok row ∧
      row.value = withCircuitState circuitState setOpenedAt resetConsecutiveFailures now
        ((liveValue now cell).getD (throttler.initialState now)) := by
  unfold setCircuitState at h
  rw [if_neg (by simp [hbreaker])] at h
  obtain ⟨mutation, hdecide, hcell⟩ := mutateLiveKeyOrInsert_eq_ok
    (fun value answer mutation hm => .inr ⟨_, (Prod.mk.inj (Except.ok.inj hm)).2.symm⟩) h
  obtain ⟨-, rfl⟩ := Prod.mk.inj (Except.ok.inj hdecide)
  rcases hcell with ⟨hkeep, -⟩ | ⟨row, hrow, hset, hmutation | ⟨hkeep, -⟩⟩
  · cases hkeep
  · exact ⟨row, hrow, hset, (AtomicMutation.setValue.inj hmutation).1.symm⟩
  · cases hkeep

end Paranoid.ThrottlerRelease
