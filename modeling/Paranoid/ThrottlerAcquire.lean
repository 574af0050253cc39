import Paranoid.ThrottlerModel

namespace Paranoid.ThrottlerAcquire

open Postgres KvAtomic LeaseModel ThrottlerModel
open TokenNumber (ofInt isFinite)

section Evaluation

variable (T : Type)

/-- A granted permit, a throttled attempt with the suggested wait in seconds, or
an open circuit. -/
inductive ThrottlerManualPermitAcquireResult
  | acquired (permit : ThrottlerPermit)
  | throttled (retryAfter : Option T)
  | circuitOpen

structure ThrottlerMutationOutcome where
  acquireResult : ThrottlerManualPermitAcquireResult T
  state : ThrottlerState T
  shouldWrite : Bool

structure ThrottlerConcurrencyAcquireOutcome where
  stateWasModified : Bool
  noSlotAvailable : Bool
  acquiredSlotSuffix : Option Nat

structure ThrottlerRateLimitOutcome where
  blockedByRateLimit : Bool
  releasedAcquiredSlot : Bool
  retryAfter : T

inductive CircuitGateDecision
  | allowNormally
  | allowProbe
  | block
  deriving DecidableEq

variable {T} [TokenNumber T] (throttler : Throttler)

def shouldBlockForOpenCircuit (state : ThrottlerState T) (now : Int) (holderId : Option HolderId) :
    CircuitGateDecision :=
  match throttler.circuitBreaker with
  | none => .allowNormally
  | some breaker =>
      if state.circuitState ≠ .opened then .allowNormally else
      match state.circuitOpenedAtUnixMicroseconds with
      | none => .allowProbe
      | some openedAt =>
          if saturatingSub now openedAt < durationToMicrosecondsLossy breaker.recoveryTimeout then .block
          else match state.probeHolderId with
            | none => .allowProbe
            | some probeHolderId =>
                let probeIsLive := state.probeExpiresAtUnixMicroseconds.any (now < ·)
                let holderMatchesProbe := holderId.any (·.text = probeHolderId)
                if probeIsLive && !holderMatchesProbe then .block else .allowProbe

def retainLiveSlots (now : Int) (slots : Slots) : Slots :=
  ⟨slots.entries.filter fun slot => now < slot.2.expiresAtUnixMicroseconds,
    slots.nodupKeys.sublist List.filter_sublist⟩

/-- The slots that are live at `now`, by their number. -/
def liveSlots (now : Int) (slots : Slots) (slotNumber : Nat) : Option ThrottlerSlot :=
  (slots.lookup slotNumber).filter fun slot => now < slot.expiresAtUnixMicroseconds

theorem lookup_retainLiveSlots {now : Int} {slots : Slots} (slotNumber : Nat) :
    (retainLiveSlots now slots).lookup slotNumber = liveSlots now slots slotNumber := by
  ext slot
  rw [← Option.mem_def, ← Option.mem_def, AList.mem_lookup_iff,
    liveSlots, Option.mem_filter_iff, AList.mem_lookup_iff]
  exact List.mem_filter

def firstFreeSlot (maxConcurrent : Nat) (slots : Slots) : Option Nat :=
  (List.range' 1 maxConcurrent).find? (· ∉ slots)

def acquireConcurrencySlotIfConfigured (state : ThrottlerState T)
    (now : Int) (holderId : Option HolderId) :
    Except FleetError (ThrottlerConcurrencyAcquireOutcome × ThrottlerState T) :=
  match throttler.concurrencyLimit with
  | none => return (⟨false, false, none⟩, state)
  | some limit =>
      match holderId with
      | none => throw .throttlerHolderIdRequired
      | some holderId => do
          let slots := retainLiveSlots now state.slots
          match firstFreeSlot limit.maxConcurrent slots with
          | none =>
              let stateWasModified := slots.entries.length != state.slots.entries.length
              return (⟨stateWasModified, true, none⟩, { state with slots })
          | some slotNumber =>
              let slot := ⟨holderId.text, ← addDurationToTimestamp now limit.maxHoldDuration⟩
              return (⟨true, false, some slotNumber⟩,
                { state with slots := slots.insert slotNumber slot })

/-- `retry_after` in seconds, at least a millisecond. -/
def computeRateLimitRetryAfterDuration (currentTokens refillRatePerSecond : T) : T :=
  if refillRatePerSecond ≤ ofInt 0 then asSecs T maxKvTtlDuration
  else
    let retryAfterSeconds := (ofInt 1 - currentTokens) / refillRatePerSecond
    if retryAfterSeconds ≤ ofInt 0 then asSecs T 1000000
    else if !isFinite retryAfterSeconds then asSecs T maxKvTtlDuration
    else if retryAfterSeconds ≤ asSecs T 1000000 then asSecs T 1000000
    else retryAfterSeconds

def elapsedSeconds (state : ThrottlerState T) (now : Int) : T :=
  ofInt (max (saturatingSub now state.lastRefillUnixMicroseconds) 0) / ofInt 1000000

def refill (limit : ResolvedThrottlerRateLimit) (state : ThrottlerState T) (now : Int) : ThrottlerState T :=
  { state with
    tokens := min (state.tokens + elapsedSeconds state now * limit.refillRatePerSecond T)
      (ofInt limit.requestsPerInterval)
    lastRefillUnixMicroseconds := now }

def consumeRateLimitTokenIfConfigured (state : ThrottlerState T) (now : Int)
    (acquiredSlotSuffix : Option Nat) : ThrottlerRateLimitOutcome T × ThrottlerState T :=
  match throttler.rateLimit with
  | none => (⟨false, false, ofInt 0⟩, state)
  | some limit =>
      let refilled := refill limit state now
      if ofInt 1 ≤ refilled.tokens then
        (⟨false, false, ofInt 0⟩, { refilled with tokens := refilled.tokens - ofInt 1 })
      else
        let retryAfter :=
          computeRateLimitRetryAfterDuration refilled.tokens (limit.refillRatePerSecond T)
        match acquiredSlotSuffix with
        | none => (⟨true, false, retryAfter⟩, refilled)
        | some suffix =>
            (⟨true, suffix ∈ refilled.slots, retryAfter⟩,
              { refilled with slots := refilled.slots.erase suffix })

def evaluateTryAcquireManualPermit (current : ThrottlerState T) (now : Int) (holderId : Option HolderId) :
    Except FleetError (ThrottlerMutationOutcome T) := do
  let decision := shouldBlockForOpenCircuit throttler current now holderId
  if decision = .block then return ⟨.circuitOpen, current, false⟩
  let (concurrency, state) ← acquireConcurrencySlotIfConfigured throttler current now holderId
  if concurrency.noSlotAvailable then
    return ⟨.throttled none, state, concurrency.stateWasModified⟩
  let (rateLimit, state) :=
    consumeRateLimitTokenIfConfigured throttler state now concurrency.acquiredSlotSuffix
  if rateLimit.blockedByRateLimit then return ⟨.throttled (some rateLimit.retryAfter), state, true⟩
  if decision = .allowProbe then
    match holderId with
    | none => throw .throttlerHolderIdRequired
    | some holder =>
        let probeExpiresAt ← addDurationToTimestamp now defaultFleetThrottlerProbeWindow
        return {
          acquireResult := .acquired ⟨throttler.key, holderId, concurrency.acquiredSlotSuffix, true⟩
          state := { state with
            probeHolderId := some holder.text
            probeExpiresAtUnixMicroseconds := some probeExpiresAt }
          shouldWrite := true }
  return ⟨.acquired ⟨throttler.key, holderId, concurrency.acquiredSlotSuffix, false⟩, state, true⟩

/-- One acquisition: the state row is locked at `now` and written `delay` later. -/
def tryAcquireWithOptionalHolder (now : Int) (delay : Nat) (holderId : Option HolderId)
    (cell : Cell T) :
    Except FleetError (ThrottlerManualPermitAcquireResult T × Cell T) :=
  mutateLiveKeyOrInsertInitialValueAtomically .kv now
    delay (throttler.initialState now) throttler.stateTtl
    (fun current => do
      let outcome ← evaluateTryAcquireManualPermit throttler current now holderId
      if outcome.shouldWrite then return (outcome.acquireResult, .setValue outcome.state throttler.stateTtl)
      else return (outcome.acquireResult, .keepExisting)) cell

end Evaluation

section Stages

variable {T : Type} {throttler : Throttler} {current state state' : ThrottlerState T} {now : Int}
  {holderId : Option HolderId} {outcome : ThrottlerMutationOutcome T}
  {concurrency : ThrottlerConcurrencyAcquireOutcome}

def Acquired (result : ThrottlerManualPermitAcquireResult T) : Prop := ∃ permit, result = .acquired permit

instance : DecidablePred (@Acquired T) := fun result =>
  match result with
  | .acquired permit => .isTrue ⟨permit, rfl⟩
  | .throttled _ => .isFalse (by simp [Acquired])
  | .circuitOpen => .isFalse (by simp [Acquired])

theorem acquireConcurrencySlot_eq_ok
    (h : acquireConcurrencySlotIfConfigured throttler state now holderId = .ok (concurrency, state')) :
    ∃ slots, state' = { state with slots } := by
  unfold acquireConcurrencySlotIfConfigured at h
  split at h
  · rw [← (Prod.mk.inj (Except.ok.inj h)).2]
    exact ⟨state.slots, rfl⟩
  · split at h
    · cases h
    · dsimp only at h
      split at h
      · rw [← (Prod.mk.inj (Except.ok.inj h)).2]
        exact ⟨_, rfl⟩
      · obtain ⟨expiresAt, -, h⟩ := bind_eq_ok.1 h
        rw [← (Prod.mk.inj (Except.ok.inj h)).2]
        exact ⟨_, rfl⟩

variable [TokenNumber T]

/-- The stages of an evaluation, in the order in which they may end it. -/
theorem evaluate_eq_ok
    (h : evaluateTryAcquireManualPermit throttler current now holderId = .ok outcome) :
    outcome = ⟨.circuitOpen, current, false⟩ ∨
    ∃ concurrency state, acquireConcurrencySlotIfConfigured throttler current now holderId =
        .ok (concurrency, state) ∧
      (outcome = ⟨.throttled none, state, concurrency.stateWasModified⟩ ∨ ¬concurrency.noSlotAvailable ∧
      ∃ rateLimit state', consumeRateLimitTokenIfConfigured throttler state now
          concurrency.acquiredSlotSuffix = (rateLimit, state') ∧
        (rateLimit.blockedByRateLimit ∧
            outcome = ⟨.throttled (some rateLimit.retryAfter), state', true⟩ ∨
        ¬rateLimit.blockedByRateLimit ∧ outcome.shouldWrite ∧
          outcome.state.tokens = state'.tokens ∧ outcome.state.slots = state'.slots ∧
          outcome.state.lastRefillUnixMicroseconds = state'.lastRefillUnixMicroseconds ∧
          ∃ probe, outcome.acquireResult =
            .acquired ⟨throttler.key, holderId, concurrency.acquiredSlotSuffix, probe⟩)) := by
  dsimp only [evaluateTryAcquireManualPermit] at h
  split at h
  · exact .inl (Except.ok.inj h).symm
  obtain ⟨⟨concurrency, state⟩, hc, h⟩ := bind_eq_ok.1 h
  refine .inr ⟨concurrency, state, hc, ?_⟩
  split at h
  · exact .inl (Except.ok.inj h).symm
  rename_i hslot
  dsimp only at h
  refine .inr ⟨hslot, _, _, rfl, ?_⟩
  split at h
  · rename_i hblocked
    exact .inl ⟨hblocked, (Except.ok.inj h).symm⟩
  rename_i hpassed
  refine .inr ⟨hpassed, ?_⟩
  split at h
  · cases holderId with
    | none => cases h
    | some holder =>
        obtain ⟨probeExpiresAt, -, h⟩ := bind_eq_ok.1 h
        rw [← Except.ok.inj h]
        exact ⟨rfl, rfl, rfl, rfl, true, rfl⟩
  · rw [← Except.ok.inj h]
    exact ⟨rfl, rfl, rfl, rfl, false, rfl⟩

/-- A committed acquisition evaluated the live state, or a fresh one where none is
live, and stored what it evaluated to under a renewed expiry. -/
theorem tryAcquire_eq_ok {delay : Nat} {result : ThrottlerManualPermitAcquireResult T}
    {cell cell' : Cell T}
    (h : tryAcquireWithOptionalHolder throttler now delay holderId cell = .ok (result, cell')) :
    ∃ outcome, evaluateTryAcquireManualPermit throttler
        ((liveValue now cell).getD (throttler.initialState now)) now holderId = .ok outcome ∧
      result = outcome.acquireResult ∧
      (¬outcome.shouldWrite ∧ (liveValue now cell).isSome ∧ cell' = cell ∨
      ∃ row, cell' = some row ∧ setValueAndTtl (now + delay) row.value throttler.stateTtl = .ok row ∧
        (outcome.shouldWrite ∧ row.value = outcome.state ∨
          ¬outcome.shouldWrite ∧ liveValue now cell = none ∧
            row.value = throttler.initialState now)) := by
  obtain ⟨mutation, hdecide, hcell⟩ := mutateLiveKeyOrInsert_eq_ok (fun value answer mutation hm => by
    obtain ⟨outcome, -, hm⟩ := bind_eq_ok.1 hm
    split at hm
    · exact .inr ⟨_, (Prod.mk.inj (Except.ok.inj hm)).2.symm⟩
    · exact .inl (Prod.mk.inj (Except.ok.inj hm)).2.symm) h
  obtain ⟨outcome, houtcome, hmutation⟩ := bind_eq_ok.1 hdecide
  refine ⟨outcome, houtcome, ?_⟩
  split at hmutation
  · rename_i hwrite
    obtain ⟨rfl, rfl⟩ := Prod.mk.inj (Except.ok.inj hmutation)
    refine ⟨rfl, ?_⟩
    rcases hcell with ⟨hkeep, -⟩ | ⟨row, hrow, hset, hvalue | ⟨hkeep, -⟩⟩
    · cases hkeep
    · exact .inr ⟨row, hrow, hset, .inl ⟨hwrite, (AtomicMutation.setValue.inj hvalue).1.symm⟩⟩
    · cases hkeep
  · rename_i hwrite
    obtain ⟨rfl, rfl⟩ := Prod.mk.inj (Except.ok.inj hmutation)
    refine ⟨rfl, ?_⟩
    rcases hcell with ⟨-, hlive, hsame⟩ | ⟨row, hrow, hset, hvalue | ⟨-, hlive, hvalue⟩⟩
    · exact .inl ⟨hwrite, hlive, hsame⟩
    · cases hvalue
    · exact .inr ⟨row, hrow, hset, .inr ⟨hwrite, hlive, hvalue⟩⟩

end Stages

section Exact

theorem elapsedSeconds_rat (state : ThrottlerState ℚ) (now : Int) : elapsedSeconds state now =
    ((max (saturatingSub now state.lastRefillUnixMicroseconds) 0 : Int) : ℚ) / 1000000 := by
  change ((max (saturatingSub now state.lastRefillUnixMicroseconds) 0 : Int) : ℚ) / ((1000000 : Int) : ℚ) = _
  rw [Int.cast_ofNat]

theorem elapsedSeconds_nonneg (state : ThrottlerState ℚ) (now : Int) : 0 ≤ elapsedSeconds state now := by
  rw [elapsedSeconds_rat]
  positivity

theorem refill_tokens_rat (limit : ResolvedThrottlerRateLimit) (state : ThrottlerState ℚ) (now : Int) :
    (refill limit state now).tokens =
      min (state.tokens + elapsedSeconds state now * limit.refillRatePerSecond ℚ)
        (limit.requestsPerInterval : ℚ) := by
  rfl

end Exact

end Paranoid.ThrottlerAcquire
