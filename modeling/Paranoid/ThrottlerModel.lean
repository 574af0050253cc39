import Mathlib.Data.List.AList
import Mathlib.Tactic.FieldSimp
import Paranoid.Binary64Arithmetic
import Paranoid.KvAtomic
import Paranoid.LeaseModel

namespace Paranoid.ThrottlerModel

open Postgres KvAtomic LeaseModel

/-- What tokens are counted in: `f64` in the source, and exact rationals where a property is
stated in these. -/
class TokenNumber (T : Type) extends Add T, Sub T, Mul T, Div T, Min T, LE T where
  ofInt : Int → T
  isFinite : T → Bool
  decidableLE : DecidableLE T

instance decidableLE {T : Type} [TokenNumber T] : DecidableLE T := TokenNumber.decidableLE

instance : TokenNumber ℚ where
  ofInt n := n
  isFinite _ := true
  decidableLE := inferInstance

instance : TokenNumber Binary64.Float64 where
  ofInt := Binary64.Float64.ofInt
  isFinite := Binary64.Float64.isFinite
  decidableLE := inferInstance

open TokenNumber (ofInt)

def fleetMaxConcurrentLimit : Nat := 100

def fleetThrottlerStateTtlMultiplier : Nat := 10

/-- Five minutes, in nanoseconds, as every configured duration is. -/
def defaultFleetThrottlerMaxHoldDuration : Nat := 300000000000

def defaultFleetThrottlerStateTtl : Nat := 600000000000

def defaultFleetThrottlerProbeWindow : Nat := 5000000000

def maxKvTtlDuration : Nat := 9223372036854775807000

inductive FleetError
  | invalidThrottlerRequestsPerInterval
  | invalidThrottlerRateLimitInterval
  | invalidThrottlerMaxConcurrent (value max : Nat)
  | invalidThrottlerMaxHoldDuration
  | invalidThrottlerFailureThreshold
  | invalidThrottlerRecoveryTimeout
  | invalidThrottlerHasNoControls
  | invalidThrottlerStateTtl (source : KvError)
  | throttlerHolderIdRequired
  | throttlerTimestampOverflow
  | throttlerPermitBelongsToDifferentThrottler
  | kv (error : KvError)
  deriving DecidableEq

structure ThrottlerRateLimit where
  requestsPerInterval : Nat
  interval : Nat
  fits : requestsPerInterval < 2 ^ 32

structure ThrottlerConcurrencyLimit where
  maxConcurrent : Nat
  maxHoldDuration : Option Nat

structure ThrottlerCircuitBreaker where
  failureThreshold : Nat
  recoveryTimeout : Nat

structure ThrottlerConfig where
  key : String
  rateLimit : Option ThrottlerRateLimit
  concurrencyLimit : Option ThrottlerConcurrencyLimit
  circuitBreaker : Option ThrottlerCircuitBreaker

def durationToRoundedMicroseconds (duration : Nat) : Option Int :=
  if (ceilMicroseconds duration : Int) ≤ i64Max then some (ceilMicroseconds duration) else none

def durationToMicrosecondsLossy (duration : Nat) : Int :=
  (durationToRoundedMicroseconds duration).getD i64Max

/-- What `validate_duration_for_throttler` admits. -/
def AdmittedDuration (duration : Nat) : Prop :=
  0 < duration ∧ (ceilMicroseconds duration : Int) ≤ i64Max

instance (duration : Nat) : Decidable (AdmittedDuration duration) :=
  inferInstanceAs (Decidable (_ ∧ _))

theorem admittedDuration_oneSecond : AdmittedDuration 1000000000 := by decide

structure ResolvedThrottlerRateLimit where
  requestsPerInterval : Nat
  interval : Nat
  positive : 0 < requestsPerInterval
  fits : requestsPerInterval < 2 ^ 32
  admitted : AdmittedDuration interval

structure ResolvedThrottlerConcurrencyLimit where
  maxConcurrent : Nat
  maxHoldDuration : Nat
  positive : 0 < maxConcurrent
  bounded : maxConcurrent ≤ fleetMaxConcurrentLimit
  admitted : AdmittedDuration maxHoldDuration

structure ResolvedThrottlerCircuitBreaker where
  failureThreshold : Nat
  recoveryTimeout : Nat
  positive : 0 < failureThreshold
  admitted : AdmittedDuration recoveryTimeout

def resolveThrottlerRateLimit (limit : ThrottlerRateLimit) :
    Except FleetError ResolvedThrottlerRateLimit :=
  if positive : 0 < limit.requestsPerInterval then
    if admitted : AdmittedDuration limit.interval then return ⟨_, _, positive, limit.fits, admitted⟩
    else throw .invalidThrottlerRateLimitInterval
  else throw .invalidThrottlerRequestsPerInterval

def resolveThrottlerConcurrencyLimit (limit : ThrottlerConcurrencyLimit) :
    Except FleetError ResolvedThrottlerConcurrencyLimit :=
  if valid : 0 < limit.maxConcurrent ∧ limit.maxConcurrent ≤ fleetMaxConcurrentLimit then
    if admitted : AdmittedDuration (limit.maxHoldDuration.getD defaultFleetThrottlerMaxHoldDuration) then
      return ⟨_, _, valid.1, valid.2, admitted⟩
    else throw .invalidThrottlerMaxHoldDuration
  else throw (.invalidThrottlerMaxConcurrent limit.maxConcurrent fleetMaxConcurrentLimit)

def resolveThrottlerCircuitBreaker (breaker : ThrottlerCircuitBreaker) :
    Except FleetError ResolvedThrottlerCircuitBreaker :=
  if positive : 0 < breaker.failureThreshold then
    if admitted : AdmittedDuration breaker.recoveryTimeout then return ⟨_, _, positive, admitted⟩
    else throw .invalidThrottlerRecoveryTimeout
  else throw .invalidThrottlerFailureThreshold

def scaleDurationForThrottlerStateTtl (duration : Nat) : Nat :=
  min (duration * fleetThrottlerStateTtlMultiplier) maxKvTtlDuration

def throttlerStateTtlDuration (rateLimit : Option ResolvedThrottlerRateLimit)
    (concurrencyLimit : Option ResolvedThrottlerConcurrencyLimit)
    (circuitBreaker : Option ResolvedThrottlerCircuitBreaker) : Nat :=
  let forRate := rateLimit.elim 0 fun limit => scaleDurationForThrottlerStateTtl limit.interval
  let forHold := concurrencyLimit.elim 0 fun limit =>
    scaleDurationForThrottlerStateTtl limit.maxHoldDuration
  let forCircuit := circuitBreaker.elim 0 fun breaker =>
    max (scaleDurationForThrottlerStateTtl breaker.recoveryTimeout)
      (scaleDurationForThrottlerStateTtl defaultFleetThrottlerProbeWindow)
  let ttl := max (max forRate forHold) forCircuit
  max (if ttl = 0 then defaultFleetThrottlerStateTtl else ttl) minKvTtl

def throttlerStateTtl (rateLimit : Option ResolvedThrottlerRateLimit)
    (concurrencyLimit : Option ResolvedThrottlerConcurrencyLimit)
    (circuitBreaker : Option ResolvedThrottlerCircuitBreaker) : Except FleetError Ttl :=
  (Ttl.expiresAfter (throttlerStateTtlDuration rateLimit concurrencyLimit circuitBreaker)).mapError
    .invalidThrottlerStateTtl

/-- The time to live of a state whose limits last a second. -/
def oneSecondStateTtl : Ttl := ⟨some 10000000000, by decide, by decide⟩

structure Throttler where
  key : String
  rateLimit : Option ResolvedThrottlerRateLimit
  concurrencyLimit : Option ResolvedThrottlerConcurrencyLimit
  circuitBreaker : Option ResolvedThrottlerCircuitBreaker
  stateTtl : Ttl
  ttl_eq : throttlerStateTtl rateLimit concurrencyLimit circuitBreaker = .ok stateTtl

def newThrottler (config : ThrottlerConfig) : Except FleetError Throttler := do
  let rateLimit ← config.rateLimit.mapM resolveThrottlerRateLimit
  let concurrencyLimit ← config.concurrencyLimit.mapM resolveThrottlerConcurrencyLimit
  let circuitBreaker ← config.circuitBreaker.mapM resolveThrottlerCircuitBreaker
  if rateLimit.isNone ∧ concurrencyLimit.isNone ∧ circuitBreaker.isNone then
    throw .invalidThrottlerHasNoControls
  match ttl_eq : throttlerStateTtl rateLimit concurrencyLimit circuitBreaker with
  | .error e => throw e
  | .ok stateTtl => return ⟨config.key, rateLimit, concurrencyLimit, circuitBreaker, stateTtl, ttl_eq⟩

inductive ThrottlerCircuitState
  | closed
  | opened
  deriving DecidableEq

structure ThrottlerSlot where
  holderId : String
  expiresAtUnixMicroseconds : Int
  deriving DecidableEq

/-- The occupied slots by their number, which the state row spells in decimal. -/
abbrev Slots := AList fun _ : Nat => ThrottlerSlot

/-- The shared state row. -/
structure ThrottlerState (T : Type) where
  tokens : T
  lastRefillUnixMicroseconds : Int
  slots : Slots
  consecutiveFailures : Nat
  circuitState : ThrottlerCircuitState
  circuitOpenedAtUnixMicroseconds : Option Int
  probeHolderId : Option String
  probeExpiresAtUnixMicroseconds : Option Int

/-- The row under a throttler's key, when there is one. -/
abbrev Cell (T : Type) := Option (Row (ThrottlerState T))

structure ThrottlerPermit where
  throttlerKey : String
  holderId : Option HolderId
  slotSuffix : Option Nat
  probeAcquired : Bool

inductive ThrottlerTaskOutcome
  | notExecuted
  | succeeded
  | failed
  deriving DecidableEq

section Numbers

variable (T : Type) [TokenNumber T]

/-- The seconds of a duration, as `as_secs_f64` adds them up. -/
def asSecs (duration : Nat) : T :=
  ofInt (duration / 1000000000) + ofInt (duration % 1000000000) / ofInt 1000000000

def ResolvedThrottlerRateLimit.refillRatePerSecond (limit : ResolvedThrottlerRateLimit) : T :=
  ofInt limit.requestsPerInterval / asSecs T limit.interval

variable {T}

theorem asSecs_rat (duration : Nat) : asSecs ℚ duration = duration / 1000000000 := by
  have hsplit := Int.emod_add_mul_ediv duration 1000000000
  have hcast : (duration : ℚ) = (duration % 1000000000 : Int) + 1000000000 * (duration / 1000000000 : Int) := by
    exact_mod_cast hsplit.symm
  change ((duration / 1000000000 : Int) : ℚ) + ((duration % 1000000000 : Int) : ℚ) / ((1000000000 : Int) : ℚ) = _
  rw [hcast]
  push_cast
  ring

theorem refillRatePerSecond_rat (limit : ResolvedThrottlerRateLimit) :
    limit.refillRatePerSecond ℚ = limit.requestsPerInterval / (limit.interval / 1000000000) := by
  rw [← asSecs_rat]
  rfl

end Numbers

section Exact

def refillRatePerMicrosecond (limit : ResolvedThrottlerRateLimit) : ℚ :=
  limit.refillRatePerSecond ℚ / 1000000

theorem refillRatePerSecond_nonneg (limit : ResolvedThrottlerRateLimit) :
    0 ≤ limit.refillRatePerSecond ℚ := by
  rw [refillRatePerSecond_rat]
  positivity

theorem rate_nonneg (limit : ResolvedThrottlerRateLimit) : 0 ≤ refillRatePerMicrosecond limit :=
  div_nonneg (refillRatePerSecond_nonneg limit) (by norm_num)

theorem interval_fills (limit : ResolvedThrottlerRateLimit) :
    (limit.requestsPerInterval : ℚ) ≤
    ceilMicroseconds limit.interval * refillRatePerMicrosecond limit := by
  have hinterval : (0 : ℚ) < limit.interval := by exact_mod_cast limit.admitted.1
  have hceil : (limit.interval : ℚ) ≤ 1000 * ceilMicroseconds limit.interval := by
    exact_mod_cast (le_ceilMicroseconds limit.interval).1
  have hrequests : (0 : ℚ) ≤ limit.requestsPerInterval := by positivity
  calc (limit.requestsPerInterval : ℚ)
      = limit.interval * (limit.requestsPerInterval / limit.interval) := by field_simp
    _ ≤ 1000 * ceilMicroseconds limit.interval * (limit.requestsPerInterval / limit.interval) :=
        mul_le_mul_of_nonneg_right hceil (div_nonneg hrequests hinterval.le)
    _ = ceilMicroseconds limit.interval * refillRatePerMicrosecond limit := by
        rw [refillRatePerMicrosecond, refillRatePerSecond_rat]
        field_simp
        ring

end Exact

def Throttler.initialState {T : Type} [TokenNumber T] (throttler : Throttler) (now : Int) :
    ThrottlerState T where
  tokens := throttler.rateLimit.elim (ofInt 0) fun limit => ofInt limit.requestsPerInterval
  lastRefillUnixMicroseconds := now
  slots := ∅
  consecutiveFailures := 0
  circuitState := .closed
  circuitOpenedAtUnixMicroseconds := none
  probeHolderId := none
  probeExpiresAtUnixMicroseconds := none

/-- Saturating subtraction of two 64-bit timestamps. -/
def saturatingSub (a b : Int) : Int := max (-i64Max - 1) (min i64Max (a - b))

def addDurationToTimestamp (timestamp : Int) (duration : Nat) : Except FleetError Int :=
  match durationToRoundedMicroseconds duration with
  | none => throw .throttlerTimestampOverflow
  | some microseconds =>
      if timestamp + microseconds ≤ i64Max then return timestamp + microseconds
      else throw .throttlerTimestampOverflow

theorem stateTtl_positiveDuration (throttler : Throttler) : throttler.stateTtl.positiveDuration =
    some (throttlerStateTtlDuration throttler.rateLimit
      throttler.concurrencyLimit throttler.circuitBreaker) := by
  have h := throttler.ttl_eq
  unfold throttlerStateTtl at h
  cases hexpires : Ttl.expiresAfter (throttlerStateTtlDuration throttler.rateLimit
      throttler.concurrencyLimit throttler.circuitBreaker) with
  | error e => rw [hexpires] at h; cases h
  | ok ttl =>
      rw [hexpires] at h
      rw [← Except.ok.inj h]
      exact Ttl.expiresAfter_eq_ok hexpires

theorem le_throttlerStateTtlDuration {ttl duration : Nat} (h : duration ≤ ttl) :
    duration ≤ max (if ttl = 0 then defaultFleetThrottlerStateTtl else ttl) minKvTtl := by
  refine le_trans ?_ (le_max_left _ _)
  split
  · omega
  · exact h

theorem minKvTtl_le_stateTtlDuration (rateLimit : Option ResolvedThrottlerRateLimit)
    (concurrencyLimit : Option ResolvedThrottlerConcurrencyLimit)
    (circuitBreaker : Option ResolvedThrottlerCircuitBreaker) :
    minKvTtl ≤ throttlerStateTtlDuration rateLimit concurrencyLimit circuitBreaker := le_max_right _ _

/-- A stored state outlives every duration that it was scaled from. A scaled
duration that was cut off at the longest time to live stores nothing. -/
theorem expiresAt_covers {V : Type} {now : Int} {value : V}
    {ttl : Ttl} {row : Row V} {duration total : Nat}
    (hd : ttl.positiveDuration = some total) (hmin : minKvTtl ≤ total)
    (hscaled : scaleDurationForThrottlerStateTtl duration ≤ total)
    (h : setValueAndTtl now value ttl = .ok row) :
    ∃ expiresAt, row.expiresAt = some expiresAt ∧ now + ceilMicroseconds duration ≤ expiresAt := by
  obtain ⟨hexpires, hrange⟩ := setValueAndTtl_expiresAt hd h
  refine ⟨_, hexpires, ?_⟩
  have hround := le_two_mul_float8OfInt8 (ceilMicroseconds total)
  rcases Nat.le_total (duration * fleetThrottlerStateTtlMultiplier) maxKvTtlDuration with hle | hle
  · rw [scaleDurationForThrottlerStateTtl, Nat.min_eq_left hle] at hscaled
    have htotal := le_ceilMicroseconds total
    have hduration := le_ceilMicroseconds duration
    simp only [fleetThrottlerStateTtlMultiplier, minKvTtl] at hscaled hmin
    omega
  · rw [scaleDurationForThrottlerStateTtl, Nat.min_eq_right hle] at hscaled
    have hfits : (ceilMicroseconds total : Int) ≤ i64Max := ttl.fits total hd
    have hlongest : ceilMicroseconds total = 9223372036854775807 := by
      have htotal := le_ceilMicroseconds total
      simp only [maxKvTtlDuration] at hscaled
      simp only [i64Max] at hfits
      omega
    rw [hlongest] at hrange
    exact absurd hrange (by decide)

variable {T : Type}

theorem expiresAt_covers_interval {throttler : Throttler} {limit : ResolvedThrottlerRateLimit}
    (hlimit : throttler.rateLimit = some limit) {now : Int} {value : ThrottlerState T}
    {row : Row (ThrottlerState T)} (h : setValueAndTtl now value throttler.stateTtl = .ok row) :
    ∃ expiresAt, row.expiresAt = some expiresAt ∧
      now + ceilMicroseconds limit.interval ≤ expiresAt := by
  apply expiresAt_covers (stateTtl_positiveDuration throttler) (minKvTtl_le_stateTtlDuration _ _ _) _ h
  rw [hlimit]
  apply le_throttlerStateTtlDuration
  exact (le_max_left _ _).trans (le_max_left _ _)

theorem expiresAt_covers_hold {throttler : Throttler} {limit : ResolvedThrottlerConcurrencyLimit}
    (hlimit : throttler.concurrencyLimit = some limit) {now : Int} {value : ThrottlerState T}
    {row : Row (ThrottlerState T)} (h : setValueAndTtl now value throttler.stateTtl = .ok row) :
    ∃ expiresAt, row.expiresAt = some expiresAt ∧
      now + ceilMicroseconds limit.maxHoldDuration ≤ expiresAt := by
  apply expiresAt_covers (stateTtl_positiveDuration throttler) (minKvTtl_le_stateTtlDuration _ _ _) _ h
  rw [hlimit]
  apply le_throttlerStateTtlDuration
  exact (le_max_right _ _).trans (le_max_left _ _)

theorem expiresAt_covers_recovery {throttler : Throttler} {breaker : ResolvedThrottlerCircuitBreaker}
    (hbreaker : throttler.circuitBreaker = some breaker) {now : Int} {value : ThrottlerState T}
    {row : Row (ThrottlerState T)} (h : setValueAndTtl now value throttler.stateTtl = .ok row) :
    ∃ expiresAt, row.expiresAt = some expiresAt ∧
      now + ceilMicroseconds breaker.recoveryTimeout ≤ expiresAt := by
  apply expiresAt_covers (stateTtl_positiveDuration throttler) (minKvTtl_le_stateTtlDuration _ _ _) _ h
  rw [hbreaker]
  apply le_throttlerStateTtlDuration
  exact (le_max_left _ _).trans (le_max_right _ _)

theorem expiresAt_covers_probeWindow {throttler : Throttler} {breaker : ResolvedThrottlerCircuitBreaker}
    (hbreaker : throttler.circuitBreaker = some breaker) {now : Int} {value : ThrottlerState T}
    {row : Row (ThrottlerState T)} (h : setValueAndTtl now value throttler.stateTtl = .ok row) :
    ∃ expiresAt, row.expiresAt = some expiresAt ∧
      now + ceilMicroseconds defaultFleetThrottlerProbeWindow ≤ expiresAt := by
  apply expiresAt_covers (stateTtl_positiveDuration throttler) (minKvTtl_le_stateTtlDuration _ _ _) _ h
  rw [hbreaker]
  apply le_throttlerStateTtlDuration
  exact (le_max_right _ _).trans (le_max_right _ _)

end Paranoid.ThrottlerModel
