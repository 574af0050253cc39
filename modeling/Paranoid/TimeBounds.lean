import Paranoid.BulkRetry
import Paranoid.LeaseModel
import Paranoid.ThrottlerModel

namespace Paranoid.TimeBounds

open Postgres KvAtomic LeaseModel ThrottlerModel
open BulkRetry (JobRunAtOrAfter maxQueueRunAtOrAfterUnixMicroseconds)

inductive AdmissionError
  | cleanupAgeIsZero
  | cleanupAgeTooLarge
  | staleThresholdIsZero
  | staleThresholdTooLarge
  | invalidWorkerConfig (reason : String)
  | runAtOrAfterUnixMicrosecondsIsNegative (actual : Int)
  | runAtOrAfterUnixMicrosecondsTooLarge (actual max : Int)
  deriving DecidableEq

/-- A duration in whole microseconds, rounded down but not to zero. -/
def positiveMicroseconds (isZero tooLarge : AdmissionError) (duration : Nat) :
    Except AdmissionError Int :=
  if duration = 0 then .error isZero
  else if ((max (duration / 1000) 1 : Nat) : Int) ≤ i64Max then .ok (max (duration / 1000) 1 : Nat)
  else .error tooLarge

def durationToRoundedMicroseconds : Nat → Except AdmissionError Int :=
  positiveMicroseconds .cleanupAgeIsZero .cleanupAgeTooLarge

def staleThresholdToMicroseconds : Nat → Except AdmissionError Int :=
  positiveMicroseconds .staleThresholdIsZero .staleThresholdTooLarge

def validatePositiveWorkerDuration (duration : Nat) (reason : String) : Except AdmissionError Nat :=
  if duration = 0 then .error (.invalidWorkerConfig reason) else .ok duration

/-- The milliseconds that are written out with the unit `ms`. -/
def postgresStatementTimeoutValue (timeout : Nat) : Nat := min (max (timeout / 1000000) 1) i64Max.toNat

/-- `set_config('statement_timeout', …)`: a setting in milliseconds is an int4. -/
def setLocalStatementTimeout (milliseconds : Nat) : Except SqlError Int := int4 milliseconds

def fromUnixMicroseconds (unixMicroseconds : Int) : Except AdmissionError JobRunAtOrAfter :=
  if nonnegative : 0 ≤ unixMicroseconds then
    if le_max : unixMicroseconds ≤ maxQueueRunAtOrAfterUnixMicroseconds then .ok ⟨unixMicroseconds, nonnegative, le_max⟩
    else .error (.runAtOrAfterUnixMicrosecondsTooLarge
      unixMicroseconds maxQueueRunAtOrAfterUnixMicroseconds)
  else .error (.runAtOrAfterUnixMicrosecondsIsNegative unixMicroseconds)

/-- A duration or time that its validation accepts. Durations are in nanoseconds. -/
inductive Setting
  | kvTtl (duration : Nat) (ttl : Ttl) (admitted : Ttl.expiresAfter duration = .ok ttl)
  | leaseDuration (duration : Nat) (claim : ClaimDuration) (admitted : ClaimDuration.expiresAfter duration = .ok claim)
  | throttlerDurations (config : ThrottlerConfig) (throttler : Throttler) (admitted : newThrottler config = .ok throttler)
  | cleanupAge (age : Nat) (microseconds : Int) (admitted : durationToRoundedMicroseconds age = .ok microseconds)
  | staleThreshold (threshold : Nat)
      (admitted : validatePositiveWorkerDuration threshold "stale threshold must be positive" =
        .ok threshold)
  | databaseOperationTimeout (timeout : Nat)
      (admitted : validatePositiveWorkerDuration timeout
        "database operation timeout must be positive" = .ok timeout)
  | runAtOrAfter (unixMicroseconds : Int) (runAt : JobRunAtOrAfter)
      (admitted : fromUnixMicroseconds unixMicroseconds = .ok runAt)

/-- Every statement made of the setting at `now` is accepted and stores, or compares
with, exactly what was asked for. -/
def Faithful (now : Int) : Setting → Prop
  | .kvTtl duration ttl _ =>
      setValueAndTtl now () ttl = .ok ⟨(), some (now + ceilMicroseconds duration)⟩
  | .leaseDuration duration claim _ => ∃ microseconds, claim.positiveMicroseconds = .ok microseconds ∧
      timestampPlusMicroseconds now microseconds = .ok (now + ceilMicroseconds duration)
  | .throttlerDurations _ throttler _ =>
      setValueAndTtl now () throttler.stateTtl = .ok ⟨(), some (now + ceilMicroseconds
        (throttlerStateTtlDuration throttler.rateLimit
          throttler.concurrencyLimit throttler.circuitBreaker))⟩ ∧
      (∀ limit ∈ throttler.concurrencyLimit,
        addDurationToTimestamp now limit.maxHoldDuration =
          .ok (now + ceilMicroseconds limit.maxHoldDuration)) ∧
      addDurationToTimestamp now defaultFleetThrottlerProbeWindow =
        .ok (now + ceilMicroseconds defaultFleetThrottlerProbeWindow)
  | .cleanupAge age microseconds _ =>
      timestampMinusMicroseconds now microseconds = .ok (now - (max (age / 1000) 1 : Nat))
  | .staleThreshold threshold _ =>
      ∃ microseconds, staleThresholdToMicroseconds threshold = .ok microseconds ∧
      timestampMinusMicroseconds now microseconds = .ok (now - (max (threshold / 1000) 1 : Nat))
  | .databaseOperationTimeout timeout _ => ∀ elapsed < timeout,
      setLocalStatementTimeout (postgresStatementTimeoutValue (timeout - elapsed)) =
        .ok (max ((timeout - elapsed) / 1000000) 1 : Nat)
  | .runAtOrAfter unixMicroseconds runAt _ =>
      timestampPlusMicroseconds 0 runAt.unixMicroseconds = .ok unixMicroseconds ∧
      Postgres.unixMicroseconds unixMicroseconds = .ok unixMicroseconds

/-- The number has at most 53 significant bits. -/
def SignificantBits (n : Nat) : Prop := 2 ^ (n.log2 - 52) ∣ n

/-- Microseconds that are exact as a double and end within the range of timestamps. -/
def Reaches (now : Int) (microseconds : Nat) : Prop :=
  SignificantBits microseconds ∧ now + microseconds < endTimestamp

def Recalls (now : Int) (microseconds : Nat) : Prop :=
  SignificantBits microseconds ∧ minTimestamp ≤ now - microseconds

def longest (throttler : Throttler) : Nat :=
  max (max (throttler.rateLimit.elim 0 (·.interval))
    (throttler.concurrencyLimit.elim 0 (·.maxHoldDuration)))
    (throttler.circuitBreaker.elim 0 fun breaker =>
      max breaker.recoveryTimeout defaultFleetThrottlerProbeWindow)

def Fits (now : Int) : Setting → Prop
  | .kvTtl duration _ _ => Reaches now (ceilMicroseconds duration)
  | .leaseDuration duration _ _ => Reaches now (ceilMicroseconds duration)
  | .throttlerDurations _ throttler _ =>
      Reaches now (ceilMicroseconds
        (max (longest throttler * fleetThrottlerStateTtlMultiplier) minKvTtl))
  | .cleanupAge age _ _ => Recalls now (max (age / 1000) 1)
  | .staleThreshold threshold _ => Recalls now (max (threshold / 1000) 1)
  | .databaseOperationTimeout timeout _ => timeout / 1000000 ≤ 2147483647
  | .runAtOrAfter unixMicroseconds _ _ => SignificantBits unixMicroseconds.toNat

/-- The years 2000 to 2200. -/
def startOfYear2000 : Int := 946684800000000

def endOfYear2200 : Int := 7289654400000000

theorem roundToFloat8_eq_iff {n : Nat} : roundToFloat8 n = n ↔ SignificantBits n := by
  unfold SignificantBits
  constructor
  · intro h
    have hround : ∃ k, roundToFloat8 n = k * 2 ^ (n.log2 - 52) := by
      dsimp only [roundToFloat8]
      split
      · exact ⟨_, rfl⟩
      · exact ⟨_, rfl⟩
    obtain ⟨k, hk⟩ := hround
    exact ⟨k, h.symm.trans (hk.trans (Nat.mul_comm _ _))⟩
  · intro h
    have hzero : n % 2 ^ (n.log2 - 52) = 0 := Nat.mod_eq_zero_of_dvd h
    have hpos : 0 < 2 ^ (n.log2 - 52) := Nat.pow_pos Nat.two_pos
    dsimp only [roundToFloat8]
    rw [hzero, if_neg (by omega), Nat.div_mul_cancel h]

variable {now : Int}

theorem timestampPlus_iff {n : Nat} (hnow : startOfYear2000 ≤ now) :
    timestampPlusMicroseconds now n = .ok (now + n) ↔ Reaches now n := by
  rw [Reaches, ← roundToFloat8_eq_iff]
  constructor
  · intro h
    have hround := (timestampPlusMicroseconds_eq_ok h).1
    have hrange := timestampPlusMicroseconds_lt_endTimestamp h
    rw [float8OfInt8_natCast] at hround
    exact ⟨by omega, hrange⟩
  · rintro ⟨hround, hrange⟩
    have hexact : float8OfInt8 n = n := by rw [float8OfInt8_natCast, hround]
    rw [timestampPlusMicroseconds, bigintTimesMicrosecond]
    simp only [startOfYear2000, endTimestamp, postgresEpoch] at hnow hrange
    rw [hexact, if_pos (by omega), ok_bind, timestamptz, if_pos]
    simp only [minTimestamp, endTimestamp, postgresEpoch]
    omega

theorem timestampMinus_iff {n : Nat} (hnow : startOfYear2000 ≤ now) (hend : now < endOfYear2200) :
    timestampMinusMicroseconds now n = .ok (now - n) ↔ Recalls now n := by
  rw [Recalls, ← roundToFloat8_eq_iff]
  constructor
  · intro h
    obtain ⟨interval, hinterval, ht⟩ := bind_eq_ok.1 h
    dsimp only [bigintTimesMicrosecond] at hinterval
    split at hinterval
    · obtain rfl := Except.ok.inj hinterval
      have hsame := timestamptz_eq_ok ht
      rw [float8OfInt8_natCast] at hsame ht
      rw [timestamptz] at ht
      split at ht
      · rename_i hrange
        rw [← hsame] at hrange
        exact ⟨by omega, hrange.1⟩
      · cases ht
    · cases hinterval
  · rintro ⟨hround, hrange⟩
    have hexact : float8OfInt8 n = n := by rw [float8OfInt8_natCast, hround]
    rw [timestampMinusMicroseconds, bigintTimesMicrosecond]
    simp only [startOfYear2000, endOfYear2200, minTimestamp, postgresEpoch] at hnow hend hrange
    rw [hexact, if_pos (by omega), ok_bind, timestamptz, if_pos]
    simp only [minTimestamp, endTimestamp, postgresEpoch]
    omega

theorem setValueAndTtl_iff {duration n : Nat} {ttl : Ttl} (h : ttl.positiveDuration = some duration) :
    setValueAndTtl now () ttl = .ok ⟨(), some (now + n)⟩ ↔
      timestampPlusMicroseconds now (ceilMicroseconds duration) = .ok (now + n) := by
  rw [setValueAndTtl, Ttl.positiveMicroseconds, h, Option.map_some]
  dsimp only
  cases timestampPlusMicroseconds now (ceilMicroseconds duration) with
  | error e => exact iff_of_false (by rintro ⟨⟩) (by rintro ⟨⟩)
  | ok expiresAt =>
      constructor
      · intro h
        injection h with h
        injection h with _ h
        exact congrArg Except.ok (Option.some.inj h)
      · intro h
        rw [Except.ok.inj h]

theorem positiveMicroseconds_eq_ok {isZero tooLarge : AdmissionError}
    {duration : Nat} {microseconds : Int}
    (h : positiveMicroseconds isZero tooLarge duration = .ok microseconds) :
    microseconds = (max (duration / 1000) 1 : Nat) := by
  rw [positiveMicroseconds] at h
  split at h
  · cases h
  · split at h
    · exact (Except.ok.inj h).symm
    · cases h

theorem positive_of_validate {duration : Nat} {reason : String}
    (h : validatePositiveWorkerDuration duration reason = .ok duration) : 0 < duration := by
  rw [validatePositiveWorkerDuration] at h
  split at h
  · cases h
  · omega

theorem staleThreshold_iff {threshold : Nat} (hpositive : 0 < threshold) (hnow : startOfYear2000 ≤ now)
    (hend : now < endOfYear2200) :
    (∃ microseconds, staleThresholdToMicroseconds threshold = .ok microseconds ∧
      timestampMinusMicroseconds now microseconds = .ok (now - (max (threshold / 1000) 1 : Nat))) ↔
        Recalls now (max (threshold / 1000) 1) := by
  rw [← timestampMinus_iff hnow hend]
  constructor
  · rintro ⟨microseconds, hn, h⟩
    rwa [positiveMicroseconds_eq_ok hn] at h
  · intro h
    refine ⟨_, ?_, h⟩
    have hrange := ((timestampMinus_iff hnow hend).1 h).2
    rw [staleThresholdToMicroseconds, positiveMicroseconds, if_neg (by omega), if_pos]
    simp only [endOfYear2200, minTimestamp, postgresEpoch, i64Max] at hend hrange ⊢
    omega

theorem setLocalStatementTimeout_iff {milliseconds n : Nat} :
    setLocalStatementTimeout milliseconds = .ok (n : Int) ↔
    milliseconds = n ∧ milliseconds ≤ 2147483647 := by
  rw [setLocalStatementTimeout, int4]
  split
  · rw [Except.ok.injEq]
    omega
  · constructor
    · rintro ⟨⟩
    · omega

theorem databaseOperationTimeout_iff {timeout : Nat} (hpositive : 0 < timeout) :
    (∀ elapsed < timeout, setLocalStatementTimeout (postgresStatementTimeoutValue (timeout - elapsed)) =
      .ok (max ((timeout - elapsed) / 1000000) 1 : Nat)) ↔ timeout / 1000000 ≤ 2147483647 := by
  have hvalue (remaining : Nat) : postgresStatementTimeoutValue remaining =
      min (max (remaining / 1000000) 1) 9223372036854775807 := rfl
  constructor
  · intro h
    have hwhole := (setLocalStatementTimeout_iff.1 (h 0 hpositive)).2
    rw [hvalue] at hwhole
    omega
  · intro h elapsed _
    rw [setLocalStatementTimeout_iff, hvalue]
    omega

theorem runAtOrAfter_iff {n : Int} (hnonneg : 0 ≤ n) (hmax : n ≤ maxQueueRunAtOrAfterUnixMicroseconds) :
    (timestampPlusMicroseconds 0 n = .ok n ∧ Postgres.unixMicroseconds n = .ok n) ↔
      SignificantBits n.toNat := by
  obtain ⟨n, rfl⟩ := Int.eq_ofNat_of_zero_le hnonneg
  rw [← roundToFloat8_eq_iff, Int.toNat_natCast]
  simp only [maxQueueRunAtOrAfterUnixMicroseconds] at hmax
  constructor
  · rintro ⟨h, -⟩
    have hround := (timestampPlusMicroseconds_eq_ok h).1
    rw [float8OfInt8_natCast] at hround
    omega
  · intro hround
    have hexact : float8OfInt8 n = n := by rw [float8OfInt8_natCast, hround]
    constructor
    · rw [timestampPlusMicroseconds, bigintTimesMicrosecond]
      rw [hexact, if_pos (by omega), ok_bind, zero_add, timestamptz, if_pos]
      simp only [minTimestamp, endTimestamp, postgresEpoch]
      omega
    · rw [Postgres.unixMicroseconds, int8, if_pos (by omega)]

section Throttlers

variable {throttler : Throttler} {config : ThrottlerConfig}

theorem newThrottler_controls (h : newThrottler config = .ok throttler) :
    ¬(throttler.rateLimit.isNone ∧ throttler.concurrencyLimit.isNone ∧
      throttler.circuitBreaker.isNone) := by
  rw [newThrottler] at h
  obtain ⟨rateLimit, -, h⟩ := bind_eq_ok.1 h
  obtain ⟨concurrencyLimit, -, h⟩ := bind_eq_ok.1 h
  obtain ⟨circuitBreaker, -, h⟩ := bind_eq_ok.1 h
  dsimp only at h
  split at h
  · cases h
  · rename_i hcontrols
    split at h
    · cases h
    · rw [← Except.ok.inj h]
      exact hcontrols

theorem longest_pos (h : newThrottler config = .ok throttler) : 0 < longest throttler := by
  have hcontrols := newThrottler_controls h
  rw [longest]
  cases hrate : throttler.rateLimit with
  | some limit => exact lt_max_of_lt_left (lt_max_of_lt_left limit.admitted.1)
  | none =>
      cases hhold : throttler.concurrencyLimit with
      | some limit => exact lt_max_of_lt_left (lt_max_of_lt_right limit.admitted.1)
      | none =>
          cases hbreaker : throttler.circuitBreaker with
          | some breaker => exact lt_max_of_lt_right (lt_max_of_lt_left breaker.admitted.1)
          | none =>
              exact absurd ⟨by rw [hrate]; rfl, by rw [hhold]; rfl, by rw [hbreaker]; rfl⟩ hcontrols

theorem scaleDuration_max (a b : Nat) : scaleDurationForThrottlerStateTtl (max a b) =
    max (scaleDurationForThrottlerStateTtl a) (scaleDurationForThrottlerStateTtl b) := by
  unfold scaleDurationForThrottlerStateTtl
  rw [← Nat.mul_max_mul_right, min_max_distrib_right]

theorem scaleDuration_elim {α : Type} (x : Option α) (duration : α → Nat) :
    (x.elim 0 fun limit => scaleDurationForThrottlerStateTtl (duration limit)) =
      scaleDurationForThrottlerStateTtl (x.elim 0 duration) := by
  cases x with
  | none => rfl
  | some limit => rfl

/-- The state outlives the longest of its durations tenfold, as far as that can be stored. -/
theorem stateTtlDuration_eq (hpos : 0 < longest throttler) :
    throttlerStateTtlDuration throttler.rateLimit throttler.concurrencyLimit throttler.circuitBreaker =
      max (min (longest throttler * fleetThrottlerStateTtlMultiplier) maxKvTtlDuration) minKvTtl := by
  have hscaled : max
    (max (throttler.rateLimit.elim 0 fun limit => scaleDurationForThrottlerStateTtl limit.interval)
        (throttler.concurrencyLimit.elim 0 fun limit =>
          scaleDurationForThrottlerStateTtl limit.maxHoldDuration))
      (throttler.circuitBreaker.elim 0 fun breaker =>
        max (scaleDurationForThrottlerStateTtl breaker.recoveryTimeout)
        (scaleDurationForThrottlerStateTtl defaultFleetThrottlerProbeWindow)) =
        scaleDurationForThrottlerStateTtl (longest throttler) := by
    rw [longest, scaleDuration_max, scaleDuration_max, scaleDuration_elim, scaleDuration_elim]
    congr 1
    rw [← scaleDuration_elim]
    congr 1
    funext breaker
    exact (scaleDuration_max _ _).symm
  unfold throttlerStateTtlDuration
  dsimp only
  rw [hscaled, if_neg]
  · rfl
  · simp only [scaleDurationForThrottlerStateTtl, fleetThrottlerStateTtlMultiplier, maxKvTtlDuration]
    omega

theorem ceilMicroseconds_maxKvTtlDuration :
    ceilMicroseconds maxKvTtlDuration = 9223372036854775807 := by rfl

theorem not_reaches_longest (now : Int) : ¬Reaches now (ceilMicroseconds maxKvTtlDuration) := by
  rintro ⟨hbits, -⟩
  rw [ceilMicroseconds_maxKvTtlDuration, SignificantBits] at hbits
  exact absurd hbits (by decide +kernel)

theorem reaches_stateTtl_iff (hpos : 0 < longest throttler) (hnow : startOfYear2000 ≤ now) :
    Reaches now (ceilMicroseconds
        (throttlerStateTtlDuration throttler.rateLimit
          throttler.concurrencyLimit throttler.circuitBreaker)) ↔
      Reaches now (ceilMicroseconds
        (max (longest throttler * fleetThrottlerStateTtlMultiplier) minKvTtl)) := by
  rw [stateTtlDuration_eq hpos]
  rcases Nat.le_total (longest throttler * fleetThrottlerStateTtlMultiplier)
    maxKvTtlDuration with hle | hle
  · rw [min_eq_left hle]
  · rw [min_eq_right hle, max_eq_left (by decide)]
    refine iff_of_false (not_reaches_longest now) ?_
    rintro ⟨-, hrange⟩
    have hceil := (le_ceilMicroseconds
      (max (longest throttler * fleetThrottlerStateTtlMultiplier) minKvTtl)).1
    simp only [startOfYear2000, endTimestamp, postgresEpoch, maxKvTtlDuration] at hnow hrange hle
    omega

theorem addDurationToTimestamp_ok {duration : Nat}
    (hfits : now + ceilMicroseconds duration ≤ i64Max) (hnow : 0 ≤ now) :
    addDurationToTimestamp now duration = .ok (now + ceilMicroseconds duration) := by
  have hrounded : ThrottlerModel.durationToRoundedMicroseconds duration =
    some (ceilMicroseconds duration : Int) := by
    rw [ThrottlerModel.durationToRoundedMicroseconds, if_pos (by omega)]
  rw [addDurationToTimestamp, hrounded]
  exact if_pos hfits

theorem throttlerDurations_iff (h : newThrottler config = .ok throttler) (hnow : startOfYear2000 ≤ now)
    (hend : now < endOfYear2200) : Faithful now (.throttlerDurations config throttler h) ↔
      Reaches now (ceilMicroseconds
        (max (longest throttler * fleetThrottlerStateTtlMultiplier) minKvTtl)) := by
  have hpos := longest_pos h
  rw [Faithful, setValueAndTtl_iff (stateTtl_positiveDuration throttler), timestampPlus_iff hnow,
    reaches_stateTtl_iff hpos hnow]
  refine and_iff_left_of_imp fun hreaches => ⟨fun limit hlimit => ?_, ?_⟩
  · refine addDurationToTimestamp_ok ?_ (le_trans (by decide) hnow)
    have hlongest : limit.maxHoldDuration ≤ longest throttler := by
      rw [longest, hlimit]
      exact (le_max_right _ _).trans (le_max_left _ _)
    have hhold := (le_ceilMicroseconds limit.maxHoldDuration).2
    have hceil := (le_ceilMicroseconds
      (max (longest throttler * fleetThrottlerStateTtlMultiplier) minKvTtl)).1
    have hrange := hreaches.2
    simp only [fleetThrottlerStateTtlMultiplier] at hceil hrange
    simp only [startOfYear2000, endOfYear2200, endTimestamp,
      postgresEpoch, i64Max] at hnow hend hrange ⊢
    omega
  · refine addDurationToTimestamp_ok ?_ (le_trans (by decide) hnow)
    have hprobe : ceilMicroseconds defaultFleetThrottlerProbeWindow = 5000000 := by rfl
    simp only [endOfYear2200, i64Max] at hend ⊢
    omega

end Throttlers

theorem fromUnixMicroseconds_eq_ok {unixMicroseconds : Int} {runAt : JobRunAtOrAfter}
    (h : fromUnixMicroseconds unixMicroseconds = .ok runAt) :
    runAt.unixMicroseconds = unixMicroseconds := by
  rw [fromUnixMicroseconds] at h
  split at h
  · split at h
    · rw [← Except.ok.inj h]
    · cases h
  · cases h

/-- An admitted setting is executable and stored exactly as long as its microseconds are exact
as a double, end within the range of timestamps, or do not exceed an int4 of milliseconds. -/
theorem faithful_iff (now : Int) (hnow : startOfYear2000 ≤ now)
    (hend : now < endOfYear2200) (setting : Setting) :
    Faithful now setting ↔ Fits now setting := by
  cases setting with
  | kvTtl duration ttl admitted =>
      rw [Faithful, setValueAndTtl_iff (Ttl.expiresAfter_eq_ok admitted), timestampPlus_iff hnow, Fits]
  | leaseDuration duration claim admitted =>
      have hduration : claim.positiveDuration = duration := by
        rw [ClaimDuration.expiresAfter] at admitted
        split at admitted
        · cases admitted
        · split at admitted
          · split at admitted
            · rw [← Except.ok.inj admitted]
            · cases admitted
          · cases admitted
      rw [Faithful, Fits, ← timestampPlus_iff hnow, ClaimDuration.positiveMicroseconds_eq, hduration]
      constructor
      · rintro ⟨microseconds, hn, h⟩
        rwa [← Except.ok.inj hn] at h
      · exact fun h => ⟨_, rfl, h⟩
  | throttlerDurations config throttler admitted => exact throttlerDurations_iff admitted hnow hend
  | cleanupAge age microseconds admitted =>
      obtain rfl := positiveMicroseconds_eq_ok admitted
      exact timestampMinus_iff hnow hend
  | staleThreshold threshold admitted =>
      exact staleThreshold_iff (positive_of_validate admitted) hnow hend
  | databaseOperationTimeout timeout admitted =>
      exact databaseOperationTimeout_iff (positive_of_validate admitted)
  | runAtOrAfter unixMicroseconds runAt admitted =>
      have hsame := fromUnixMicroseconds_eq_ok admitted
      rw [Faithful, Fits, hsame]
      exact runAtOrAfter_iff (hsame ▸ runAt.nonnegative) (hsame ▸ runAt.le_max)

/-- A day in the year 2026, at which the range is not what fails. -/
def duringYear2026 : Int := 1780000000000000

theorem faithful_iff_2026 : Faithful duringYear2026 (.databaseOperationTimeout 5000000000 rfl) ↔
    Fits duringYear2026 (.databaseOperationTimeout 5000000000 rfl) :=
  faithful_iff duringYear2026 (by decide) (by decide) (.databaseOperationTimeout 5000000000 rfl)

theorem first_inexact_schedule :
    ¬∀ now, startOfYear2000 ≤ now → now < endOfYear2200 → ∀ setting, Faithful now setting := by
  intro h
  have hstored := (h duringYear2026
    (by decide) (by decide) (.runAtOrAfter 9007199254740993 ⟨9007199254740993, by decide,
    by decide⟩ rfl)).1
  exact absurd hstored (by decide +kernel)

end Paranoid.TimeBounds
