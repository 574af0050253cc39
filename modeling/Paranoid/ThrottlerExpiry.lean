import Paranoid.ThrottlerObservations
import Paranoid.ThrottlerTokens

namespace Paranoid.ThrottlerExpiry

open Postgres KvAtomic LeaseModel ThrottlerModel ThrottlerAcquire ThrottlerRelease ThrottlerObservations
open Transitions
open ThrottlerCircuit (circuit)

variable (throttler : Throttler)

/-- Every slot is held within the longest hold after `writtenAt`. -/
def Within (writtenAt : Int) (slots : Slots) : Prop :=
  ∀ k slot, slots.lookup k = some slot → ∃ limit ∈ throttler.concurrencyLimit,
    slot.expiresAtUnixMicroseconds ≤ writtenAt + ceilMicroseconds limit.maxHoldDuration

/-- The states that a throttler without a circuit breaker stores at `writtenAt` or before. -/
inductive Stored : Int → ThrottlerState ℚ → Prop
  | initial {now writtenAt : Int} (hnow : now ≤ writtenAt) : Stored writtenAt (throttler.initialState now)
  | acquired {before writtenAt now : Int} {current : ThrottlerState ℚ} {holderId : Option HolderId}
      {outcome : ThrottlerMutationOutcome ℚ} (h : Stored before current)
        (hbefore : before ≤ writtenAt) (hnow : now ≤ writtenAt)
      (hevaluate : evaluateTryAcquireManualPermit throttler current now holderId = .ok outcome) :
      Stored writtenAt outcome.state
  | released {before writtenAt now : Int} {current : ThrottlerState ℚ} {permit : ThrottlerPermit} {task : ThrottlerTaskOutcome}
      (h : Stored before current) (hbefore : before ≤ writtenAt) (hnow : now ≤ writtenAt) :
      Stored writtenAt (applyReleaseAndOutcome throttler current now permit task).2

structure Fits (writtenAt : Int) (state : ThrottlerState ℚ) : Prop where
  circuit : circuit state = circuit (throttler.initialState 0 : ThrottlerState ℚ)
  slots : Within throttler writtenAt state.slots
  tokens : ∀ limit ∈ throttler.rateLimit, 0 ≤ state.tokens
  mark : state.lastRefillUnixMicroseconds ≤ writtenAt

variable {throttler} {limit : ResolvedThrottlerRateLimit}
  {writtenAt start now later : Int} {slots : Slots}
  {state current : ThrottlerState ℚ} {holderId : Option HolderId} {outcome : ThrottlerMutationOutcome ℚ}

theorem Within.mono (h : Within throttler writtenAt slots) (hle : writtenAt ≤ later) :
    Within throttler later slots := by
  intro k slot hslot
  obtain ⟨limit, hlimit, hexpires⟩ := h k slot hslot
  exact ⟨limit, hlimit, by omega⟩

theorem Within.retain (h : Within throttler writtenAt slots) (now : Int) :
    Within throttler writtenAt (retainLiveSlots now slots) :=
  fun k slot hslot => by
    rw [lookup_retainLiveSlots, liveSlots, Option.filter_eq_some_iff] at hslot
    exact h k slot hslot.1

theorem Within.erase (h : Within throttler writtenAt slots) (k : Nat) :
    Within throttler writtenAt (slots.erase k) := by
  intro j slot hslot
  by_cases hj : j = k
  · rw [hj, AList.lookup_erase] at hslot
    cases hslot
  · rw [AList.lookup_erase_ne hj] at hslot
    exact h j slot hslot

theorem Within.insert (h : Within throttler writtenAt slots) {limit : ResolvedThrottlerConcurrencyLimit}
    (hlimit : throttler.concurrencyLimit = some limit) (k : Nat) {slot : ThrottlerSlot}
    (hexpires : slot.expiresAtUnixMicroseconds ≤ writtenAt + ceilMicroseconds limit.maxHoldDuration) :
    Within throttler writtenAt (slots.insert k slot) := by
  intro j other hother
  by_cases hj : j = k
  · rw [hj, AList.lookup_insert] at hother
    rw [← Option.some.inj hother]
    exact ⟨limit, hlimit, hexpires⟩
  · rw [AList.lookup_insert_ne hj] at hother
    exact h j other hother

theorem Fits.mono (h : Fits throttler writtenAt state) (hle : writtenAt ≤ later) :
    Fits throttler later state :=
  ⟨h.circuit, h.slots.mono hle, h.tokens, h.mark.trans hle⟩

theorem fits_initial (hnow : now ≤ writtenAt) :
    Fits throttler writtenAt (throttler.initialState now) where
  circuit := rfl
  slots k slot hslot := by cases hslot
  tokens limit hlimit := by
    rw [Throttler.initialState, hlimit]
    exact Nat.cast_nonneg _
  mark := hnow

theorem within_acquireConcurrencySlot {concurrency : ThrottlerConcurrencyAcquireOutcome}
    {reserved : ThrottlerState ℚ}
    (hwithin : Within throttler writtenAt current.slots) (hnow : now ≤ writtenAt)
    (h : acquireConcurrencySlotIfConfigured throttler current now holderId =
      .ok (concurrency, reserved)) :
    Within throttler writtenAt reserved.slots := by
  unfold acquireConcurrencySlotIfConfigured at h
  split at h
  · obtain ⟨-, rfl⟩ := Prod.mk.inj (Except.ok.inj h)
    exact hwithin
  · rename_i limit hlimit
    split at h
    · cases h
    · dsimp only at h
      split at h
      · obtain ⟨-, rfl⟩ := Prod.mk.inj (Except.ok.inj h)
        exact hwithin.retain now
      · obtain ⟨expiresAt, hexpires, h⟩ := bind_eq_ok.1 h
        obtain ⟨-, rfl⟩ := Prod.mk.inj (Except.ok.inj h)
        refine (hwithin.retain now).insert hlimit _ ?_
        have hsum := ThrottlerSlots.addDurationToTimestamp_eq_ok hexpires
        change expiresAt ≤ _
        omega

theorem refill_nonneg (limit : ResolvedThrottlerRateLimit) (htokens : 0 ≤ state.tokens) (now : Int) :
    0 ≤ (refill limit state now).tokens := by
  have helapsed : 0 ≤ elapsedSeconds state now * limit.refillRatePerSecond ℚ := by
    exact mul_nonneg (elapsedSeconds_nonneg state now) (refillRatePerSecond_nonneg limit)
  rw [refill_tokens_rat]
  exact le_min (add_nonneg htokens helapsed) (Nat.cast_nonneg _)

theorem Fits.consume (h : Fits throttler writtenAt state)
    (hnow : now ≤ writtenAt) (suffix : Option Nat) :
    Fits throttler writtenAt (consumeRateLimitTokenIfConfigured throttler state now suffix).2 := by
  unfold consumeRateLimitTokenIfConfigured
  cases hlimit : throttler.rateLimit with
  | none => exact h
  | some limit =>
      have hrefilled := refill_nonneg limit (h.tokens limit hlimit) now
      dsimp only
      split
      · rename_i htoken
        exact ⟨h.circuit, h.slots, fun _ _ => sub_nonneg.2 htoken, hnow⟩
      · cases suffix with
        | none => exact ⟨h.circuit, h.slots, fun _ _ => hrefilled, hnow⟩
        | some k => exact ⟨h.circuit, h.slots.erase k, fun _ _ => hrefilled, hnow⟩

theorem Fits.acquired (hbreaker : throttler.circuitBreaker = none)
    (h : Fits throttler writtenAt current)
    (hnow : now ≤ writtenAt)
    (hevaluate : evaluateTryAcquireManualPermit throttler current now holderId = .ok outcome) :
    Fits throttler writtenAt outcome.state := by
  have hgate : shouldBlockForOpenCircuit throttler current now holderId = .allowNormally := by
    unfold shouldBlockForOpenCircuit
    rw [hbreaker]
  dsimp only [evaluateTryAcquireManualPermit] at hevaluate
  rw [hgate, if_neg nofun] at hevaluate
  obtain ⟨⟨concurrency, reserved⟩, hslot, hevaluate⟩ := bind_eq_ok.1 hevaluate
  have hwithin := within_acquireConcurrencySlot h.slots hnow hslot
  obtain ⟨slots, rfl⟩ := acquireConcurrencySlot_eq_ok hslot
  have hreserved : Fits throttler writtenAt { current with slots } :=
    ⟨h.circuit, hwithin, h.tokens, h.mark⟩
  dsimp only at hevaluate
  split at hevaluate
  · rw [← Except.ok.inj hevaluate]
    exact hreserved
  have hconsumed := hreserved.consume hnow concurrency.acquiredSlotSuffix
  split at hevaluate
  · rw [← Except.ok.inj hevaluate]
    exact hconsumed
  · rw [if_neg nofun] at hevaluate
    rw [← Except.ok.inj hevaluate]
    exact hconsumed

theorem Fits.released (hbreaker : throttler.circuitBreaker = none)
    (h : Fits throttler writtenAt current)
    (permit : ThrottlerPermit) (task : ThrottlerTaskOutcome) :
    Fits throttler writtenAt (applyReleaseAndOutcome throttler current now permit task).2 := by
  have hreleased : Fits throttler writtenAt
    (releaseOwnedConcurrencySlot throttler current permit).2 := by
    unfold releaseOwnedConcurrencySlot
    split
    · exact h
    · split
      · exact h
      · exact ⟨h.circuit, h.slots.erase _, h.tokens, h.mark⟩
  unfold applyReleaseAndOutcome
  dsimp only
  rw [if_pos (by rw [hbreaker]; rfl)]
  exact hreleased

theorem fits_of_stored (hbreaker : throttler.circuitBreaker = none)
    (h : Stored throttler writtenAt state) :
    Fits throttler writtenAt state := by
  induction h with
  | initial hnow => exact fits_initial hnow
  | acquired _ hbefore hnow hevaluate ih => exact (ih.mono hbefore).acquired hbreaker hnow hevaluate
  | released _ hbefore _ ih => exact (ih.mono hbefore).released hbreaker _ _

def stateTtlMicroseconds (throttler : Throttler) : Int :=
  ceilMicroseconds (throttlerStateTtlDuration throttler.rateLimit
    throttler.concurrencyLimit throttler.circuitBreaker)

/-- The time to live has passed, or the expiry has that was stored for it. -/
def Expired (throttler : Throttler) (writtenAt start : Int) (state : ThrottlerState ℚ) : Prop :=
  writtenAt + stateTtlMicroseconds throttler ≤ start ∨
    ∃ row, setValueAndTtl writtenAt state throttler.stateTtl = .ok row ∧ row.isLive start = false

theorem le_scaleDuration {duration : Nat} (h : AdmittedDuration duration) :
    duration ≤ scaleDurationForThrottlerStateTtl duration := by
  have hfits := h.2
  have hceil := (le_ceilMicroseconds duration).1
  unfold scaleDurationForThrottlerStateTtl fleetThrottlerStateTtlMultiplier maxKvTtlDuration
  simp only [i64Max] at hfits
  omega

theorem ceilMicroseconds_mono {a b : Nat} (h : a ≤ b) : ceilMicroseconds a ≤ ceilMicroseconds b := by
  have ha := le_ceilMicroseconds a
  have hb := le_ceilMicroseconds b
  omega

theorem covers_interval (hexpired : Expired throttler writtenAt start state)
    (hlimit : throttler.rateLimit = some limit) :
    writtenAt + ceilMicroseconds limit.interval ≤ start := by
  rcases hexpired with hpassed | ⟨row, hset, hdead⟩
  · have hscaled : limit.interval ≤
        throttlerStateTtlDuration throttler.rateLimit
          throttler.concurrencyLimit throttler.circuitBreaker := by
      refine (le_scaleDuration limit.admitted).trans ?_
      rw [hlimit]
      exact le_throttlerStateTtlDuration ((le_max_left _ _).trans (le_max_left _ _))
    have hceil := ceilMicroseconds_mono hscaled
    unfold stateTtlMicroseconds at hpassed
    omega
  · obtain ⟨expiresAt, hexpires, hlasts⟩ := expiresAt_covers_interval hlimit hset
    have hover : expiresAt ≤ start := by simpa [Row.isLive, hexpires] using hdead
    omega

theorem covers_hold {limit : ResolvedThrottlerConcurrencyLimit}
    (hexpired : Expired throttler writtenAt start state)
    (hlimit : throttler.concurrencyLimit = some limit) :
    writtenAt + ceilMicroseconds limit.maxHoldDuration ≤ start := by
  rcases hexpired with hpassed | ⟨row, hset, hdead⟩
  · have hscaled : limit.maxHoldDuration ≤
        throttlerStateTtlDuration throttler.rateLimit
          throttler.concurrencyLimit throttler.circuitBreaker := by
      refine (le_scaleDuration limit.admitted).trans ?_
      rw [hlimit]
      exact le_throttlerStateTtlDuration ((le_max_right _ _).trans (le_max_left _ _))
    have hceil := ceilMicroseconds_mono hscaled
    unfold stateTtlMicroseconds at hpassed
    omega
  · obtain ⟨expiresAt, hexpires, hlasts⟩ := expiresAt_covers_hold hlimit hset
    have hover : expiresAt ≤ start := by simpa [Row.isLive, hexpires] using hdead
    omega

theorem liveSlots_of_expired (hexpired : Expired throttler writtenAt start state)
    (h : Within throttler writtenAt state.slots) : liveSlots start state.slots = fun _ => none := by
  funext slotNumber
  unfold liveSlots
  rw [Option.filter_eq_none_iff]
  intro slot hslot
  obtain ⟨limit, hlimit, hexpires⟩ := h slotNumber slot hslot
  have hcovers := covers_hold hexpired hlimit
  rw [decide_eq_true_eq]
  omega

/-- An interval after the last refill, a bucket is full. -/
theorem tokens_full (htokens : 0 ≤ state.tokens)
    (hcovers : state.lastRefillUnixMicroseconds + ceilMicroseconds limit.interval ≤ now) :
    (refill limit state now).tokens = limit.requestsPerInterval := by
  refine min_eq_right ?_
  have hfits := limit.admitted.2
  have hlong : (ceilMicroseconds limit.interval : Int) ≤
    min (now - state.lastRefillUnixMicroseconds) i64Max := by omega
  have hlong : (ceilMicroseconds limit.interval : ℚ) ≤
      ((min (now - state.lastRefillUnixMicroseconds) i64Max : Int) : ℚ) := by exact_mod_cast hlong
  rw [elapsedSeconds_eq (by omega)]
  calc (limit.requestsPerInterval : ℚ)
      ≤ ceilMicroseconds limit.interval * refillRatePerMicrosecond limit := interval_fills limit
    _ ≤ (min (now - state.lastRefillUnixMicroseconds) i64Max : Int) * refillRatePerMicrosecond limit :=
        mul_le_mul_of_nonneg_right hlong (rate_nonneg limit)
    _ = (min (now - state.lastRefillUnixMicroseconds) i64Max : Int) / 1000000 *
      limit.refillRatePerSecond ℚ := by
        unfold refillRatePerMicrosecond
        ring
    _ ≤ state.tokens + (min (now - state.lastRefillUnixMicroseconds) i64Max : Int) / 1000000 *
          limit.refillRatePerSecond ℚ := le_add_of_nonneg_left htokens

theorem tokens_fresh (hlimit : throttler.rateLimit = some limit) (start now : Int) :
    (refill limit (throttler.initialState start : ThrottlerState ℚ) now).tokens =
      limit.requestsPerInterval := by
  have htokens : (throttler.initialState start : ThrottlerState ℚ).tokens = limit.requestsPerInterval := by
    rw [Throttler.initialState, hlimit]
    rfl
  rw [refill_tokens_rat, htokens]
  apply min_eq_right
  apply le_add_of_nonneg_right
  exact mul_nonneg (elapsedSeconds_nonneg _ now) (refillRatePerSecond_nonneg limit)

theorem alike_expired (hfits : Fits throttler writtenAt state)
    (hexpired : Expired throttler writtenAt start state) :
    Alike throttler start (throttler.initialState start) state where
  circuit := hfits.circuit.symm
  slots := (liveSlots_of_expired hexpired hfits.slots).symm
  tokens limit hlimit now hnow := by
    have hcovers := covers_interval hexpired hlimit
    have hmark := hfits.mark
    rw [tokens_fresh hlimit, tokens_full (hfits.tokens limit hlimit) (by omega)]

/-- Once its time to live has passed, a state might as well be gone. -/
theorem expiry_unobservable (throttler : Throttler)
    (hbreaker : throttler.circuitBreaker = none) (writtenAt start : Int)
    (state : ThrottlerState ℚ) (hstored : Stored throttler writtenAt state)
    (hexpired : Expired throttler writtenAt start state)
    (inputs : List Input) (hfrom : ∀ i ∈ inputs, start ≤ i.now)
    (hsorted : inputs.Pairwise fun i j => i.now ≤ j.now) :
    trace (step throttler) inputs (throttler.initialState start) =
      trace (step throttler) inputs state :=
  trace_alike hfrom hsorted (alike_expired (fits_of_stored hbreaker hstored) hexpired)

/-- One request a second, and one holder at a time. -/
def guarded : Throttler where
  key := "guarded"
  rateLimit := some ThrottlerTokens.oncePerSecond
  concurrencyLimit := some ThrottlerSlots.oneAtATime
  circuitBreaker := none
  stateTtl := oneSecondStateTtl
  ttl_eq := by rfl

/-- The state after one acquisition, with the token spent and the slot held. -/
def spent : ThrottlerState ℚ :=
  { (guarded.initialState 0 : ThrottlerState ℚ) with
    tokens := 0
    slots := (∅ : Slots).insert 1 ⟨"worker", 1000000⟩ }

theorem spent_acquired : evaluateTryAcquireManualPermit guarded (guarded.initialState 0) 0
    (some ThrottlerSlots.worker) =
      .ok ⟨.acquired ⟨"guarded", some ThrottlerSlots.worker, some 1, false⟩, spent, true⟩ := by
  with_unfolding_all rfl

theorem expiry_unobservable_ten_seconds :
    trace (step guarded) [⟨10000000, .acquire (some ThrottlerSlots.stranger)⟩,
        ⟨10000000, .acquire (some ThrottlerSlots.worker)⟩] (guarded.initialState 10000000) =
      trace (step guarded) [⟨10000000, .acquire (some ThrottlerSlots.stranger)⟩,
        ⟨10000000, .acquire (some ThrottlerSlots.worker)⟩] spent :=
  expiry_unobservable guarded rfl 0 10000000 spent
    (.acquired (.initial le_rfl) le_rfl le_rfl spent_acquired) (.inl (by decide)) _ (by decide)
    (by decide)

end Paranoid.ThrottlerExpiry
