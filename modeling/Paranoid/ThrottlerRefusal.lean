import Paranoid.ThrottlerObservations
import Paranoid.TokenBucket

namespace Paranoid.ThrottlerRefusal

open Postgres LeaseModel ThrottlerModel ThrottlerAcquire ThrottlerObservations
open TokenBucket Transitions
open ThrottlerCircuit (circuit)

variable {throttler : Throttler} {limit : ResolvedThrottlerRateLimit}
  {now later : Int} {state current : ThrottlerState ℚ}
  {holderId : Option HolderId} {outcome : ThrottlerMutationOutcome ℚ}

/-- The longest time that the difference of two timestamps can be fills any bucket. -/
theorem longest_fills (limit : ResolvedThrottlerRateLimit) :
    (limit.requestsPerInterval : ℚ) ≤ (i64Max : ℚ) / 1000000 * limit.refillRatePerSecond ℚ := by
  have hfits : (ceilMicroseconds limit.interval : ℚ) ≤ i64Max := by exact_mod_cast limit.admitted.2
  calc (limit.requestsPerInterval : ℚ)
      ≤ ceilMicroseconds limit.interval * refillRatePerMicrosecond limit := interval_fills limit
    _ ≤ i64Max * refillRatePerMicrosecond limit := mul_le_mul_of_nonneg_right hfits (rate_nonneg limit)
    _ = i64Max / 1000000 * limit.refillRatePerSecond ℚ := by
        unfold refillRatePerMicrosecond
        ring

/-- A refill in between is not seen by a later one. -/
theorem refill_refill (limit : ResolvedThrottlerRateLimit) (htokens : 0 ≤ state.tokens)
    (hmark : state.lastRefillUnixMicroseconds ≤ now) (hlater : now ≤ later) :
    (refill limit (refill limit state now) later).tokens = (refill limit state later).tokens := by
  have hrate := refillRatePerSecond_nonneg limit
  have hlate : (refill limit state now).lastRefillUnixMicroseconds ≤ later := hlater
  have hmore : 0 ≤ elapsedSeconds (refill limit state now) later * limit.refillRatePerSecond ℚ :=
    mul_nonneg (elapsedSeconds_nonneg _ later) hrate
  change min (min (state.tokens + elapsedSeconds state now * limit.refillRatePerSecond ℚ)
    limit.requestsPerInterval +
      elapsedSeconds (refill limit state now) later *
        limit.refillRatePerSecond ℚ) limit.requestsPerInterval =
    min (state.tokens + elapsedSeconds state later * limit.refillRatePerSecond ℚ)
      limit.requestsPerInterval
  rw [min_min_add hmore, ← add_mul, elapsedSeconds_eq hmark,
    elapsedSeconds_eq hlate, elapsedSeconds_eq (hmark.trans hlater),
    ← add_div, ← Int.cast_add]
  change min (state.tokens + ((min (now - state.lastRefillUnixMicroseconds) i64Max +
    min (later - now) i64Max : Int) : ℚ) / 1000000 * limit.refillRatePerSecond ℚ) _ = _
  have hsum : min (now - state.lastRefillUnixMicroseconds) i64Max + min (later - now) i64Max =
        min (later - state.lastRefillUnixMicroseconds) i64Max ∨
      i64Max ≤ min (now - state.lastRefillUnixMicroseconds) i64Max + min (later - now) i64Max ∧
        min (later - state.lastRefillUnixMicroseconds) i64Max = i64Max := by
    simp only [i64Max]
    omega
  rcases hsum with hsame | ⟨hfull, hlong⟩
  · rw [hsame]
  · have hfills := longest_fills limit
    have hscaled : (i64Max : ℚ) / 1000000 * limit.refillRatePerSecond ℚ ≤
        ((min (now - state.lastRefillUnixMicroseconds)
          i64Max + min (later - now) i64Max : Int) : ℚ) / 1000000 *
          limit.refillRatePerSecond ℚ := by
      refine mul_le_mul_of_nonneg_right (div_le_div_of_nonneg_right ?_ (by norm_num)) hrate
      exact_mod_cast hfull
    rw [hlong, min_eq_right (by linarith), min_eq_right (by linarith)]

/-- An acquisition takes a slot that is not live, or leaves the live slots as they are. -/
theorem acquireConcurrencySlot_live {concurrency : ThrottlerConcurrencyAcquireOutcome}
    {reserved : ThrottlerState ℚ}
    (h : acquireConcurrencySlotIfConfigured throttler current now holderId =
      .ok (concurrency, reserved)) :
    concurrency.acquiredSlotSuffix = none ∧ liveSlots now reserved.slots = liveSlots now current.slots ∨
      ∃ slotNumber slot, concurrency.acquiredSlotSuffix = some slotNumber ∧
        concurrency.noSlotAvailable = false ∧
        liveSlots now current.slots slotNumber = none ∧
        liveSlots now reserved.slots =
          Function.update (liveSlots now current.slots) slotNumber slot := by
  unfold acquireConcurrencySlotIfConfigured at h
  split at h
  · obtain ⟨rfl, rfl⟩ := Prod.mk.inj (Except.ok.inj h)
    exact .inl ⟨rfl, rfl⟩
  · split at h
    · cases h
    · dsimp only at h
      split at h
      · obtain ⟨rfl, rfl⟩ := Prod.mk.inj (Except.ok.inj h)
        exact .inl ⟨rfl, liveSlots_retainLiveSlots⟩
      · rename_i slotNumber hfirst
        obtain ⟨expiresAt, -, h⟩ := bind_eq_ok.1 h
        obtain ⟨rfl, rfl⟩ := Prod.mk.inj (Except.ok.inj h)
        have hfree := (ThrottlerSlots.firstFreeSlot_eq_some hfirst).2.2
        rw [← AList.lookup_eq_none, lookup_retainLiveSlots] at hfree
        have hinserted (slot : ThrottlerSlot) :=
          @liveSlots_insert now (retainLiveSlots now current.slots) slotNumber slot
        rw [liveSlots_retainLiveSlots] at hinserted
        exact .inr ⟨slotNumber, _, rfl, rfl, hfree, hinserted _⟩

/-- An acquisition that is not granted gives back what it took, up to a refill. -/
theorem alike_blocked (htokens : ∀ limit ∈ throttler.rateLimit, 0 ≤ current.tokens)
    (hmark : current.lastRefillUnixMicroseconds ≤ now)
    (h : evaluateTryAcquireManualPermit throttler current now holderId = .ok outcome)
    (hblocked : ¬Acquired outcome.acquireResult) : Alike throttler now outcome.state current := by
  dsimp only [evaluateTryAcquireManualPermit] at h
  split at h
  · rw [← Except.ok.inj h]
    exact .refl _ _
  obtain ⟨⟨concurrency, reserved⟩, hslot, h⟩ := bind_eq_ok.1 h
  have hlive := acquireConcurrencySlot_live hslot
  obtain ⟨slots, rfl⟩ := acquireConcurrencySlot_eq_ok hslot
  dsimp only at hlive h
  split at h
  · rename_i hfull
    rw [← Except.ok.inj h]
    rcases hlive with ⟨-, hsame⟩ | ⟨slotNumber, slot, -, hfree, -⟩
    · exact ⟨rfl, hsame, fun _ _ _ _ => rfl⟩
    · rw [hfree] at hfull
      cases hfull
  split at h
  · rename_i hlimited
    rw [← Except.ok.inj h]
    unfold consumeRateLimitTokenIfConfigured at hlimited ⊢
    cases hlimit : throttler.rateLimit with
    | none =>
        rw [hlimit] at hlimited
        cases hlimited
    | some limit =>
        rw [hlimit] at hlimited
        dsimp only at hlimited ⊢
        split at hlimited
        · cases hlimited
        rename_i hempty
        rw [if_neg hempty]
        have hrefills : ∀ other ∈ throttler.rateLimit, ∀ later, now ≤ later →
            (refill other (refill limit { current with slots } now) later).tokens =
              (refill other current later).tokens := by
          intro other hother later hlater
          obtain rfl := Option.some.inj (hlimit.symm.trans hother)
          exact @refill_refill now later { current with slots } _ (htokens _ hlimit) hmark hlater
        rcases hlive with ⟨hnone, hsame⟩ | ⟨slotNumber, slot, hsome, -, hfree, hadded⟩
        · rw [hnone]
          exact ⟨rfl, hsame, hrefills⟩
        · rw [hsome]
          refine ⟨rfl, ?_, hrefills⟩
          change liveSlots now (slots.erase slotNumber) = liveSlots now current.slots
          rw [liveSlots_erase, hadded, Function.update_idem, ← hfree, Function.update_eq_self]
  · split at h
    · cases holderId with
      | none => cases h
      | some holder =>
          obtain ⟨expiresAt, -, h⟩ := bind_eq_ok.1 h
          rw [← Except.ok.inj h] at hblocked
          exact absurd ⟨_, rfl⟩ hblocked
    · rw [← Except.ok.inj h] at hblocked
      exact absurd ⟨_, rfl⟩ hblocked

/-- Whatever comes later, an acquisition that was not granted might as well not have happened. -/
theorem blocked_acquisition_unobservable (throttler : Throttler) (current : ThrottlerState ℚ) (now : Int)
    (holderId : Option HolderId) (outcome : ThrottlerMutationOutcome ℚ)
    (htokens : ∀ limit ∈ throttler.rateLimit, 0 ≤ current.tokens)
    (hmark : current.lastRefillUnixMicroseconds ≤ now)
    (h : evaluateTryAcquireManualPermit throttler current now holderId = .ok outcome)
    (hblocked : ¬Acquired outcome.acquireResult) :
    circuit (leftBehind current outcome) = circuit current ∧
      liveSlots now (leftBehind current outcome).slots = liveSlots now current.slots ∧
      ∀ inputs : List Input, (∀ i ∈ inputs, now ≤ i.now) → inputs.Pairwise (fun i j => i.now ≤ j.now) →
        trace (step throttler) inputs (leftBehind current outcome) =
          trace (step throttler) inputs current := by
  have halike : Alike throttler now (leftBehind current outcome) current :=
    (alike_leftBehind h).trans (alike_blocked htokens hmark h hblocked)
  exact ⟨halike.circuit, halike.slots, fun _ hfrom hsorted => trace_alike hfrom hsorted halike⟩

def held : ThrottlerState ℚ :=
  { ThrottlerSlots.exclusive.initialState 0 with slots := (∅ : Slots).insert 1 ⟨"worker", 1000000⟩ }

theorem blocked_acquisition_unobservable_full :
    ∃ outcome, evaluateTryAcquireManualPermit ThrottlerSlots.exclusive held 500000
      (some ThrottlerSlots.stranger) = .ok outcome ∧ ¬Acquired outcome.acquireResult ∧
    trace (step ThrottlerSlots.exclusive)
      [⟨2000000, .acquire (some ThrottlerSlots.stranger)⟩] (leftBehind held outcome) =
      trace (step ThrottlerSlots.exclusive) [⟨2000000, .acquire (some ThrottlerSlots.stranger)⟩] held :=
  ⟨_, rfl, nofun, (blocked_acquisition_unobservable
    ThrottlerSlots.exclusive held 500000 (some ThrottlerSlots.stranger) _
    nofun (by decide) rfl nofun).2.2 _ (by decide) (by simp)⟩

end Paranoid.ThrottlerRefusal
