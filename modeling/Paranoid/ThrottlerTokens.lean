import Paranoid.ThrottlerAcquire
import Paranoid.TokenBucket
import Paranoid.Transitions

namespace Paranoid.ThrottlerTokens

open Postgres KvAtomic LeaseModel ThrottlerModel ThrottlerAcquire TokenBucket Transitions Binary64
open TokenNumber (ofInt)

/-- One acquisition in row-lock order. Its statement got its timestamp `now`
before it waited for the row, so `now` may go back from one to the next. -/
structure Acquire where
  now : Int
  delay : Nat
  holderId : Option HolderId

section Step

variable {T : Type} [TokenNumber T]

def acquireStep (throttler : Throttler) (i : Acquire) (cell : Cell T) :
    Cell T × Except FleetError (ThrottlerManualPermitAcquireResult T) :=
  match tryAcquireWithOptionalHolder throttler i.now i.delay i.holderId cell with
  | .error e => (cell, .error e)
  | .ok (result, cell') => (cell', .ok result)

end Step

def granted {T : Type} : Acquire × Except FleetError (ThrottlerManualPermitAcquireResult T) → Bool
  | (_, .ok result) => Acquired result
  | (_, .error _) => false

/-- The acquisition does not go back behind the stored refill, or behind `start`
where nothing is stored. -/
def InOrder {T : Type} (start : Int) (i : Acquire) (cell : Cell T) : Prop :=
  cell.elim start (·.value.lastRefillUnixMicroseconds) ≤ i.now

instance {T : Type} (start : Int) (i : Acquire) (cell : Cell T) : Decidable (InOrder start i cell) :=
  inferInstanceAs (Decidable (_ ≤ _))

def latest (start : Int) (inputs : List Acquire) : Int := inputs.foldl (fun t i => max t i.now) start

section Evaluation

variable {T : Type} [TokenNumber T] {throttler : Throttler} {limit : ResolvedThrottlerRateLimit}
  {now : Int} {state : ThrottlerState T} {holderId : Option HolderId}
  {outcome : ThrottlerMutationOutcome T}

/-- An evaluation that reaches the rate limit moves the refill mark to its own
timestamp, and takes a token exactly when it grants. -/
theorem evaluate_tokens (hlimit : throttler.rateLimit = some limit)
    (h : evaluateTryAcquireManualPermit throttler state now holderId = .ok outcome) :
    (¬Acquired outcome.acquireResult ∧ outcome.state.tokens = state.tokens ∧
      outcome.state.lastRefillUnixMicroseconds = state.lastRefillUnixMicroseconds) ∨
    (outcome.state.lastRefillUnixMicroseconds = now ∧
      (¬Acquired outcome.acquireResult ∧ outcome.state.tokens = (refill limit state now).tokens ∨
      Acquired outcome.acquireResult ∧ ofInt 1 ≤ (refill limit state now).tokens ∧
        outcome.shouldWrite ∧
        outcome.state.tokens = (refill limit state now).tokens - ofInt 1)) := by
  rcases evaluate_eq_ok h with rfl | ⟨concurrency, reserved, hslot, hrest⟩
  · exact .inl ⟨by simp [Acquired], rfl, rfl⟩
  obtain ⟨slots, rfl⟩ := acquireConcurrencySlot_eq_ok hslot
  rcases hrest with rfl | ⟨-, rateLimit, consumed, hconsume, hrest⟩
  · exact .inl ⟨by simp [Acquired], rfl, rfl⟩
  right
  simp only [consumeRateLimitTokenIfConfigured, hlimit] at hconsume
  split at hconsume
  · rename_i htoken
    obtain ⟨rfl, rfl⟩ := Prod.mk.inj hconsume
    rcases hrest with ⟨hblocked, -⟩ | ⟨-, hwrite, htokens, -, hmark, probe, hprobe⟩
    · cases hblocked
    · exact ⟨hmark, .inr ⟨⟨_, hprobe⟩, htoken, hwrite, htokens⟩⟩
  · split at hconsume
    · obtain ⟨rfl, rfl⟩ := Prod.mk.inj hconsume
      rcases hrest with ⟨-, rfl⟩ | ⟨hpassed, -⟩
      · exact ⟨rfl, .inl ⟨by simp [Acquired], rfl⟩⟩
      · exact absurd rfl hpassed
    · obtain ⟨rfl, rfl⟩ := Prod.mk.inj hconsume
      rcases hrest with ⟨-, rfl⟩ | ⟨hpassed, -⟩
      · exact ⟨rfl, .inl ⟨by simp [Acquired], rfl⟩⟩
      · exact absurd rfl hpassed

end Evaluation

section Flow

variable {limit : ResolvedThrottlerRateLimit} {now : Int} {state : ThrottlerState Float64}

theorem interval_lt (limit : ResolvedThrottlerRateLimit) : limit.interval < 2 ^ 73 := by
  have hceil := (le_ceilMicroseconds limit.interval).1
  have hfits := limit.admitted.2
  simp only [i64Max] at hfits
  omega

theorem approx_asSecs (limit : ResolvedThrottlerRateLimit) :
    Approx 2 (asSecs Float64 limit.interval) (limit.interval / 1000000000) := by
  have hinterval := interval_lt limit
  have hseconds : Approx 1 (Float64.ofInt (limit.interval / 1000000000 : Nat)) _ :=
    approx_ofInt (by omega)
  have hnanos : Approx 0 (Float64.ofInt (limit.interval % 1000000000 : Nat)) _ :=
    approx_exact (by omega)
  have hbillion : Approx 0 (Float64.ofInt (1000000000 : Nat)) _ := approx_exact (by decide)
  have hsubseconds := hnanos.div hbillion (by norm_num)
    (sized_ratio (by omega) (by decide) (by decide)) (by decide)
  have hsum : ((limit.interval / 1000000000 : Nat) : ℚ) +
      ((limit.interval % 1000000000 : Nat) : ℚ) / ((1000000000 : Nat) : ℚ) =
        (limit.interval : ℚ) / ((1000000000 : Nat) : ℚ) := by
    have hsplit : ((limit.interval % 1000000000 + 1000000000 * (limit.interval / 1000000000) : Nat) : ℚ) =
        limit.interval := congrArg _ (Nat.mod_add_div _ _)
    rw [← hsplit]
    push_cast
    ring
  have hsecs := hseconds.add hsubseconds
    (hsum ▸ sized_ratio (by omega) (by decide) (by decide)) (by decide)
  rw [hsum] at hsecs
  exact_mod_cast hsecs

theorem approx_refillRate (limit : ResolvedThrottlerRateLimit) :
    Approx 3 (limit.refillRatePerSecond Float64) (limit.refillRatePerSecond ℚ) := by
  have hpositive := limit.admitted.1
  have hfits := limit.fits
  have hinterval := interval_lt limit
  have hrequests : Approx 0 (Float64.ofInt (limit.requestsPerInterval : Nat)) _ :=
    approx_exact (by omega)
  rw [refillRatePerSecond_rat]
  have hratio : (limit.requestsPerInterval : ℚ) / (limit.interval / 1000000000) =
      ((limit.requestsPerInterval * 1000000000 : Nat) : ℚ) / (limit.interval : Nat) := by
    rw [div_div_eq_mul_div]
    push_cast
    rfl
  exact hrequests.div (approx_asSecs limit) (by positivity)
    (hratio ▸ sized_ratio (by omega) hpositive (by omega)) (by decide)

/-- The time since the last refill, in microseconds. -/
def elapsedMicroseconds (state : ThrottlerState Float64) (now : Int) : Nat :=
  (saturatingSub now state.lastRefillUnixMicroseconds).toNat

theorem elapsedMicroseconds_le (state : ThrottlerState Float64) (now : Int) :
    elapsedMicroseconds state now < 2 ^ 63 ∧ (state.lastRefillUnixMicroseconds ≤ now →
      (elapsedMicroseconds state now : Int) ≤ now - state.lastRefillUnixMicroseconds) := by
  unfold elapsedMicroseconds saturatingSub i64Max
  omega

theorem approx_elapsed (state : ThrottlerState Float64) (now : Int) :
    Approx 2 (elapsedSeconds state now) (elapsedMicroseconds state now / 1000000) := by
  have hlong := (elapsedMicroseconds_le state now).1
  have hmicroseconds : Approx 1 (Float64.ofInt (elapsedMicroseconds state now : Nat)) _ :=
    approx_ofInt (by omega)
  have hmillion : Approx 0 (Float64.ofInt (1000000 : Nat)) _ := approx_exact (by decide)
  have hseconds := hmicroseconds.div hmillion (by norm_num)
    (sized_ratio (by omega) (by decide) (by decide)) (by decide)
  rw [elapsedMicroseconds, Int.ofNat_toNat] at hseconds
  exact_mod_cast hseconds

/-- What a refill lets in is rounded six times. -/
theorem approx_flow (limit : ResolvedThrottlerRateLimit) (state : ThrottlerState Float64) (now : Int) :
    Approx 6 (elapsedSeconds state now * limit.refillRatePerSecond Float64)
      (elapsedMicroseconds state now * refillRatePerMicrosecond limit) := by
  have hpositive := limit.admitted.1
  have hfits := limit.fits
  have hinterval := interval_lt limit
  have hlong := (elapsedMicroseconds_le state now).1
  have hratio : (elapsedMicroseconds state now : ℚ) / 1000000 * limit.refillRatePerSecond ℚ =
      ((elapsedMicroseconds state now * (limit.requestsPerInterval * 1000) : Nat) : ℚ) /
        (limit.interval : Nat) := by
    rw [refillRatePerSecond_rat, div_div_eq_mul_div]
    push_cast
    ring
  have hflow : elapsedMicroseconds state now * (limit.requestsPerInterval * 1000) ≤ 2 ^ 200 := by
    calc elapsedMicroseconds state now * (limit.requestsPerInterval * 1000)
        ≤ 2 ^ 63 * (2 ^ 32 * 1000) := Nat.mul_le_mul hlong.le (Nat.mul_le_mul hfits.le le_rfl)
      _ ≤ 2 ^ 200 := by decide
  have hproduct := (approx_elapsed state now).mul (approx_refillRate limit)
    (hratio ▸ sized_ratio hflow hpositive (by omega)) (by decide)
  rw [refillRatePerMicrosecond, mul_div_assoc', mul_div_right_comm]
  exact hproduct

/-- What one token among a full bucket of them may be off by in a rounding. -/
def share (limit : ResolvedThrottlerRateLimit) : ℚ := limit.requestsPerInterval * unitRoundoff

/-- What one evaluation may be off by. -/
def slack (limit : ResolvedThrottlerRateLimit) : ℚ := limit.requestsPerInterval / 2 ^ 49

theorem share_nonneg (limit : ResolvedThrottlerRateLimit) : 0 ≤ share limit :=
  mul_nonneg (Nat.cast_nonneg _) unitRoundoff_nonneg

theorem slack_eq (limit : ResolvedThrottlerRateLimit) : slack limit = 15 * share limit + share limit := by
  rw [slack, share, unitRoundoff]
  ring

theorem slack_nonneg (limit : ResolvedThrottlerRateLimit) : 0 ≤ slack limit := by
  rw [slack]
  positivity

def bucketOf (limit : ResolvedThrottlerRateLimit) (state : ThrottlerState Float64) : Bucket ℚ :=
  ⟨clamp limit.requestsPerInterval state.tokens, state.lastRefillUnixMicroseconds⟩

theorem capacity_ne_nan (limit : ResolvedThrottlerRateLimit) :
    (ofInt limit.requestsPerInterval : Float64) ≠ .nan := by
  obtain ⟨m, hm, -⟩ := ofInt_exact (limit.fits.trans (by decide))
  change Float64.ofInt limit.requestsPerInterval ≠ .nan
  rw [hm]
  nofun

/-- A refill in binary arithmetic is the exact one, up to some shares. -/
theorem level_refill_le (hmark : state.lastRefillUnixMicroseconds ≤ now) :
    (bucketOf limit (refill limit state now)).level ≤
      ((bucketOf limit state).refill (limit.requestsPerInterval : ℚ)
        (refillRatePerMicrosecond limit) now).level + 15 * share limit := by
  have hone : (1 : ℚ) ≤ limit.requestsPerInterval := by exact_mod_cast limit.positive
  have hsmall : (limit.requestsPerInterval : ℚ) ≤ 2 ^ 1023 := by
    have hfits : (limit.requestsPerInterval : ℚ) ≤ 2 ^ 32 := by exact_mod_cast limit.fits.le
    exact hfits.trans (pow_le_pow_right₀ one_le_two (by decide))
  have hcapped : clamp limit.requestsPerInterval (refill limit state now).tokens ≤
      clamp limit.requestsPerInterval
        (state.tokens + elapsedSeconds state now * limit.refillRatePerSecond Float64) :=
    clamp_min_le (zero_le_one.trans hone) (capacity_ne_nan limit)
  have hflow := clamp_add_approx hone hsmall (by decide) (approx_flow limit state now) (x := state.tokens)
  have helapsed : (elapsedMicroseconds state now : ℚ) * refillRatePerMicrosecond limit ≤
      (now - state.lastRefillUnixMicroseconds) * refillRatePerMicrosecond limit := by
    apply mul_le_mul_of_nonneg_right _ (rate_nonneg limit)
    exact_mod_cast (elapsedMicroseconds_le state now).2 hmark
  have hshare := share_nonneg limit
  calc clamp limit.requestsPerInterval (refill limit state now).tokens
      ≤ min (clamp limit.requestsPerInterval state.tokens +
          elapsedMicroseconds state now * refillRatePerMicrosecond limit) limit.requestsPerInterval +
            (2 * (6 : ℕ) + 1) * (limit.requestsPerInterval * unitRoundoff) := hcapped.trans hflow
    _ ≤ min (clamp limit.requestsPerInterval state.tokens +
          (now - state.lastRefillUnixMicroseconds) * refillRatePerMicrosecond limit)
            limit.requestsPerInterval + 15 * share limit := by
        refine add_le_add (min_le_min (add_le_add le_rfl helapsed) le_rfl) ?_
        rw [← share]
        push_cast
        linarith

end Flow

section Account

variable {throttler : Throttler} {limit : ResolvedThrottlerRateLimit} {start now : Int}
  {cell : Cell Float64} {state state' : ThrottlerState Float64} {holderId : Option HolderId}
  {outcome : ThrottlerMutationOutcome Float64} {spent : ℚ} {steps : ℕ}

/-- The spent tokens are covered, when each step was lent its slack. -/
def CoveredState (limit : ResolvedThrottlerRateLimit) (start : Int) (spent : ℚ) (steps : ℕ)
    (state : ThrottlerState Float64) : Prop :=
  Covered (limit.requestsPerInterval : ℚ) (refillRatePerMicrosecond limit) start spent
    (steps * slack limit) (bucketOf limit state)

/-- The spent tokens are covered, and a stored bucket outlives the interval that
refills it unless nothing has been taken from it. -/
def Funded (limit : ResolvedThrottlerRateLimit) (start : Int) (spent : ℚ) (steps : ℕ) : Cell Float64 → Prop
  | none => spent = 0
  | some row =>
      CoveredState limit start spent steps row.value ∧
        (spent = 0 ∨ ∃ expiresAt, row.expiresAt = some expiresAt ∧
          row.value.lastRefillUnixMicroseconds + ceilMicroseconds limit.interval ≤ expiresAt)

theorem lent_nonneg (limit : ResolvedThrottlerRateLimit) (steps : ℕ) : 0 ≤ steps * slack limit :=
  mul_nonneg (Nat.cast_nonneg steps) (slack_nonneg limit)

theorem lent_succ (limit : ResolvedThrottlerRateLimit) (steps : ℕ) :
    ((steps + 1 : ℕ) : ℚ) * slack limit = steps * slack limit + 15 * share limit + share limit := by
  rw [Nat.cast_succ, add_mul, one_mul, add_assoc, ← slack_eq]

/-- A step that leaves the bucket alone needs none of its slack. -/
theorem covered_idle (h : CoveredState limit start spent steps state)
    (htokens : state'.tokens = state.tokens)
    (hmark : state'.lastRefillUnixMicroseconds = state.lastRefillUnixMicroseconds) :
    CoveredState limit start spent (steps + 1) state' := by
  have hsame : bucketOf limit state' = bucketOf limit state := by rw [bucketOf, htokens, hmark, bucketOf]
  have hlent := covered_lend h (slack_nonneg limit) (le_add_of_nonneg_right (slack_nonneg limit))
  rw [CoveredState, hsame, lent_succ, add_assoc, ← slack_eq]
  exact hlent

theorem covered_state_refill (hmark : state.lastRefillUnixMicroseconds ≤ now)
    (h : CoveredState limit start spent steps state) :
    Covered (limit.requestsPerInterval : ℚ) (refillRatePerMicrosecond limit) start spent
      (steps * slack limit + 15 * share limit) (bucketOf limit (refill limit state now)) := by
  have hnow : (bucketOf limit state).mark ≤ (now : ℚ) := by
    simp only [bucketOf]
    exact_mod_cast hmark
  have hshares : 0 ≤ 15 * share limit := mul_nonneg (by norm_num) (share_nonneg limit)
  exact covered_lend (covered_refill (rate_nonneg limit) hnow h) hshares (level_refill_le hmark)

/-- A step that refills the bucket and takes nothing from it. -/
theorem covered_refilled (hmark : state.lastRefillUnixMicroseconds ≤ now)
    (h : CoveredState limit start spent steps state)
    (htokens : state'.tokens = (refill limit state now).tokens)
    (hmark' : state'.lastRefillUnixMicroseconds = now) :
    CoveredState limit start spent (steps + 1) state' := by
  have hsame : bucketOf limit state' = bucketOf limit (refill limit state now) := by
    rw [bucketOf, htokens, hmark', bucketOf]
    rfl
  have hlent := covered_lend (covered_state_refill hmark h) (share_nonneg limit)
    (le_add_of_nonneg_right (share_nonneg limit))
  rw [CoveredState, hsame, lent_succ]
  exact hlent

/-- A step that refills the bucket and takes a token from it. -/
theorem covered_taken (hmark : state.lastRefillUnixMicroseconds ≤ now)
    (h : CoveredState limit start spent steps state)
    (htoken : ofInt 1 ≤ (refill limit state now).tokens)
    (htokens : state'.tokens = (refill limit state now).tokens - ofInt 1)
    (hmark' : state'.lastRefillUnixMicroseconds = now) :
    CoveredState limit start (spent + 1) (steps + 1) state' := by
  have hfits : limit.requestsPerInterval < 2 ^ 53 := limit.fits.trans (by decide)
  have hcapped : (refill limit state now).tokens ≤ Float64.ofInt limit.requestsPerInterval :=
    min_le_of_ne_nan (capacity_ne_nan limit)
  obtain ⟨hlevel, htaken⟩ := clamp_sub_one hfits htoken hcapped
  have hcover := covered_take hlevel (clamp_le (Nat.cast_nonneg _) _) (covered_state_refill hmark h)
  have hlent := covered_lend hcover (share_nonneg limit) htaken
  have hsame : bucketOf limit state' = ⟨clamp limit.requestsPerInterval
      ((refill limit state now).tokens - Float64.ofInt 1), now⟩ := by
    rw [bucketOf, htokens, hmark']
    rfl
  rw [CoveredState, hsame, lent_succ]
  exact hlent

theorem bucketOf_initialState (hlimit : throttler.rateLimit = some limit) :
    bucketOf limit (throttler.initialState now) =
      Bucket.full (limit.requestsPerInterval : ℚ) (now : ℚ) := by
  have hfits : limit.requestsPerInterval < 2 ^ 53 := limit.fits.trans (by decide)
  have htokens : (throttler.initialState now : ThrottlerState Float64).tokens =
      Float64.ofInt limit.requestsPerInterval := by
    rw [Throttler.initialState, hlimit]
    rfl
  rw [bucketOf, htokens, clamp_ofInt hfits]
  rfl

/-- The state that an acquisition evaluates is covered, be it stored or fresh. -/
theorem covered_current {i : Acquire} (hlimit : throttler.rateLimit = some limit)
    (horder : InOrder start i cell) (h : Funded limit start spent steps cell) :
    CoveredState limit start spent steps ((liveValue i.now cell).getD (throttler.initialState i.now)) ∧
      ((liveValue i.now cell).getD (throttler.initialState i.now)).lastRefillUnixMicroseconds ≤
        i.now := by
  have hcapacity : (0 : ℚ) ≤ limit.requestsPerInterval := by positivity
  have hrate := rate_nonneg limit
  have hlent := lent_nonneg limit steps
  cases cell with
  | none =>
      simp only [liveValue_none, Option.getD_none, CoveredState, bucketOf_initialState hlimit]
      refine ⟨?_, le_rfl⟩
      have hstart : (start : ℚ) ≤ i.now := by exact_mod_cast horder
      have hopening := covered_lend (covered_start (refillRatePerMicrosecond limit)
        (⟨0, (start : ℚ)⟩ : Bucket ℚ) hcapacity) hlent (le_add_of_nonneg_right hlent)
      rw [zero_add] at hopening
      rw [show spent = 0 from h]
      exact covered_full hrate hcapacity hlent hstart (.inl rfl) hopening
  | some row =>
      obtain ⟨hcovered, hidle⟩ := h
      have hmark : (row.value.lastRefillUnixMicroseconds : ℚ) ≤ i.now := by exact_mod_cast horder
      rw [liveValue_some]
      split
      · exact ⟨hcovered, horder⟩
      · rename_i hexpired
        simp only [Option.getD_none, CoveredState, bucketOf_initialState hlimit]
        refine ⟨covered_full hrate hcapacity hlent hmark ?_ hcovered, le_rfl⟩
        rcases hidle with hspent | ⟨expiresAt, hexpires, hlasts⟩
        · exact .inl hspent
        · right
          have hover : expiresAt ≤ i.now := by simpa [Row.isLive, hexpires] using hexpired
          have hlong : (ceilMicroseconds limit.interval : ℚ) ≤
            i.now - row.value.lastRefillUnixMicroseconds := by
            have hint : (ceilMicroseconds limit.interval : Int) ≤
                i.now - row.value.lastRefillUnixMicroseconds := by omega
            exact_mod_cast hint
          exact (interval_fills limit).trans (mul_le_mul_of_nonneg_right hlong hrate)

theorem funded_stored {delay : Nat} {row : Row (ThrottlerState Float64)}
    (hlimit : throttler.rateLimit = some limit)
    (hcovered : CoveredState limit start spent steps row.value)
    (hmark : row.value.lastRefillUnixMicroseconds ≤ now)
    (hset : setValueAndTtl (now + delay) row.value throttler.stateTtl = .ok row) :
    Funded limit start spent steps (some row) := by
  obtain ⟨expiresAt, hexpires, hlasts⟩ := expiresAt_covers_interval hlimit hset
  exact ⟨hcovered, .inr ⟨expiresAt, hexpires, by omega⟩⟩

theorem funded_idle (h : Funded limit start spent steps cell) :
    Funded limit start spent (steps + 1) cell := by
  cases cell with
  | none => exact h
  | some row => exact ⟨covered_idle h.1 rfl rfl, h.2⟩

theorem funded_evaluate (hlimit : throttler.rateLimit = some limit)
    (hmark : state.lastRefillUnixMicroseconds ≤ now)
    (hcovered : CoveredState limit start spent steps state)
    (h : evaluateTryAcquireManualPermit throttler state now holderId = .ok outcome) :
    CoveredState limit start (spent + if Acquired outcome.acquireResult then 1 else 0) (steps + 1)
        outcome.state ∧
      outcome.state.lastRefillUnixMicroseconds ≤ now ∧
      (¬outcome.shouldWrite → (spent + if Acquired outcome.acquireResult then 1 else 0) = spent) := by
  rcases evaluate_tokens hlimit h with ⟨hr, htokens, hsame⟩ | ⟨hnow, ⟨hr, htokens⟩ |
    ⟨hr, htoken, hwrite, htokens⟩⟩
  · rw [if_neg hr, add_zero]
    exact ⟨covered_idle hcovered htokens hsame, hsame.trans_le hmark, fun _ => rfl⟩
  · rw [if_neg hr, add_zero]
    exact ⟨covered_refilled hmark hcovered htokens hnow, hnow.le, fun _ => rfl⟩
  · rw [if_pos hr]
    exact ⟨covered_taken hmark hcovered htoken htokens hnow, hnow.le, fun hkeep => absurd hwrite hkeep⟩

/-- One acquisition in order spends at most the token that it takes. -/
theorem funded_step {i : Acquire} (hlimit : throttler.rateLimit = some limit)
    (horder : InOrder start i cell) (h : Funded limit start spent steps cell) :
    Funded limit start (spent + if granted (i, (acquireStep throttler i cell).2) then 1 else 0)
      (steps + 1) (acquireStep throttler i cell).1 := by
  unfold acquireStep
  cases hacquire : tryAcquireWithOptionalHolder throttler i.now i.delay i.holderId cell with
  | error e => simpa [granted] using funded_idle h
  | ok result =>
      obtain ⟨result, cell'⟩ := result
      obtain ⟨outcome, hevaluate, rfl, hcell⟩ := tryAcquire_eq_ok hacquire
      obtain ⟨hcovered, hmark⟩ := covered_current hlimit horder h
      obtain ⟨hafter, hmark', hkept⟩ := funded_evaluate hlimit hmark hcovered hevaluate
      simp only [granted, decide_eq_true_eq]
      rcases hcell with ⟨hkeep, -, rfl⟩ | ⟨row, rfl, hset, ⟨-, hvalue⟩ | ⟨hkeep, hlive, hvalue⟩⟩
      · rw [hkept hkeep]
        exact funded_idle h
      · rw [← hvalue] at hafter hmark'
        exact funded_stored hlimit hafter hmark' hset
      · rw [hlive, Option.getD_none, ← hvalue] at hcovered hmark
        rw [hkept hkeep]
        exact funded_idle (funded_stored hlimit hcovered hmark hset)

theorem le_latest (start : Int) (inputs : List Acquire) :
    start ≤ latest start inputs ∧ ∀ i ∈ inputs, i.now ≤ latest start inputs := by
  induction inputs generalizing start with
  | nil => simp [latest]
  | cons i inputs ih =>
      obtain ⟨hstart, hinputs⟩ := ih (max start i.now)
      have hhead := (le_max_right start i.now).trans hstart
      exact ⟨(le_max_left _ _).trans hstart, by simpa using ⟨hhead, hinputs⟩⟩

/-- The invariant of a run: funded, and refilled no later than any timestamp seen. -/
def Account (limit : ResolvedThrottlerRateLimit) (start last : Int) (steps spent : Nat)
    (cell : Cell Float64) : Prop :=
  Funded limit start spent steps cell ∧ ∀ row ∈ cell, row.value.lastRefillUnixMicroseconds ≤ last

theorem account_step {last : Int} {spent : Nat} {i : Acquire}
    (hlimit : throttler.rateLimit = some limit) (horder : InOrder start i cell) (hlast : i.now ≤ last)
    (h : Account limit start last steps spent cell) :
    Account limit start last (steps + 1)
      (spent + if granted (i, (acquireStep throttler i cell).2) then 1 else 0)
      (acquireStep throttler i cell).1 := by
  refine ⟨by exact_mod_cast funded_step hlimit horder h.1, ?_⟩
  unfold acquireStep
  cases hacquire : tryAcquireWithOptionalHolder throttler i.now i.delay i.holderId cell with
  | error e => exact h.2
  | ok result =>
      obtain ⟨result, cell'⟩ := result
      obtain ⟨outcome, hevaluate, rfl, hcell⟩ := tryAcquire_eq_ok hacquire
      obtain ⟨hcovered, hmark⟩ := covered_current hlimit horder h.1
      obtain ⟨-, hmark', -⟩ := funded_evaluate hlimit hmark hcovered hevaluate
      rcases hcell with ⟨-, -, rfl⟩ | ⟨row, rfl, -, ⟨-, hvalue⟩ | ⟨-, -, hvalue⟩⟩
      · exact h.2
      · simpa [hvalue] using hmark'.trans hlast
      · simpa [hvalue, Throttler.initialState] using hlast

/-- One full bucket and the exact refill from the start of a run to its latest timestamp. -/
def allowance (limit : ResolvedThrottlerRateLimit) (start : Int) (inputs : List Acquire) : ℚ :=
  limit.requestsPerInterval + (latest start inputs - start) / 1000000 * limit.refillRatePerSecond ℚ

theorem granted_le (hlimit : throttler.rateLimit = some limit)
    (hstart : ∀ row ∈ cell, row.value.lastRefillUnixMicroseconds = start) {inputs : List Acquire}
    (horder : Meets (InOrder start) (acquireStep throttler) inputs cell) :
    ((trace (acquireStep throttler) inputs cell).countP granted : ℚ) ≤
      allowance limit start inputs + inputs.length * slack limit := by
  obtain ⟨hfirst, hinputs⟩ := le_latest start inputs
  have hcapacity : (0 : ℚ) ≤ limit.requestsPerInterval := by positivity
  have hopening : Account limit start (latest start inputs) 0 0 cell := by
    refine ⟨?_, fun row hrow => (hstart row hrow).trans_le hfirst⟩
    cases cell with
    | none => rfl
    | some row =>
        refine ⟨?_, .inl Nat.cast_zero⟩
        rw [← hstart row rfl, CoveredState, Nat.cast_zero, zero_mul]
        exact covered_start _ (bucketOf limit row.value) hcapacity
  have hguard := meets_and horder (meets_of_forall hinputs cell)
  have hclosing := trace_countP (fun i cell steps n hg h => account_step hlimit hg.1 hg.2 h) hguard hopening
  obtain ⟨hfunded, hlast⟩ := hclosing
  rw [Nat.zero_add, Nat.zero_add] at hfunded
  have hrate : (latest start inputs - start : ℚ) / 1000000 * limit.refillRatePerSecond ℚ =
      (latest start inputs - start) * refillRatePerMicrosecond limit := by
    unfold refillRatePerMicrosecond
    ring
  rw [allowance, hrate]
  cases hcell : exec (acquireStep throttler) inputs cell with
  | none =>
      rw [hcell] at hfunded
      have hflow : (0 : ℚ) ≤ (latest start inputs - start) * refillRatePerMicrosecond limit := by
        apply mul_nonneg _ (rate_nonneg limit)
        rw [sub_nonneg]
        exact_mod_cast hfirst
      rw [show _ = (0 : ℚ) from hfunded]
      exact add_nonneg (add_nonneg hcapacity hflow) (lent_nonneg limit _)
  | some row =>
      rw [hcell] at hfunded hlast
      refine spent_le (rate_nonneg limit) ?_ hfunded.1
      simp only [bucketOf]
      exact_mod_cast hlast row rfl

/-- When no acquisition goes back behind the stored refill, and what the roundings of the run may
come to does not reach the next whole token, what a run grants is covered by one full bucket and
the refill from its start to its latest timestamp. -/
theorem token_bucket_conserved (throttler : Throttler) (limit : ResolvedThrottlerRateLimit)
    (hlimit : throttler.rateLimit = some limit) (cell : Cell Float64) (start : Int)
    (hstart : ∀ row ∈ cell, row.value.lastRefillUnixMicroseconds = start) (inputs : List Acquire)
    (horder : Meets (InOrder start) (acquireStep throttler) inputs cell)
    (hrounding : allowance limit start inputs + inputs.length * slack limit <
      ⌊allowance limit start inputs⌋ + 1) :
    ((trace (acquireStep throttler) inputs cell).countP granted : ℚ) ≤ limit.requestsPerInterval +
      (latest start inputs - start) / 1000000 * limit.refillRatePerSecond ℚ := by
  have hbelow := (granted_le hlimit hstart horder).trans_lt hrounding
  have hwhole : ((trace (acquireStep throttler) inputs cell).countP granted : Int) ≤
      ⌊allowance limit start inputs⌋ := Int.lt_add_one_iff.1 (by exact_mod_cast hbelow)
  calc ((trace (acquireStep throttler) inputs cell).countP granted : ℚ)
      ≤ ⌊allowance limit start inputs⌋ := by exact_mod_cast hwhole
    _ ≤ allowance limit start inputs := Int.floor_le _

end Account

section Runs

def oncePerSecond : ResolvedThrottlerRateLimit :=
  ⟨1, 1000000000, Nat.one_pos, by decide, admittedDuration_oneSecond⟩

def limiter : Throttler where
  key := "limiter"
  rateLimit := some oncePerSecond
  concurrencyLimit := none
  circuitBreaker := none
  stateTtl := oneSecondStateTtl
  ttl_eq := by rfl

def stored : Cell Float64 := some ⟨limiter.initialState 0, some 10000000⟩

def acquiresAt (timestamps : List Int) : List Acquire := timestamps.map fun now => ⟨now, 0, none⟩

theorem token_bucket_conserved_two_seconds :
    ((trace (acquireStep limiter) (acquiresAt [0, 0, 1000000, 2000000]) stored).countP granted : ℚ) ≤
      oncePerSecond.requestsPerInterval +
        (latest 0 (acquiresAt [0, 0, 1000000, 2000000]) - (0 : Int)) / 1000000 *
          oncePerSecond.refillRatePerSecond ℚ :=
  token_bucket_conserved limiter oncePerSecond rfl stored 0 (by simp [stored, Throttler.initialState])
    (acquiresAt [0, 0, 1000000, 2000000]) (by decide +kernel) (by decide +kernel)

/-- A clock that steps back has the second from 0 to 1000000 credited twice. -/
theorem stepping_back_overspends :
    ¬((trace (acquireStep limiter) (acquiresAt [0, 1000000, 0, 1000000]) stored).countP granted : ℚ) ≤
      oncePerSecond.requestsPerInterval +
        (latest 0 (acquiresAt [0, 1000000, 0, 1000000]) - (0 : Int)) / 1000000 *
          oncePerSecond.refillRatePerSecond ℚ := by
  decide +kernel

/-- Once in three years and a nanosecond. -/
def onceInYears : ResolvedThrottlerRateLimit :=
  ⟨1, 100000000000000001, Nat.one_pos, by decide, by decide⟩

def yearLimiter : Throttler where
  key := "limiter"
  rateLimit := some onceInYears
  concurrencyLimit := none
  circuitBreaker := none
  stateTtl := ⟨some 1000000000000000010, by decide, by decide⟩
  ttl_eq := by rfl

/-- Without the nanosecond the token is not whole yet, but rounded it is. -/
theorem rounding_overspends :
    Meets (InOrder 0) (acquireStep yearLimiter) (acquiresAt [0, 100000000000000])
        (some ⟨(yearLimiter.initialState 0 : ThrottlerState Float64), some 1000000000000000⟩) ∧
      ¬((trace (acquireStep yearLimiter) (acquiresAt [0, 100000000000000])
          (some ⟨(yearLimiter.initialState 0 : ThrottlerState Float64), some 1000000000000000⟩)).countP
            granted : ℚ) ≤ allowance onceInYears 0 (acquiresAt [0, 100000000000000]) := by
  decide +kernel

end Runs

end Paranoid.ThrottlerTokens
