import Paranoid.ThrottlerSlots

namespace Paranoid.ThrottlerCircuit

open Postgres KvAtomic LeaseModel ThrottlerModel ThrottlerAcquire ThrottlerRelease Transitions
open TokenNumber (ofInt)
open ThrottlerSlots (addDurationToTimestamp_eq_ok stranger worker)

def probeWindowMicroseconds : Int := ceilMicroseconds defaultFleetThrottlerProbeWindow

/-- A granted permit, with the end of the probe reservation that it was last given. -/
structure Grant where
  permit : ThrottlerPermit
  reservedUntil : Option Int
  released : Bool

/-- The permit is unreleased and its probe reservation has not expired. -/
def Grant.Reserved (moment : Int) (grant : Grant) : Prop :=
  grant.released = false ∧ grant.reservedUntil.any (moment < ·)

/-- The shared state row, when the circuit last opened or recorded a failure, and the
permits by the holder that each was granted to. -/
structure System (T : Type) where
  cell : Cell T
  faultedAt : Option Int
  grants : HolderId → Option Grant

def start {T : Type} : System T := ⟨none, none, fun _ => none⟩

inductive Operation
  | acquire (holderId : HolderId)
  | release (holderId : HolderId) (outcome : ThrottlerTaskOutcome)
  | extendProbe (holderId : HolderId)
  | openCircuit
  | closeCircuit

structure Input where
  now : Int
  delay : Nat
  operation : Operation

/-- An explicit opening or closing frees every reservation. -/
def freed (grants : HolderId → Option Grant) (holderId : HolderId) : Option Grant :=
  (grants holderId).map fun grant => { grant with reservedUntil := none }

section Step

variable {T : Type} [TokenNumber T] (throttler : Throttler)

/-- The operations in row-lock order. What fails changes nothing. Every permit is acquired
for a holder of its own. -/
def step (i : Input) (s : System T) : System T × Unit :=
  match i.operation with
  | .acquire holderId =>
      if (s.grants holderId).isSome then (s, ())
      else match tryAcquireWithOptionalHolder throttler i.now i.delay (some holderId) s.cell with
        | .ok (.acquired permit, cell) =>
            let reservedUntil :=
              if permit.probeAcquired then some (i.now + probeWindowMicroseconds) else none
            ({ s with
              cell, grants := Function.update s.grants
                holderId (some ⟨permit, reservedUntil, false⟩) }, ())
        | .ok (_, cell) => ({ s with cell }, ())
        | .error _ => (s, ())
  | .release holderId outcome =>
      match s.grants holderId with
      | none => (s, ())
      | some grant =>
          match releaseManualPermitAfterTaskOutcome throttler i.now i.delay grant.permit outcome s.cell with
          | .ok (result, cell) =>
              let faultedAt := if outcome = .failed ∧ result.circuitStateUpdated then some i.now else s.faultedAt
              (⟨cell, faultedAt,
                Function.update s.grants holderId (some { grant with released := true })⟩, ())
          | .error _ => (s, ())
  | .extendProbe holderId =>
      match s.grants holderId with
      | none => (s, ())
      | some grant =>
          match extendProbeReservation throttler i.now i.delay grant.permit s.cell with
          | .ok (true, cell) =>
              let reservedUntil := some (i.now + probeWindowMicroseconds)
              ({ s with
                cell, grants := Function.update s.grants
                  holderId (some { grant with reservedUntil }) }, ())
          | .ok (false, cell) => ({ s with cell }, ())
          | .error _ => (s, ())
  | .openCircuit =>
      match openCircuit throttler i.now i.delay s.cell with
      | .ok (_, cell) => (⟨cell, some i.now, freed s.grants⟩, ())
      | .error _ => (s, ())
  | .closeCircuit =>
      match closeCircuit throttler i.now i.delay s.cell with
      | .ok (_, cell) => ({ s with cell, grants := freed s.grants }, ())
      | .error _ => (s, ())

end Step

/-- What the state row says about the circuit. -/
structure Circuit where
  consecutiveFailures : Nat
  circuitState : ThrottlerCircuitState
  openedAt : Option Int
  probeHolderId : Option String
  probeExpiresAt : Option Int

def circuit {T : Type} (state : ThrottlerState T) : Circuit where
  consecutiveFailures := state.consecutiveFailures
  circuitState := state.circuitState
  openedAt := state.circuitOpenedAtUnixMicroseconds
  probeHolderId := state.probeHolderId
  probeExpiresAt := state.probeExpiresAtUnixMicroseconds

/-- A closed circuit is below its threshold, an open one knows since when it blocks. -/
def Sound (breaker : ResolvedThrottlerCircuitBreaker) (faultedAt : Option Int) (c : Circuit) : Prop :=
  match c.circuitState with
  | .closed => c.openedAt = none ∧ c.consecutiveFailures < breaker.failureThreshold
  | .opened => ∃ openedAt, c.openedAt = some openedAt ∧ faultedAt = some openedAt

variable {T : Type} {throttler : Throttler} {breaker : ResolvedThrottlerCircuitBreaker}
  {state state' current : ThrottlerState T}
  {now : Int} {holderId : HolderId} {outcome : ThrottlerMutationOutcome T} {faultedAt : Option Int}

theorem sound_initialState [TokenNumber T] (throttler : Throttler)
    (breaker : ResolvedThrottlerCircuitBreaker) (faultedAt : Option Int) (now : Int) :
    Sound breaker faultedAt (circuit (throttler.initialState now : ThrottlerState T)) :=
  ⟨rfl, breaker.positive⟩

section Gate

theorem durationToMicrosecondsLossy_of_admitted {duration : Nat} (h : AdmittedDuration duration) :
    durationToMicrosecondsLossy duration = ceilMicroseconds duration := by
  simp [durationToMicrosecondsLossy, ThrottlerModel.durationToRoundedMicroseconds, h.2]

theorem saturatingSub_lt_iff {a b n : Int} (hn : 0 ≤ n) (hmax : n ≤ i64Max) :
    saturatingSub a b < n ↔ a - b < n := by
  unfold saturatingSub i64Max at *
  omega

/-- The recovery timeout has not passed. -/
def Recovering (breaker : ResolvedThrottlerCircuitBreaker) (openedAt now : Int) : Prop :=
  now < openedAt + ceilMicroseconds breaker.recoveryTimeout

theorem gate_closed (hclosed : state.circuitState = .closed) (holderId : Option HolderId) :
    shouldBlockForOpenCircuit throttler state now holderId = .allowNormally := by
  unfold shouldBlockForOpenCircuit
  split
  · rfl
  · simp [hclosed]

/-- An open circuit blocks until the recovery timeout has passed, and then whoever does not
have the probe reservation while it lasts. -/
theorem gate_opened {openedAt : Int} (hbreaker : throttler.circuitBreaker = some breaker)
    (hopened : state.circuitState = .opened)
    (hsince : state.circuitOpenedAtUnixMicroseconds = some openedAt)
    (holderId : Option HolderId) :
    shouldBlockForOpenCircuit throttler state now holderId = .allowProbe ∧
      ¬Recovering breaker openedAt now ∧
      (∀ probe, state.probeHolderId = some probe → state.probeExpiresAtUnixMicroseconds.any (now < ·) →
        holderId.any (·.text = probe)) ∨
    shouldBlockForOpenCircuit throttler state now holderId = .block ∧ (Recovering breaker openedAt now ∨
      state.probeExpiresAtUnixMicroseconds.any (now < ·)) := by
  have hrecovering : saturatingSub now openedAt < durationToMicrosecondsLossy breaker.recoveryTimeout ↔
      Recovering breaker openedAt now := by
    rw [durationToMicrosecondsLossy_of_admitted breaker.admitted,
      saturatingSub_lt_iff (Int.natCast_nonneg _) breaker.admitted.2, Recovering]
    omega
  simp only [shouldBlockForOpenCircuit, hbreaker, hopened, hsince, ne_eq, not_true_eq_false, if_false]
  by_cases hblocked : Recovering breaker openedAt now
  · rw [if_pos (hrecovering.2 hblocked)]
    exact .inr ⟨rfl, .inl hblocked⟩
  · rw [if_neg (mt hrecovering.1 hblocked)]
    cases hprobe : state.probeHolderId with
    | none => exact .inl ⟨rfl, hblocked, nofun⟩
    | some probe =>
        cases hlive : state.probeExpiresAtUnixMicroseconds.any (now < ·) with
        | false => exact .inl ⟨rfl, hblocked, by simp⟩
        | true =>
            cases hmatches : holderId.any (·.text = probe) with
            | false => exact .inr ⟨by simp [hmatches], .inr rfl⟩
            | true =>
                refine .inl ⟨by simp [hmatches], hblocked, ?_⟩
                rintro _ ⟨⟩ -
                exact hmatches

end Gate

theorem consume_circuit [TokenNumber T] {suffix : Option Nat} :
    circuit (consumeRateLimitTokenIfConfigured throttler state now suffix).2 = circuit state := by
  unfold consumeRateLimitTokenIfConfigured
  split
  · rfl
  · dsimp only
    split
    · rfl
    · cases suffix <;> rfl

/-- What an acquisition does to the circuit: a probe takes the reservation, and nothing
else changes. -/
theorem evaluate_circuit [TokenNumber T]
    (h : evaluateTryAcquireManualPermit throttler current now (some holderId) = .ok outcome) :
    ¬Acquired outcome.acquireResult ∧ circuit outcome.state = circuit current ∨
    outcome.shouldWrite ∧ ∃ permit, outcome.acquireResult = .acquired permit ∧
      permit.holderId = some holderId ∧
      (shouldBlockForOpenCircuit throttler current now (some holderId) = .allowNormally ∧
          permit.probeAcquired = false ∧ circuit outcome.state = circuit current ∨
        shouldBlockForOpenCircuit throttler current now (some holderId) = .allowProbe ∧
          permit.probeAcquired = true ∧
          circuit outcome.state = { circuit current with
            probeHolderId := some holderId.text
            probeExpiresAt := some (now + probeWindowMicroseconds) }) := by
  dsimp only [evaluateTryAcquireManualPermit] at h
  split at h
  · obtain rfl := Except.ok.inj h
    exact .inl ⟨by simp [Acquired], rfl⟩
  rename_i hunblocked
  obtain ⟨⟨concurrency, reserved⟩, hslot, h⟩ := bind_eq_ok.1 h
  obtain ⟨slots, rfl⟩ := acquireConcurrencySlot_eq_ok hslot
  split at h
  · obtain rfl := Except.ok.inj h
    exact .inl ⟨by simp [Acquired], rfl⟩
  dsimp only at h
  have hconsumed : circuit (consumeRateLimitTokenIfConfigured throttler { current with slots } now
      concurrency.acquiredSlotSuffix).2 = circuit current := consume_circuit
  split at h
  · obtain rfl := Except.ok.inj h
    exact .inl ⟨by simp [Acquired], hconsumed⟩
  split at h
  · rename_i hprobe
    obtain ⟨probeExpiresAt, hexpires, h⟩ := bind_eq_ok.1 h
    obtain rfl := Except.ok.inj h
    rw [addDurationToTimestamp_eq_ok hexpires]
    refine .inr ⟨rfl, _, rfl, rfl, .inr ⟨hprobe, rfl, ?_⟩⟩
    rw [← hconsumed]
    rfl
  · rename_i hnoProbe
    obtain rfl := Except.ok.inj h
    refine .inr ⟨rfl, _, rfl, rfl, .inl ⟨?_, rfl, hconsumed⟩⟩
    cases hdecision : shouldBlockForOpenCircuit throttler current now (some holderId) with
    | allowNormally => rfl
    | allowProbe => exact absurd hdecision hnoProbe
    | block => exact absurd hdecision hunblocked

section Release

variable {permit : ThrottlerPermit} {task : ThrottlerTaskOutcome} {result : ThrottlerReleaseResult}

theorem releaseOwned_circuit :
    circuit (releaseOwnedConcurrencySlot throttler state permit).2 = circuit state := by
  unfold releaseOwnedConcurrencySlot
  split
  · rfl
  · split <;> rfl

/-- A recorded failure opens the circuit or leaves it below its threshold, and an open
circuit blocks from its last failure on. -/
theorem sound_applyTaskOutcome {updated : Bool} (hbreaker : throttler.circuitBreaker = some breaker)
    (h : applyTaskOutcomeToCircuitState throttler state now task = (updated, state'))
    (hsound : Sound breaker faultedAt (circuit state)) :
    Sound breaker (if task = .failed ∧ updated then some now else faultedAt) (circuit state') ∧
      state'.probeHolderId = state.probeHolderId ∧
      state'.probeExpiresAtUnixMicroseconds = state.probeExpiresAtUnixMicroseconds := by
  simp only [applyTaskOutcomeToCircuitState, hbreaker] at h
  cases task with
  | notExecuted =>
      obtain ⟨rfl, rfl⟩ := Prod.mk.inj h
      simpa using hsound
  | failed =>
      dsimp only at h
      split at h
      · obtain ⟨rfl, rfl⟩ := Prod.mk.inj h
        exact ⟨⟨now, rfl, rfl⟩, rfl, rfl⟩
      · rename_i hstays
        split at h
        · rename_i hopened
          obtain ⟨rfl, rfl⟩ := Prod.mk.inj h
          simp [Sound, circuit, hopened]
        · rename_i hnot
          obtain ⟨rfl, rfl⟩ := Prod.mk.inj h
          cases hstate : state.circuitState with
          | opened => exact absurd hstate hnot
          | closed =>
              simp only [hstate, true_and, not_le] at hstays
              simp only [Sound, circuit, hstate] at hsound ⊢
              exact ⟨⟨hsound.1, hstays⟩, trivial, trivial⟩
  | succeeded =>
      dsimp only at h
      split at h
      · obtain ⟨rfl, rfl⟩ := Prod.mk.inj h
        simpa using hsound
      · obtain ⟨rfl, rfl⟩ := Prod.mk.inj h
        exact ⟨⟨rfl, breaker.positive⟩, rfl, rfl⟩

/-- A release clears the probe reservation of its own holder and of nobody else. -/
theorem clearProbe_circuit : circuit (clearProbeIfOwned state permit).2 = circuit state ∨
    ∃ holderId, permit.holderId = some holderId ∧ state.probeHolderId = some holderId.text ∧
      circuit (clearProbeIfOwned state permit).2 =
        { circuit state with probeHolderId := none, probeExpiresAt := none } := by
  unfold clearProbeIfOwned
  split
  · exact .inl rfl
  · rename_i holderId hholder
    split
    · rename_i howned
      exact .inr ⟨holderId, hholder, howned, rfl⟩
    · exact .inl rfl

theorem applyRelease_circuit (hbreaker : throttler.circuitBreaker = some breaker)
    (h : applyReleaseAndOutcome throttler state now permit task = (result, state'))
    (hsound : Sound breaker faultedAt (circuit state)) :
    Sound breaker (if task = .failed ∧
      result.circuitStateUpdated then some now else faultedAt) (circuit state') ∧
      (state'.probeHolderId = state.probeHolderId ∧
          state'.probeExpiresAtUnixMicroseconds = state.probeExpiresAtUnixMicroseconds ∨
        ∃ holderId, permit.holderId = some holderId ∧ state.probeHolderId = some holderId.text) := by
  simp only [applyReleaseAndOutcome, hbreaker, Option.isNone_some,
    Bool.false_eq_true, if_false, Prod.mk.injEq] at h
  obtain ⟨rfl, rfl⟩ := h
  have hreleased : circuit (releaseOwnedConcurrencySlot throttler state permit).2 =
    circuit state := releaseOwned_circuit
  obtain ⟨hsound', hholder, hexpires⟩ := sound_applyTaskOutcome hbreaker rfl (hreleased.symm ▸ hsound)
  have hholder' := hholder.trans (congrArg Circuit.probeHolderId hreleased)
  have hexpires' := hexpires.trans (congrArg Circuit.probeExpiresAt hreleased)
  rcases clearProbe_circuit with hsame | ⟨holderId, hpermit, howned, hcleared⟩
  · rw [hsame]
    exact ⟨hsound', .inl ⟨(congrArg Circuit.probeHolderId hsame).trans hholder',
      (congrArg Circuit.probeExpiresAt hsame).trans hexpires'⟩⟩
  · rw [hcleared]
    exact ⟨hsound', .inr ⟨holderId, hpermit, hholder'.symm.trans howned⟩⟩

end Release

/-- The stored row tells what the circuit is, and lasts as long as an open one blocks. -/
structure Stored (breaker : ResolvedThrottlerCircuitBreaker)
    (faultedAt : Option Int) (row : Row (ThrottlerState T)) :
    Prop where
  sound : Sound breaker faultedAt (circuit row.value)
  lasts : row.value.circuitState = .opened → ∀ openedAt, faultedAt = some openedAt →
    ∃ expiresAt, row.expiresAt = some expiresAt ∧
      openedAt + ceilMicroseconds breaker.recoveryTimeout ≤ expiresAt

/-- The row reserves the probe for the holder, and lasts as long as the reservation. -/
structure Reserves (row : Row (ThrottlerState T)) (holderId : HolderId) (endsAt : Int) : Prop where
  holder : row.value.probeHolderId = some holderId.text
  expires : row.value.probeExpiresAtUnixMicroseconds = some endsAt
  lasts : ∃ expiresAt, row.expiresAt = some expiresAt ∧ endsAt ≤ expiresAt

/-- Every reservation that has not ended is the one in the row. -/
structure Inv (breaker : ResolvedThrottlerCircuitBreaker) (moment : Int) (s : System T) : Prop where
  faulted : ∀ since, s.faultedAt = some since → since ≤ moment
  stored : ∀ row, s.cell = some row → Stored breaker s.faultedAt row
  reserved : ∀ holderId grant endsAt, s.grants holderId = some grant → grant.released = false →
    grant.reservedUntil = some endsAt → moment < endsAt →
      ∃ row, s.cell = some row ∧ Reserves row holderId endsAt
  bounded : ∀ holderId grant endsAt, s.grants holderId = some grant →
    grant.reservedUntil = some endsAt →
    endsAt ≤ moment + probeWindowMicroseconds
  named : ∀ holderId grant, s.grants holderId = some grant → grant.permit.holderId = some holderId

variable {s : System T} {moment moment' : Int} {cell' : Cell T} {delay : Nat} {row : Row (ThrottlerState T)}
  {other : HolderId} {grant : Grant} {endsAt : Int}

theorem inv_start (breaker : ResolvedThrottlerCircuitBreaker) (moment : Int) :
    Inv breaker moment (start : System T) := by
  constructor <;> simp [start]

theorem Inv.later (h : Inv breaker moment s) (hle : moment ≤ moment') : Inv breaker moment' s where
  faulted since hsince := (h.faulted since hsince).trans hle
  stored := h.stored
  reserved holderId grant endsAt hgrant hreleased hends hlt :=
    h.reserved holderId grant endsAt hgrant hreleased hends (hle.trans_lt hlt)
  bounded holderId grant endsAt hgrant hends :=
    (h.bounded holderId grant endsAt hgrant hends).trans (by omega)
  named := h.named

theorem stored_written (hbreaker : throttler.circuitBreaker = some breaker)
    (hset : setValueAndTtl (now + delay) row.value throttler.stateTtl = .ok row)
    (hsound : Sound breaker faultedAt (circuit row.value))
    (hfaulted : ∀ since, faultedAt = some since → since ≤ now) :
    Stored breaker faultedAt row := by
  refine ⟨hsound, fun _ openedAt hopened => ?_⟩
  obtain ⟨expiresAt, hexpires, hlasts⟩ := expiresAt_covers_recovery hbreaker hset
  have hle := hfaulted openedAt hopened
  exact ⟨expiresAt, hexpires, by omega⟩

theorem reserves_written (hbreaker : throttler.circuitBreaker = some breaker)
    (hset : setValueAndTtl (now + delay) row.value throttler.stateTtl = .ok row)
    (hholder : row.value.probeHolderId = some holderId.text)
    (hexpires : row.value.probeExpiresAtUnixMicroseconds = some endsAt)
    (hbounded : endsAt ≤ now + probeWindowMicroseconds) : Reserves row holderId endsAt := by
  refine ⟨hholder, hexpires, ?_⟩
  obtain ⟨expiresAt, hrow, hlasts⟩ := expiresAt_covers_probeWindow hbreaker hset
  exact ⟨expiresAt, hrow, by unfold probeWindowMicroseconds at hbounded; omega⟩

theorem liveValue_of_reserves (h : Reserves row holderId endsAt) (hlt : now < endsAt) :
    liveValue now (some row) = some row.value := by
  obtain ⟨expiresAt, hexpires, hle⟩ := h.lasts
  have hlive : row.isLive now := by simpa [Row.isLive, hexpires] using hlt.trans_le hle
  rw [liveValue_some, if_pos hlive]

/-- The live state, or a fresh one, tells what the circuit is. -/
theorem Inv.sound_current [TokenNumber T] (h : Inv breaker moment s) (throttler : Throttler) (now : Int) :
    Sound breaker s.faultedAt (circuit ((liveValue now s.cell).getD (throttler.initialState now))) := by
  cases hcell : s.cell with
  | none => exact sound_initialState throttler breaker _ now
  | some row =>
      rw [liveValue_some]
      split
      · exact (h.stored row hcell).sound
      · exact sound_initialState throttler breaker _ now

/-- A reservation that has not ended is in the live state. -/
theorem Inv.reservation (h : Inv breaker now s)
    (hgrant : s.grants other = some grant) (hreleased : grant.released = false)
    (hends : grant.reservedUntil = some endsAt) (hlt : now < endsAt) :
    ∃ state, liveValue now s.cell = some state ∧ state.probeHolderId = some other.text ∧
      state.probeExpiresAtUnixMicroseconds = some endsAt := by
  obtain ⟨row, hcell, hreserves⟩ := h.reserved other grant endsAt hgrant hreleased hends hlt
  exact ⟨row.value, hcell ▸ liveValue_of_reserves hreserves hlt, hreserves.holder, hreserves.expires⟩

/-- The invariant after an operation that has written the row. -/
theorem Inv.written (h : Inv breaker now s) {grants : HolderId → Option Grant}
    (hbreaker : throttler.circuitBreaker = some breaker)
    (hset : setValueAndTtl (now + delay) row.value throttler.stateTtl = .ok row)
    (hsound : Sound breaker faultedAt (circuit row.value))
    (hfaulted : faultedAt = s.faultedAt ∨ faultedAt = some now)
    (hnamed : ∀ holderId grant, grants holderId = some grant → grant.permit.holderId = some holderId)
    (hbounded : ∀ holderId grant endsAt,
      grants holderId = some grant → grant.reservedUntil = some endsAt →
      endsAt ≤ now + probeWindowMicroseconds)
    (hreserved : ∀ holderId grant endsAt, grants holderId = some grant → grant.released = false →
      grant.reservedUntil = some endsAt → now < endsAt →
      row.value.probeHolderId = some holderId.text ∧
        row.value.probeExpiresAtUnixMicroseconds = some endsAt) :
    Inv breaker now ⟨some row, faultedAt, grants⟩ := by
  have hrecent : ∀ since, faultedAt = some since → since ≤ now := by
    rcases hfaulted with rfl | rfl
    · exact h.faulted
    · rintro _ ⟨⟩
      exact le_rfl
  refine ⟨hrecent, ?_, ?_, hbounded, hnamed⟩
  · rintro _ ⟨⟩
    exact stored_written hbreaker hset hsound hrecent
  · intro holderId grant endsAt hgrant hreleased hends hlt
    obtain ⟨hholder, hexpires⟩ := hreserved holderId grant endsAt hgrant hreleased hends hlt
    exact ⟨row, rfl, reserves_written hbreaker hset hholder
      hexpires (hbounded holderId grant endsAt hgrant hends)⟩

/-- A row that keeps what the live state reserves keeps every reservation. -/
theorem Inv.reserved_of_same (h : Inv breaker now s)
    (hsame : ∀ state, liveValue now s.cell = some state →
      row.value.probeHolderId = state.probeHolderId ∧
      row.value.probeExpiresAtUnixMicroseconds = state.probeExpiresAtUnixMicroseconds)
    (hgrant : s.grants other = some grant) (hreleased : grant.released = false)
    (hends : grant.reservedUntil = some endsAt) (hlt : now < endsAt) :
    row.value.probeHolderId = some other.text ∧
      row.value.probeExpiresAtUnixMicroseconds = some endsAt := by
  obtain ⟨state, hlive, hholder, hexpires⟩ := h.reservation hgrant hreleased hends hlt
  obtain ⟨hholder', hexpires'⟩ := hsame state hlive
  exact ⟨hholder'.trans hholder, hexpires'.trans hexpires⟩

theorem update_cases {grants : HolderId → Option Grant} {grant' : Grant}
    (h : Function.update grants holderId (some grant) other = some grant') :
    other = holderId ∧ grant' = grant ∨ other ≠ holderId ∧ grants other = some grant' := by
  by_cases hne : other = holderId
  · subst hne
    rw [Function.update_self] at h
    exact .inl ⟨rfl, (Option.some.inj h).symm⟩
  · rw [Function.update_of_ne hne] at h
    exact .inr ⟨hne, h⟩

/-- The invariant after an operation that has written the row for a holder. -/
theorem Inv.written_for (h : Inv breaker now s) (hbreaker : throttler.circuitBreaker = some breaker)
    (hset : setValueAndTtl (now + delay) row.value throttler.stateTtl = .ok row)
    (hsound : Sound breaker faultedAt (circuit row.value))
    (hfaulted : faultedAt = s.faultedAt ∨ faultedAt = some now)
    (hnamed : grant.permit.holderId = some holderId)
    (hbounded : ∀ endsAt, grant.reservedUntil = some endsAt → endsAt ≤ now + probeWindowMicroseconds)
    (hown : ∀ endsAt, grant.released = false → grant.reservedUntil = some endsAt → now < endsAt →
      row.value.probeHolderId = some holderId.text ∧
        row.value.probeExpiresAtUnixMicroseconds = some endsAt)
    (hothers : ∀ other state, other ≠ holderId → liveValue now s.cell = some state →
      state.probeHolderId = some other.text → state.probeExpiresAtUnixMicroseconds.any (now < ·) →
      row.value.probeHolderId = state.probeHolderId ∧
        row.value.probeExpiresAtUnixMicroseconds = state.probeExpiresAtUnixMicroseconds) :
    Inv breaker now ⟨some row, faultedAt, Function.update s.grants holderId (some grant)⟩ := by
  refine h.written hbreaker hset hsound hfaulted ?_ ?_ ?_
  · intro other grant' hother
    rcases update_cases hother with ⟨rfl, rfl⟩ | ⟨-, hold⟩
    · exact hnamed
    · exact h.named other grant' hold
  · intro other grant' endsAt hother hends
    rcases update_cases hother with ⟨rfl, rfl⟩ | ⟨-, hold⟩
    · exact hbounded endsAt hends
    · exact h.bounded other grant' endsAt hold hends
  · intro other grant' endsAt hother hreleased hends hlt
    rcases update_cases hother with ⟨rfl, rfl⟩ | ⟨hne, hold⟩
    · exact hown endsAt hreleased hends hlt
    · refine h.reserved_of_same (fun state hlive => ?_) hold hreleased hends hlt
      obtain ⟨state', hlive', hholder, hexpires⟩ := h.reservation hold hreleased hends hlt
      cases hlive.symm.trans hlive'
      exact hothers other state hne hlive hholder (by simpa [hexpires] using hlt)

/-- The invariant after a release that has left the row alone. -/
theorem Inv.marked_released (h : Inv breaker now s) (hgrant : s.grants holderId = some grant) :
    Inv breaker now { s with
      grants := Function.update s.grants holderId (some { grant with released := true }) } := by
  refine ⟨h.faulted, h.stored, ?_, ?_, ?_⟩
  · intro other grant' endsAt hother hreleased hends hlt
    rcases update_cases hother with ⟨rfl, rfl⟩ | ⟨-, hold⟩
    · cases hreleased
    · exact h.reserved other grant' endsAt hold hreleased hends hlt
  · intro other grant' endsAt hother hends
    rcases update_cases hother with ⟨rfl, rfl⟩ | ⟨-, hold⟩
    · exact h.bounded other grant endsAt hgrant hends
    · exact h.bounded other grant' endsAt hold hends
  · intro other grant' hother
    rcases update_cases hother with ⟨rfl, rfl⟩ | ⟨-, hold⟩
    · exact h.named other grant hgrant
    · exact h.named other grant' hold

theorem Grant.reserved_iff : grant.Reserved moment ↔
    grant.released = false ∧ ∃ endsAt, grant.reservedUntil = some endsAt ∧ moment < endsAt := by
  simp [Grant.Reserved, Option.any_eq_true]

theorem Inv.row_of_reserved (h : Inv breaker moment s) (hgrant : s.grants holderId = some grant)
    (hreserved : grant.Reserved moment) : ∃ row, s.cell = some row ∧ row.isLive moment ∧
      row.value.probeHolderId = some holderId.text ∧
        row.value.probeExpiresAtUnixMicroseconds = grant.reservedUntil := by
  obtain ⟨hreleased, endsAt, hends, hlt⟩ := Grant.reserved_iff.1 hreserved
  obtain ⟨row, hcell, hholder, hexpires, expiresAt, hrow, hle⟩ :=
    h.reserved holderId grant endsAt hgrant hreleased hends hlt
  have hlive : row.isLive moment := by simpa [Row.isLive, hrow] using hlt.trans_le hle
  exact ⟨row, hcell, hlive, hholder, hexpires.trans hends.symm⟩

variable [TokenNumber T]

theorem Inv.acquire_refused {result : ThrottlerManualPermitAcquireResult T} (h : Inv breaker now s)
    (hbreaker : throttler.circuitBreaker = some breaker)
    (hacquire : tryAcquireWithOptionalHolder throttler now delay (some holderId) s.cell =
      .ok (result, cell'))
    (hrefused : ¬Acquired result) : Inv breaker now { s with cell := cell' } := by
  obtain ⟨outcome, hevaluate, rfl, hcell⟩ := tryAcquire_eq_ok hacquire
  have hsound := h.sound_current throttler now
  rcases hcell with ⟨-, -, rfl⟩ | ⟨row, rfl, hset, ⟨-, hvalue⟩ | ⟨-, hnone, hvalue⟩⟩
  · exact h
  · rcases evaluate_circuit hevaluate with ⟨-, hsame⟩ | ⟨-, permit, hgrant, -⟩
    · rw [← hvalue] at hsame
      refine h.written hbreaker hset (hsame ▸ hsound) (.inl rfl) h.named h.bounded ?_
      intro other grant endsAt hgrant hreleased hends hlt
      refine h.reserved_of_same (fun state hlive => ?_) hgrant hreleased hends hlt
      rw [hlive, Option.getD_some] at hsame
      exact ⟨congrArg Circuit.probeHolderId hsame, congrArg Circuit.probeExpiresAt hsame⟩
    · exact absurd ⟨permit, hgrant⟩ hrefused
  · refine h.written hbreaker hset ?_ (.inl rfl) h.named h.bounded ?_
    · rw [hvalue]
      exact sound_initialState throttler breaker _ now
    · intro other grant endsAt hgrant hreleased hends hlt
      obtain ⟨state, hlive, -⟩ := h.reservation hgrant hreleased hends hlt
      cases hnone.symm.trans hlive

/-- Nobody is granted the probe while another holder has it. -/
theorem Inv.acquire_granted {permit : ThrottlerPermit} (h : Inv breaker now s)
    (hbreaker : throttler.circuitBreaker = some breaker)
    (hacquire : tryAcquireWithOptionalHolder throttler now delay (some holderId) s.cell =
      .ok (.acquired permit, cell')) :
    Inv breaker now { s with
      cell := cell'
      grants := Function.update s.grants holderId
        (some ⟨permit, if permit.probeAcquired then some (now + probeWindowMicroseconds) else none, false⟩) } :=
      by
  obtain ⟨outcome, hevaluate, hresult, hcell⟩ := tryAcquire_eq_ok hacquire
  have hsound := h.sound_current throttler now
  rcases evaluate_circuit hevaluate with ⟨hrefused, -⟩ | ⟨hwrite, permit', hgrant, hholder, hgate⟩
  · exact absurd ⟨permit, hresult.symm⟩ hrefused
  cases hresult.trans hgrant
  rcases hcell with ⟨hkeep, -⟩ | ⟨row, rfl, hset, ⟨-, hvalue⟩ | ⟨hkeep, -⟩⟩
  · exact absurd hwrite hkeep
  · rw [← hvalue] at hgate
    rcases hgate with ⟨-, hprobe, hsame⟩ | ⟨hallowed, hprobe, htaken⟩
    · simp only [hprobe, Bool.false_eq_true, if_false]
      refine h.written_for hbreaker hset (hsame ▸ hsound) (.inl rfl) hholder nofun nofun ?_
      rintro other state - hlive - -
      rw [hlive, Option.getD_some] at hsame
      exact ⟨congrArg Circuit.probeHolderId hsame, congrArg Circuit.probeExpiresAt hsame⟩
    · simp only [hprobe, if_true]
      refine h.written_for hbreaker hset ?_ (.inl rfl) hholder ?_ ?_ ?_
      · rw [htaken]
        exact hsound
      · rintro _ ⟨⟩
        exact le_rfl
      · rintro _ - ⟨⟩ -
        exact ⟨congrArg Circuit.probeHolderId htaken, congrArg Circuit.probeExpiresAt htaken⟩
      · intro other state hne hlive hreserved hexpires
        -- The gate would have blocked this acquisition.
        rw [hlive, Option.getD_some] at hallowed hsound
        cases hstate : state.circuitState with
        | closed =>
            rw [gate_closed hstate] at hallowed
            cases hallowed
        | opened =>
            simp only [Sound, circuit, hstate] at hsound
            obtain ⟨openedAt, hsince, -⟩ := hsound
            rcases gate_opened hbreaker hstate hsince
              (some holderId) with ⟨-, -, hmatches⟩ | ⟨hblocked, -⟩
            · have hsameHolder := hmatches other.text hreserved hexpires
              simp only [Option.any_some, decide_eq_true_eq] at hsameHolder
              exact absurd (ThrottlerSlots.HolderId.eq_of_text hsameHolder).symm hne
            · cases hblocked.symm.trans hallowed
  · exact absurd hwrite hkeep

/-- A release frees the reservation of its own holder and of nobody else. -/
theorem Inv.release {task : ThrottlerTaskOutcome}
    {result : ThrottlerReleaseResult} (h : Inv breaker now s)
    (hbreaker : throttler.circuitBreaker = some breaker) (hgrant : s.grants holderId = some grant)
    (hrelease : releaseManualPermitAfterTaskOutcome throttler now delay grant.permit task s.cell =
      .ok (result, cell')) :
    Inv breaker now ⟨cell',
      if task = .failed ∧ result.circuitStateUpdated then some now else s.faultedAt,
      Function.update s.grants holderId (some { grant with released := true })⟩ := by
  have hnamed := h.named holderId grant hgrant
  rcases release_eq_ok hrelease with ⟨hunmodified, rfl⟩ | ⟨current, row, hlive, rfl, hset, happlied⟩
  · have hupdated : result.circuitStateUpdated = false := by
      simp only [ThrottlerReleaseResult.stateWasModified, Bool.or_eq_false_iff] at hunmodified
      exact hunmodified.1.2
    simp only [hupdated, Bool.false_eq_true, and_false, if_false]
    exact h.marked_released hgrant
  · have hsound := h.sound_current throttler now
    rw [hlive, Option.getD_some] at hsound
    obtain ⟨hsound', hprobe⟩ := applyRelease_circuit hbreaker happlied hsound
    refine h.written_for hbreaker hset hsound' ?_ hnamed ?_ nofun ?_
    · split
      · exact .inr rfl
      · exact .inl rfl
    · exact fun endsAt hends => h.bounded holderId grant endsAt hgrant hends
    · intro other state hne hstate hreserved hexpires
      cases hlive.symm.trans hstate
      rcases hprobe with hkept | ⟨holder, hholder, howned⟩
      · exact hkept
      · rw [hnamed] at hholder
        cases hholder
        exact absurd (ThrottlerSlots.HolderId.eq_of_text
          (Option.some.inj (hreserved.symm.trans howned))) hne

/-- Only the holder that has the reservation extends it. -/
theorem Inv.extend (h : Inv breaker now s) (hbreaker : throttler.circuitBreaker = some breaker)
    (hgrant : s.grants holderId = some grant)
    (hextend : extendProbeReservation throttler now delay grant.permit s.cell = .ok (true, cell')) :
    Inv breaker now { s with
      cell := cell'
      grants := Function.update s.grants holderId
        (some { grant with reservedUntil := some (now + probeWindowMicroseconds) }) } := by
  have hnamed := h.named holderId grant hgrant
  rcases extend_eq_ok hextend with ⟨hnot, -⟩ |
    ⟨-, current, row, holder, probeExpiresAt, extendedTo, hlive, rfl, hset,
    hholder, hopened, howned, -, -, hextended, hvalue⟩
  · cases hnot
  rw [hnamed] at hholder
  cases hholder
  rw [addDurationToTimestamp_eq_ok hextended] at hvalue
  have hsound := h.sound_current throttler now
  rw [hlive, Option.getD_some] at hsound
  refine h.written_for hbreaker hset ?_ (.inl rfl) hnamed ?_ ?_ ?_
  · rw [hvalue]
    exact hsound
  · rintro _ ⟨⟩
    exact le_rfl
  · rintro _ - ⟨⟩ -
    rw [hvalue]
    exact ⟨howned, rfl⟩
  · intro other state hne hstate hreserved hexpires
    cases hlive.symm.trans hstate
    exact absurd (ThrottlerSlots.HolderId.eq_of_text
      (Option.some.inj (hreserved.symm.trans howned))) hne

theorem Inv.setCircuitState {circuitState : ThrottlerCircuitState}
    {setOpenedAt resetConsecutiveFailures : Bool}
    (h : Inv breaker now s) (hbreaker : throttler.circuitBreaker = some breaker)
    (hset : setCircuitState throttler now delay circuitState
      setOpenedAt resetConsecutiveFailures s.cell = .ok ((), cell'))
    (hsound : ∀ state : ThrottlerState T, Sound breaker faultedAt
      (circuit (withCircuitState circuitState setOpenedAt resetConsecutiveFailures now state)))
    (hfaulted : faultedAt = s.faultedAt ∨ faultedAt = some now) :
    Inv breaker now ⟨cell', faultedAt, freed s.grants⟩ := by
  obtain ⟨row, rfl, hset, hvalue⟩ := setCircuitState_eq_ok hbreaker hset
  have hfreed : ∀ other grant, freed s.grants other = some grant → grant.reservedUntil = none ∧
      grant.permit.holderId = some other := by
    intro other grant hother
    obtain ⟨grant', hgrant', rfl⟩ := Option.map_eq_some_iff.1 hother
    exact ⟨rfl, h.named other grant' hgrant'⟩
  refine h.written hbreaker hset (hvalue ▸ hsound _) hfaulted
    (fun other grant hother => (hfreed other grant hother).2) ?_ ?_
  · intro other grant endsAt hother hends
    rw [(hfreed other grant hother).1] at hends
    cases hends
  · rintro other grant endsAt hother - hends
    rw [(hfreed other grant hother).1] at hends
    cases hends

theorem inv_step {i : Input} (hbreaker : throttler.circuitBreaker = some breaker)
    (h : Inv breaker i.now s) :
    Inv breaker i.now (step throttler i s).1 := by
  obtain ⟨now, delay, operation⟩ := i
  cases operation with
  | acquire holderId =>
      simp only [step]
      split
      · exact h
      · split
        · rename_i hacquire
          exact h.acquire_granted hbreaker hacquire
        · rename_i result cell hrefused hacquire
          refine h.acquire_refused hbreaker hacquire ?_
          rintro ⟨permit, rfl⟩
          exact hrefused permit rfl
        · exact h
  | release holderId task =>
      simp only [step]
      split
      · exact h
      · rename_i grant hgrant
        split
        · rename_i hrelease
          exact h.release hbreaker hgrant hrelease
        · exact h
  | extendProbe holderId =>
      simp only [step]
      split
      · exact h
      · rename_i grant hgrant
        split
        · rename_i hextend
          exact h.extend hbreaker hgrant hextend
        · rename_i hextend
          rcases extend_eq_ok hextend with ⟨-, rfl⟩ | ⟨hextended, -⟩
          · exact h
          · cases hextended
        · exact h
  | openCircuit =>
      simp only [step]
      split
      · rename_i hopen
        exact h.setCircuitState hbreaker hopen (fun state => ⟨now, rfl, rfl⟩) (.inr rfl)
      · exact h
  | closeCircuit =>
      simp only [step]
      split
      · rename_i hclose
        exact h.setCircuitState hbreaker hclose (fun state => ⟨rfl, breaker.positive⟩) (.inl rfl)
      · exact h

theorem inv_exec {inputs : List Input} (hbreaker : throttler.circuitBreaker = some breaker)
    (hsorted : (inputs.map (·.now)).Pairwise (· ≤ ·)) (hlater : ∀ i ∈ inputs, moment ≤ i.now)
    (h : Inv breaker moment s) (hend : moment ≤ moment') (hbefore : ∀ i ∈ inputs, i.now ≤ moment') :
    Inv breaker moment' (exec (step throttler) inputs s) := by
  induction inputs generalizing s moment with
  | nil => exact h.later hend
  | cons i inputs ih =>
      rw [List.map_cons, List.pairwise_cons] at hsorted
      have hstep := inv_step hbreaker (h.later (hlater i List.mem_cons_self))
      exact ih hsorted.2 (fun j hj => hsorted.1 _ (List.mem_map_of_mem hj))
        hstep (hbefore i List.mem_cons_self)
        fun j hj => hbefore j (List.mem_cons_of_mem _ hj)

theorem inv_reachable (throttler : Throttler)
    (hbreaker : throttler.circuitBreaker = some breaker) (inputs : List Input)
    (hsorted : (inputs.map (·.now)).Pairwise (· ≤ ·)) (hmoment : ∀ i ∈ inputs, i.now ≤ moment) :
    Inv breaker moment (exec (step throttler) inputs (start : System T)) := by
  cases inputs with
  | nil => exact inv_start breaker moment
  | cons i inputs =>
      have hfirst : ∀ j ∈ i :: inputs, i.now ≤ j.now := by
        rw [List.map_cons, List.pairwise_cons] at hsorted
        rw [List.forall_mem_cons]
        exact ⟨le_rfl, fun j hj => hsorted.1 _ (List.mem_map_of_mem hj)⟩
      exact inv_exec hbreaker hsorted hfirst (inv_start breaker i.now)
        (hmoment i List.mem_cons_self) hmoment

/-- A recovering circuit refuses every acquisition, and its row stays. -/
theorem acquire_blocked {openedAt : Int}
    (hbreaker : throttler.circuitBreaker = some breaker) (hlive : row.isLive now)
    (hopened : row.value.circuitState = .opened)
    (hsince : row.value.circuitOpenedAtUnixMicroseconds = some openedAt)
    (hrecovering : Recovering breaker openedAt now) (holderId : Option HolderId) :
    tryAcquireWithOptionalHolder throttler now delay holderId (some row) =
      .ok (.circuitOpen, some row) := by
  have hgate : shouldBlockForOpenCircuit throttler row.value now holderId = .block := by
    rcases gate_opened hbreaker hopened hsince holderId with ⟨-, hnot, -⟩ | ⟨hblock, -⟩
    · exact absurd hrecovering hnot
    · exact hblock
  have hevaluate : evaluateTryAcquireManualPermit throttler row.value now holderId =
      .ok ⟨.circuitOpen, row.value, false⟩ := by
    simp [evaluateTryAcquireManualPermit, hgate]
  simp [tryAcquireWithOptionalHolder, mutateLiveKeyOrInsertInitialValueAtomically,
    liveOrInitial, mutateKeyAtomically, liveValue_some, hlive,
    hevaluate]

/-- The rate and the slots allow an acquisition. -/
structure Allowed (throttler : Throttler) (state : ThrottlerState T) (now : Int) : Prop where
  slot : ∀ limit, throttler.concurrencyLimit = some limit →
    (firstFreeSlot limit.maxConcurrent (retainLiveSlots now state.slots)).isSome
  token : ∀ limit, throttler.rateLimit = some limit → ofInt 1 ≤ (refill limit state now).tokens

/-- The timestamps that an acquisition stores are in range. -/
structure InRange (throttler : Throttler) (now : Int) (delay : Nat) : Prop where
  row : ∃ row, setValueAndTtl (now + delay) () throttler.stateTtl = .ok row
  probe : now + probeWindowMicroseconds ≤ i64Max
  slot : ∀ limit, throttler.concurrencyLimit = some limit →
    now + ceilMicroseconds limit.maxHoldDuration ≤ i64Max

theorem addDurationToTimestamp_of_le {duration : Nat} (hadmitted : AdmittedDuration duration)
    (hrange : now + ceilMicroseconds duration ≤ i64Max) :
    addDurationToTimestamp now duration = .ok (now + ceilMicroseconds duration) := by
  simp [addDurationToTimestamp, ThrottlerModel.durationToRoundedMicroseconds, hadmitted.2, hrange]

theorem setValueAndTtl_of_unit {V : Type} {ttl : Ttl}
    {unit : Row Unit} (h : setValueAndTtl now () ttl = .ok unit)
    (value : V) : ∃ row, setValueAndTtl now value ttl = .ok row := by
  unfold setValueAndTtl at *
  split
  · exact ⟨_, rfl⟩
  · rename_i microseconds hmicroseconds
    rw [hmicroseconds] at h
    dsimp only at h
    split at h
    · cases h
    · exact ⟨_, rfl⟩

theorem acquireConcurrencySlot_of_allowed (hallowed : Allowed throttler state now)
    (hrange : InRange throttler now delay)
    (holderId : HolderId) : ∃ concurrency slots, concurrency.noSlotAvailable = false ∧
      acquireConcurrencySlotIfConfigured throttler state now (some holderId) =
        .ok (concurrency, { state with slots }) := by
  cases hlimit : throttler.concurrencyLimit with
  | none =>
      exact ⟨⟨false, false, none⟩, state.slots, rfl,
        by simp [acquireConcurrencySlotIfConfigured, hlimit]⟩
  | some limit =>
      obtain ⟨slotNumber, hslot⟩ := Option.isSome_iff_exists.1 (hallowed.slot limit hlimit)
      have hexpires := addDurationToTimestamp_of_le limit.admitted (hrange.slot limit hlimit)
      exact ⟨⟨true, false, some slotNumber⟩, _, rfl, by
        simp [acquireConcurrencySlotIfConfigured, hlimit, hslot, hexpires]; rfl⟩

/-- Where the gate does not block, the rate and the slots decide. -/
theorem evaluate_of_allowed
    (hgate : shouldBlockForOpenCircuit throttler state now (some holderId) ≠ .block)
    (hallowed : Allowed throttler state now) (hrange : InRange throttler now delay) :
    ∃ permit outcome, evaluateTryAcquireManualPermit throttler state now (some holderId) = .ok outcome ∧
      outcome.acquireResult = .acquired permit ∧ outcome.shouldWrite := by
  obtain ⟨concurrency, slots, havailable, hslot⟩ :=
    acquireConcurrencySlot_of_allowed hallowed hrange holderId
  have hunblocked : (consumeRateLimitTokenIfConfigured throttler { state with slots } now
      concurrency.acquiredSlotSuffix).1.blockedByRateLimit = false := by
    unfold consumeRateLimitTokenIfConfigured
    split
    · rfl
    · rename_i limit hlimit
      have htoken : ofInt 1 ≤ (refill limit { state with slots } now).tokens := hallowed.token limit hlimit
      dsimp only
      rw [if_pos htoken]
  have hwindow : AdmittedDuration defaultFleetThrottlerProbeWindow := by decide
  have hprobe := addDurationToTimestamp_of_le hwindow hrange.probe
  cases hdecision : shouldBlockForOpenCircuit throttler state now (some holderId) with
  | block => exact absurd hdecision hgate
  | allowNormally =>
      simp [evaluateTryAcquireManualPermit, hdecision, hslot, havailable, hunblocked]
  | allowProbe =>
      simp [evaluateTryAcquireManualPermit, hdecision, hslot, havailable, hunblocked, hprobe]

theorem acquired_of_allowed {cell : Cell T}
    (hgate : shouldBlockForOpenCircuit throttler
      ((liveValue now cell).getD (throttler.initialState now)) now
      (some holderId) ≠ .block)
    (hallowed : Allowed throttler ((liveValue now cell).getD (throttler.initialState now)) now)
    (hrange : InRange throttler now delay) :
    ∃ permit cell', tryAcquireWithOptionalHolder throttler now delay (some holderId) cell =
      .ok (.acquired permit, cell') := by
  obtain ⟨permit, outcome, hevaluate, hresult, hwrite⟩ := evaluate_of_allowed hgate hallowed hrange
  obtain ⟨unit, hunit⟩ := hrange.row
  obtain ⟨row, hset⟩ := setValueAndTtl_of_unit hunit outcome.state
  refine ⟨permit, some row, ?_⟩
  cases hlive : liveValue now cell with
  | none =>
      rw [hlive, Option.getD_none] at hevaluate
      simp [tryAcquireWithOptionalHolder,
        mutateLiveKeyOrInsertInitialValueAtomically, liveOrInitial, mutateKeyAtomically, hlive,
        hevaluate, hwrite, hresult, hset]
  | some current =>
      rw [hlive, Option.getD_some] at hevaluate
      simp [tryAcquireWithOptionalHolder,
        mutateLiveKeyOrInsertInitialValueAtomically, liveOrInitial, mutateKeyAtomically, hlive,
        hevaluate, hwrite, hresult, hset]

/-- After the recovery timeout and the end of the reservation, which the row outlasts or
ends with, the gate lets everybody pass. -/
theorem Inv.gate_passes (h : Inv breaker moment s)
    (hbreaker : throttler.circuitBreaker = some breaker) :
    ∃ later, moment ≤ later ∧
      (∀ row ∈ s.cell, ∀ expiresAt ∈ row.expiresAt, later ≤ max moment expiresAt) ∧
      ∀ now holderId, later ≤ now → shouldBlockForOpenCircuit throttler
        ((liveValue now s.cell).getD (throttler.initialState now)) now holderId ≠ .block := by
  cases hcell : s.cell with
  | none =>
      refine ⟨moment, le_rfl, fun row hrow => absurd hrow (Option.not_mem_none row),
        fun now holderId _ => ?_⟩
      rw [liveValue_none, Option.getD_none, gate_closed rfl]
      nofun
  | some row =>
      have hstored := h.stored row hcell
      cases hstate : row.value.circuitState with
      | closed =>
          refine ⟨moment, le_rfl, fun _ _ _ _ => le_max_left _ _, fun now holderId _ => ?_⟩
          rw [liveValue_some]
          split
          · rw [Option.getD_some, gate_closed hstate]
            nofun
          · rw [Option.getD_none, gate_closed rfl]
            nofun
      | opened =>
          have hsound := hstored.sound
          simp only [Sound, circuit, hstate] at hsound
          obtain ⟨openedAt, hsince, hfaulted⟩ := hsound
          obtain ⟨expiresAt, hexpires, hlasts⟩ := hstored.lasts hstate openedAt hfaulted
          refine ⟨max moment (max (openedAt + ceilMicroseconds breaker.recoveryTimeout)
            (min expiresAt (row.value.probeExpiresAtUnixMicroseconds.getD expiresAt))),
              le_max_left _ _, ?_, ?_⟩
          · rintro _ ⟨⟩ _ hexpires'
            rw [Option.mem_def, hexpires] at hexpires'
            cases hexpires'
            exact max_le_max le_rfl (max_le hlasts (min_le_left _ _))
          · intro now holderId hlater
            obtain ⟨hrecovered, hended⟩ := max_le_iff.1 (max_le_iff.1 hlater).2
            rw [liveValue_some]
            split
            · rename_i hlive
              rw [Option.getD_some]
              rcases gate_opened hbreaker hstate hsince
                holderId with ⟨hallowed, -⟩ | ⟨-, hrecovering | hprobe⟩
              · rw [hallowed]
                nofun
              · exact absurd hrecovering (not_lt.2 hrecovered)
              · -- The reservation would outlast the row.
                obtain ⟨probeExpiresAt, hprobeExpires, hlt⟩ := (Option.any_eq_true _ _).1 hprobe
                rw [hprobeExpires, Option.getD_some] at hended
                have hunexpired : now < expiresAt := by simpa [Row.isLive, hexpires] using hlive
                exact absurd hended (not_le.2 (lt_min hunexpired (of_decide_eq_true hlt)))
            · rw [Option.getD_none, gate_closed rfl]
              nofun

/-- Whoever is granted a permit while the circuit is open is granted the probe. -/
theorem Inv.probe_of_opened {permit : ThrottlerPermit} (h : Inv breaker moment s)
    (hbreaker : throttler.circuitBreaker = some breaker) (hlive : liveValue now s.cell = some state)
    (hopened : state.circuitState = .opened)
    (hacquire : tryAcquireWithOptionalHolder throttler now delay (some holderId) s.cell =
      .ok (.acquired permit, cell')) :
    permit.probeAcquired = true := by
  obtain ⟨outcome, hevaluate, hresult, -⟩ := tryAcquire_eq_ok hacquire
  have hsound := h.sound_current throttler now
  rw [hlive, Option.getD_some] at hevaluate hsound
  simp only [Sound, circuit, hopened] at hsound
  obtain ⟨openedAt, hsince, -⟩ := hsound
  rcases evaluate_circuit hevaluate with ⟨hrefused, -⟩ |
    ⟨-, permit', hgrant, -, ⟨hnormally, -⟩ | ⟨-, hprobe, -⟩⟩
  · exact absurd ⟨permit, hresult.symm⟩ hrefused
  · rcases gate_opened hbreaker hopened hsince (some holderId) with ⟨hgate, -⟩ | ⟨hgate, -⟩
    · cases hgate.symm.trans hnormally
    · cases hgate.symm.trans hnormally
  · cases hresult.trans hgrant
    exact hprobe

theorem circuit_safe (throttler : Throttler) (breaker : ResolvedThrottlerCircuitBreaker)
    (hbreaker : throttler.circuitBreaker = some breaker) (inputs : List Input)
    (hsorted : (inputs.map (·.now)).Pairwise (· ≤ ·))
    (moment : Int) (hmoment : ∀ i ∈ inputs, i.now ≤ moment) :
    let s : System T := exec (step throttler) inputs start
    (∀ row, s.cell = some row → row.value.circuitState = .opened →
      ∃ faultedAt expiresAt, s.faultedAt = some faultedAt ∧ row.expiresAt = some expiresAt ∧
        faultedAt + ceilMicroseconds breaker.recoveryTimeout ≤ expiresAt ∧
        ∀ now delay holderId, Recovering breaker faultedAt now →
          tryAcquireWithOptionalHolder throttler now delay holderId s.cell =
            .ok (.circuitOpen, s.cell)) ∧
    (∀ now delay holderId state permit cell,
      liveValue now s.cell = some state → state.circuitState = .opened →
      tryAcquireWithOptionalHolder throttler now delay (some holderId) s.cell =
        .ok (.acquired permit, cell) →
      permit.probeAcquired = true) ∧
    (∀ holderId grant, s.grants holderId = some grant → grant.Reserved moment →
      ∃ row, s.cell = some row ∧ row.isLive moment ∧ row.value.probeHolderId = some holderId.text ∧
        row.value.probeExpiresAtUnixMicroseconds = grant.reservedUntil) ∧
    (∀ holderId other grant grant', s.grants holderId = some grant → s.grants other = some grant' →
      grant.Reserved moment → grant'.Reserved moment → holderId = other) ∧
    (∀ row, s.cell = some row → row.value.circuitState = .closed →
      row.value.circuitOpenedAtUnixMicroseconds = none ∧
        row.value.consecutiveFailures < breaker.failureThreshold) ∧
    (∃ later, moment ≤ later ∧
      (∀ row ∈ s.cell, ∀ expiresAt ∈ row.expiresAt, later ≤ max moment expiresAt) ∧
      ∀ now delay holderId, later ≤ now →
        Allowed throttler ((liveValue now s.cell).getD (throttler.initialState now)) now →
          InRange throttler now delay →
        ∃ permit cell, tryAcquireWithOptionalHolder throttler now delay (some holderId) s.cell =
          .ok (.acquired permit, cell)) := by
  intro s
  have h : Inv breaker moment s := inv_reachable throttler hbreaker inputs hsorted hmoment
  refine ⟨?_, ?_, fun holderId grant => h.row_of_reserved, ?_, ?_, ?_⟩
  · intro row hcell hopened
    have hstored := h.stored row hcell
    have hsound := hstored.sound
    simp only [Sound, circuit, hopened] at hsound
    obtain ⟨openedAt, hsince, hfaulted⟩ := hsound
    obtain ⟨expiresAt, hexpires, hlasts⟩ := hstored.lasts hopened openedAt hfaulted
    refine ⟨openedAt, expiresAt, hfaulted, hexpires, hlasts, fun now delay holderId hrecovering => ?_⟩
    have hlive : row.isLive now := by
      simpa [Row.isLive, hexpires] using lt_of_lt_of_le hrecovering hlasts
    rw [hcell]
    exact acquire_blocked hbreaker hlive hopened hsince hrecovering holderId
  · intro now delay holderId state permit cell hlive hopened hacquire
    exact h.probe_of_opened hbreaker hlive hopened hacquire
  · intro holderId other grant grant' hgrant hgrant' hreserved hreserved'
    obtain ⟨row, hcell, -, hholder, -⟩ := h.row_of_reserved hgrant hreserved
    obtain ⟨row', hcell', -, hholder', -⟩ := h.row_of_reserved hgrant' hreserved'
    cases hcell.symm.trans hcell'
    exact ThrottlerSlots.HolderId.eq_of_text (Option.some.inj (hholder.symm.trans hholder'))
  · intro row hcell hclosed
    have hsound := (h.stored row hcell).sound
    simpa only [Sound, circuit, hclosed] using hsound
  · obtain ⟨later, hle, hbound, hpasses⟩ := h.gate_passes hbreaker
    refine ⟨later, hle, hbound, fun now delay holderId hlater hallowed hrange => ?_⟩
    exact acquired_of_allowed (hpasses now (some holderId) hlater) hallowed hrange

section HalfOpen

def touchyBreaker : ResolvedThrottlerCircuitBreaker := ⟨1, 1000000000, Nat.one_pos, admittedDuration_oneSecond⟩

def touchy : Throttler where
  key := "touchy"
  rateLimit := none
  concurrencyLimit := none
  circuitBreaker := some touchyBreaker
  stateTtl := ⟨some 50000000000, by decide, by decide⟩
  ttl_eq := by rfl

/-- The failure of one holder opens the circuit, and another holder probes it. -/
theorem circuit_safe_half_open :
    ∃ row, (exec (step touchy) [⟨0, 0, .acquire worker⟩, ⟨10, 0, .release worker .failed⟩,
    ⟨1000010, 0, .acquire stranger⟩] (start : System Binary64.Float64)).cell = some row ∧
      row.isLive 1500000 ∧
      row.value.probeHolderId = some stranger.text ∧
        row.value.probeExpiresAtUnixMicroseconds = some 6000010 :=
  (circuit_safe touchy touchyBreaker rfl _ (by decide) 1500000 (by decide)).2.2.1 stranger
    ⟨⟨"touchy", some stranger, none, true⟩, some 6000010, false⟩ rfl ⟨rfl, rfl⟩

end HalfOpen

section Glacial

/-- Nearly thirty thousand years. -/
def glacialBreaker : ResolvedThrottlerCircuitBreaker := ⟨1, 900000000000000000000, Nat.one_pos, by decide⟩

def glacial : Throttler where
  key := "glacial"
  rateLimit := none
  concurrencyLimit := none
  circuitBreaker := some glacialBreaker
  stateTtl := ⟨some 9000000000000000000000, by decide, by decide⟩
  ttl_eq := by rfl

theorem glacial_opened :
    (exec (step glacial) [⟨0, 0, .openCircuit⟩] (start : System Binary64.Float64)).cell =
    some ⟨withCircuitState .opened true false 0 (glacial.initialState 0),
      some 9000000000000000000⟩ := by
  rfl

/-- Once this circuit has opened, nobody is granted a permit ever after: before the
recovery timeout has passed it blocks, and after that the new expiry of the row would be
out of range. -/
theorem glacial_never_recovers :
    let s : System Binary64.Float64 := exec (step glacial) [⟨0, 0, .openCircuit⟩] start
    ∀ now delay holderId, 0 ≤ now →
      Allowed glacial ((liveValue now s.cell).getD (glacial.initialState now)) now ∧
      ¬∃ permit cell, tryAcquireWithOptionalHolder glacial now delay (some holderId) s.cell =
        .ok (.acquired permit, cell) := by
  intro s now delay holderId hnow
  refine ⟨⟨nofun, nofun⟩, ?_⟩
  rintro ⟨permit, cell, hacquire⟩
  by_cases hrecovering : Recovering glacialBreaker 0 now
  · have hlive : now < 9000000000000000000 := by
      have hlt : now < 0 + 900000000000000000 := hrecovering
      omega
    rw [show s.cell = _ from glacial_opened,
      acquire_blocked rfl (by simpa [Row.isLive] using hlive) rfl rfl hrecovering]
      at hacquire
    cases hacquire
  · obtain ⟨outcome, hevaluate, hresult, hcell⟩ := tryAcquire_eq_ok hacquire
    rcases evaluate_circuit hevaluate with ⟨hrefused, -⟩ | ⟨hwrite, -⟩
    · exact hrefused ⟨permit, hresult.symm⟩
    rcases hcell with ⟨hkeep, -⟩ | ⟨row, -, hset, -⟩
    · exact hkeep hwrite
    · have hexpires := (setValueAndTtl_expiresAt rfl hset).1
      have hrange := setValueAndTtl_lt_endTimestamp rfl hset hexpires
      have hround : float8OfInt8 (ceilMicroseconds 9000000000000000000000) =
        9000000000000000000 := by rfl
      have hrecovered : 0 + 900000000000000000 ≤ now := not_lt.1 hrecovering
      rw [hround] at hrange
      simp only [endTimestamp, postgresEpoch] at hrange
      omega

end Glacial

end Paranoid.ThrottlerCircuit
