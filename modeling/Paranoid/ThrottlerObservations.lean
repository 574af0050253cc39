import Paranoid.ThrottlerCircuit

namespace Paranoid.ThrottlerObservations

open Postgres LeaseModel ThrottlerModel ThrottlerAcquire ThrottlerRelease Transitions
open ThrottlerCircuit (Circuit circuit)

inductive Operation
  | acquire (holderId : Option HolderId)
  | release (permit : ThrottlerPermit) (outcome : ThrottlerTaskOutcome)

structure Input where
  now : Int
  operation : Operation

inductive Answer
  | acquired (result : Except FleetError (ThrottlerManualPermitAcquireResult ℚ))
  | released (liveSlot : Option Nat) (circuitStateUpdated probeReleased : Bool)

/-- What can be seen of an evaluation: its answer, the circuit and the live slots it leaves. -/
structure Observation where
  answer : Answer
  circuit : Circuit
  live : Nat → Option ThrottlerSlot

/-- The state that is stored after an acquisition. -/
def leftBehind (current : ThrottlerState ℚ) (outcome : ThrottlerMutationOutcome ℚ) : ThrottlerState ℚ :=
  if outcome.shouldWrite then outcome.state else current

section Step

variable (throttler : Throttler)

def evaluate (i : Input) (state : ThrottlerState ℚ) : ThrottlerState ℚ × Answer :=
  match i.operation with
  | .acquire holderId =>
      match evaluateTryAcquireManualPermit throttler state i.now holderId with
      | .error e => (state, .acquired (.error e))
      | .ok outcome => (leftBehind state outcome, .acquired (.ok outcome.acquireResult))
  | .release permit outcome =>
      let (result, state') := applyReleaseAndOutcome throttler state i.now permit outcome
      let liveSlot := permit.slotSuffix.filter fun slotNumber =>
        result.concurrencySlotReleased && (liveSlots i.now state.slots slotNumber).isSome
      (if result.stateWasModified then state' else state,
        .released liveSlot result.circuitStateUpdated result.probeReleased)

def step (i : Input) (state : ThrottlerState ℚ) : ThrottlerState ℚ × Observation :=
  let (state', answer) := evaluate throttler i state
  (state', ⟨answer, circuit state', liveSlots i.now state'.slots⟩)

/-- No evaluation from `start` on can tell the two states apart. -/
structure Alike (start : Int) (s s' : ThrottlerState ℚ) : Prop where
  circuit : circuit s = circuit s'
  slots : liveSlots start s.slots = liveSlots start s'.slots
  tokens : ∀ limit ∈ throttler.rateLimit, ∀ now, start ≤ now →
    (refill limit s now).tokens = (refill limit s' now).tokens

end Step

variable {throttler : Throttler} {limit : ResolvedThrottlerRateLimit}
  {start now later : Int} {slots slots' : Slots}
  {s s' s'' state current : ThrottlerState ℚ}
  {holderId : Option HolderId} {outcome : ThrottlerMutationOutcome ℚ}

theorem Alike.refl (start : Int) (s : ThrottlerState ℚ) : Alike throttler start s s :=
  ⟨rfl, rfl, fun _ _ _ _ => rfl⟩

theorem Alike.symm (h : Alike throttler start s s') : Alike throttler start s' s :=
  ⟨h.circuit.symm, h.slots.symm, fun limit hlimit now hnow => (h.tokens limit hlimit now hnow).symm⟩

theorem Alike.trans (h : Alike throttler start s s') (h' : Alike throttler start s' s'') :
    Alike throttler start s s'' :=
  ⟨h.circuit.trans h'.circuit, h.slots.trans h'.slots, fun limit hlimit now hnow =>
    (h.tokens limit hlimit now hnow).trans (h'.tokens limit hlimit now hnow)⟩

theorem liveSlots_later (hle : now ≤ later) (slotNumber : Nat) : liveSlots later slots slotNumber =
    (liveSlots now slots slotNumber).filter fun slot => later < slot.expiresAtUnixMicroseconds := by
  unfold liveSlots
  rw [Option.filter_filter]
  congr 1
  funext slot
  refine decide_eq_decide.2 ?_ |>.trans (Bool.decide_and _ _)
  omega

theorem liveSlots_congr_later (hle : now ≤ later) (h : liveSlots now slots = liveSlots now slots') :
    liveSlots later slots = liveSlots later slots' := by
  funext slotNumber
  rw [liveSlots_later hle, liveSlots_later hle, h]

theorem Alike.mono (h : Alike throttler start s s') (hle : start ≤ later) :
    Alike throttler later s s' :=
  ⟨h.circuit, liveSlots_congr_later hle h.slots,
    fun limit hlimit now hnow => h.tokens limit hlimit now (hle.trans hnow)⟩

theorem mem_iff_of_live (h : liveSlots now slots = liveSlots now slots') (slotNumber : Nat) :
    slotNumber ∈ retainLiveSlots now slots ↔ slotNumber ∈ retainLiveSlots now slots' := by
  rw [← AList.lookup_isSome, ← AList.lookup_isSome, lookup_retainLiveSlots, lookup_retainLiveSlots, h]

theorem liveSlots_retainLiveSlots :
    liveSlots now (retainLiveSlots now slots) = liveSlots now slots := by
  funext slotNumber
  rw [liveSlots, lookup_retainLiveSlots, liveSlots, Option.filter_filter]
  simp

theorem liveSlots_insert (slotNumber : Nat) (slot : ThrottlerSlot) :
    liveSlots now (slots.insert slotNumber slot) =
    Function.update (liveSlots now slots) slotNumber
      ((some slot).filter fun slot => now < slot.expiresAtUnixMicroseconds) := by
  funext other
  by_cases hother : other = slotNumber
  · subst hother
    rw [liveSlots, AList.lookup_insert, Function.update_self]
  · rw [liveSlots, AList.lookup_insert_ne hother, Function.update_of_ne hother, liveSlots]

theorem liveSlots_erase (slotNumber : Nat) : liveSlots now (slots.erase slotNumber) =
    Function.update (liveSlots now slots) slotNumber none := by
  funext other
  by_cases hother : other = slotNumber
  · subst hother
    rw [liveSlots, AList.lookup_erase, Function.update_self]
    rfl
  · rw [liveSlots, AList.lookup_erase_ne hother, Function.update_of_ne hother, liveSlots]

theorem firstFreeSlot_congr (h : liveSlots now slots = liveSlots now slots') (maxConcurrent : Nat) :
    firstFreeSlot maxConcurrent (retainLiveSlots now slots) =
      firstFreeSlot maxConcurrent (retainLiveSlots now slots') := by
  unfold firstFreeSlot
  congr 1
  funext slotNumber
  exact decide_eq_decide.2 (not_congr (mem_iff_of_live h slotNumber))

theorem circuit_congr (hfailures : s.consecutiveFailures = s'.consecutiveFailures)
    (hstate : s.circuitState = s'.circuitState)
    (hopened : s.circuitOpenedAtUnixMicroseconds = s'.circuitOpenedAtUnixMicroseconds)
    (hprobe : s.probeHolderId = s'.probeHolderId)
    (hexpires : s.probeExpiresAtUnixMicroseconds = s'.probeExpiresAtUnixMicroseconds) :
    circuit s = circuit s' := by
  unfold circuit
  rw [hfailures, hstate, hopened, hprobe, hexpires]

theorem gate_congr (h : circuit s = circuit s') :
    shouldBlockForOpenCircuit throttler s now holderId =
      shouldBlockForOpenCircuit throttler s' now holderId := by
  obtain ⟨-, hstate, hopened, hprobe, hexpires⟩ := Circuit.mk.inj h
  unfold shouldBlockForOpenCircuit
  rw [hstate, hopened, hprobe, hexpires]

/-- Both fail in the same way, or both end with results that are related. -/
inductive Agree {ε α β : Type} (related : α → β → Prop) : Except ε α → Except ε β → Prop
  | ok {a : α} {b : β} (h : related a b) : Agree related (.ok a) (.ok b)
  | error (e : ε) : Agree related (.error e) (.error e)

theorem Agree.bind {ε α β γ δ : Type} {related : α → β → Prop}
    {related' : γ → δ → Prop} {x : Except ε α} {y : Except ε β}
    {f : α → Except ε γ} {g : β → Except ε δ} (h : Agree related x y)
    (hnext : ∀ a b, related a b → Agree related' (f a) (g b)) : Agree related' (x >>= f) (y >>= g) := by
  cases h with
  | ok hab => exact hnext _ _ hab
  | error e => exact .error e

theorem agree_self {ε α : Type} (x : Except ε α) : Agree Eq x x := by
  cases x with
  | error e => exact .error e
  | ok a => exact .ok rfl

theorem Alike.withSlots (h : Alike throttler start s s')
    (hslots : liveSlots start slots = liveSlots start slots') :
    Alike throttler start { s with slots } { s' with slots := slots' } := ⟨h.circuit, hslots, h.tokens⟩

theorem Alike.acquireConcurrencySlot (h : Alike throttler now s s') (holderId : Option HolderId) :
    Agree (fun a b => a.1.noSlotAvailable = b.1.noSlotAvailable ∧
      a.1.acquiredSlotSuffix = b.1.acquiredSlotSuffix ∧
        Alike throttler now a.2 b.2)
      (acquireConcurrencySlotIfConfigured throttler s now holderId)
      (acquireConcurrencySlotIfConfigured throttler s' now holderId) := by
  unfold acquireConcurrencySlotIfConfigured
  split
  · exact .ok ⟨rfl, rfl, h⟩
  · split
    · exact .error _
    · have hretained : liveSlots now (retainLiveSlots now s.slots) =
        liveSlots now (retainLiveSlots now s'.slots) := by
        rw [liveSlots_retainLiveSlots, liveSlots_retainLiveSlots, h.slots]
      dsimp only
      rw [firstFreeSlot_congr h.slots]
      split
      · exact .ok ⟨rfl, rfl, h.withSlots hretained⟩
      · refine (agree_self _).bind fun expiresAt _ hexpires => ?_
        subst hexpires
        refine .ok ⟨rfl, rfl, h.withSlots ?_⟩
        rw [liveSlots_insert, liveSlots_insert, hretained]

theorem refill_congr (htokens : s.tokens = s'.tokens)
    (hmark : s.lastRefillUnixMicroseconds = s'.lastRefillUnixMicroseconds)
    (limit : ResolvedThrottlerRateLimit) (now : Int) :
    (refill limit s now).tokens = (refill limit s' now).tokens := by
  unfold refill elapsedSeconds
  rw [htokens, hmark]

theorem Alike.consume (h : Alike throttler now s s') (suffix : Option Nat) :
    (consumeRateLimitTokenIfConfigured throttler s now suffix).1.blockedByRateLimit =
        (consumeRateLimitTokenIfConfigured throttler s' now suffix).1.blockedByRateLimit ∧
      (consumeRateLimitTokenIfConfigured throttler s now suffix).1.retryAfter =
        (consumeRateLimitTokenIfConfigured throttler s' now suffix).1.retryAfter ∧
      Alike throttler now (consumeRateLimitTokenIfConfigured throttler s now suffix).2
        (consumeRateLimitTokenIfConfigured throttler s' now suffix).2 := by
  unfold consumeRateLimitTokenIfConfigured
  cases hlimit : throttler.rateLimit with
  | none => exact ⟨rfl, rfl, h⟩
  | some limit =>
      have htokens := h.tokens limit hlimit now le_rfl
      dsimp only
      rw [htokens]
      split
      · exact ⟨rfl, rfl, h.circuit, h.slots, fun _ _ later _ => refill_congr rfl rfl _ later⟩
      · cases suffix with
        | none =>
            exact ⟨rfl, rfl, h.circuit, h.slots, fun _ _ later _ => refill_congr htokens rfl _ later⟩
        | some slotNumber =>
            refine ⟨rfl, rfl, h.circuit, ?_, fun _ _ later _ => refill_congr rfl rfl _ later⟩
            change liveSlots now (s.slots.erase slotNumber) = liveSlots now (s'.slots.erase slotNumber)
            rw [liveSlots_erase, liveSlots_erase, h.slots]

theorem Alike.evaluateTryAcquireManualPermit (h : Alike throttler now s s')
    (holderId : Option HolderId) :
    Agree (fun a b => a.acquireResult = b.acquireResult ∧ Alike throttler now a.state b.state)
      (evaluateTryAcquireManualPermit throttler s now holderId)
      (evaluateTryAcquireManualPermit throttler s' now holderId) := by
  dsimp only [ThrottlerAcquire.evaluateTryAcquireManualPermit]
  rw [gate_congr h.circuit]
  split
  · exact .ok ⟨rfl, h⟩
  refine (h.acquireConcurrencySlot holderId).bind ?_
  rintro ⟨a, reserved⟩ ⟨b, reserved'⟩ ⟨hfull, hsuffix, hreserved⟩
  dsimp only at hfull hsuffix hreserved ⊢
  rw [hfull, hsuffix]
  split
  · exact .ok ⟨rfl, hreserved⟩
  obtain ⟨hblocked, hretry, hconsumed⟩ := hreserved.consume b.acquiredSlotSuffix
  rw [hblocked, hretry]
  split
  · exact .ok ⟨rfl, hconsumed⟩
  split
  · cases holderId with
    | none => exact .error _
    | some holder =>
        refine (agree_self _).bind fun expiresAt _ hexpires => ?_
        subst hexpires
        obtain ⟨hfailures, hstate, hopened, -, -⟩ := Circuit.mk.inj hconsumed.circuit
        refine .ok ⟨rfl, ?_, hconsumed.slots, hconsumed.tokens⟩
        exact circuit_congr hfailures hstate hopened rfl rfl
  · exact .ok ⟨rfl, hconsumed⟩

section Release

variable {permit : ThrottlerPermit} {task : ThrottlerTaskOutcome}

/-- The live slot that a release takes away. -/
def liveRelease (throttler : Throttler) (permit : ThrottlerPermit)
    (live : Nat → Option ThrottlerSlot) : Option Nat :=
  if throttler.concurrencyLimit.isNone then none
  else match permit.slotSuffix, permit.holderId with
    | some suffix, some holderId =>
        if (live suffix).any (·.holderId = holderId.text) then some suffix else none
    | _, _ => none

theorem filter_any_of_any {slot : Option ThrottlerSlot}
    {owns live : ThrottlerSlot → Bool} (h : slot.any owns) :
    (slot.filter live).any owns = (slot.filter live).isSome := by
  cases slot with
  | none => rfl
  | some slot =>
      rw [Option.filter_some]
      split
      · exact h
      · rfl

theorem not_filter_any {slot : Option ThrottlerSlot}
    {owns live : ThrottlerSlot → Bool} (h : slot.any owns = false) :
    (slot.filter live).any owns = false := by
  cases slot with
  | none => rfl
  | some slot =>
      rw [Option.filter_some]
      split
      · exact h
      · rfl

/-- Of the live slots a release takes away the one it owns, also where it removes an expired one. -/
theorem releaseOwned_live : liveSlots now (releaseOwnedConcurrencySlot throttler s permit).2.slots =
      (liveRelease throttler permit (liveSlots now s.slots)).elim (liveSlots now s.slots)
        (Function.update (liveSlots now s.slots) · none) ∧
    (permit.slotSuffix.filter fun slotNumber =>
      (releaseOwnedConcurrencySlot throttler s permit).1 && (liveSlots now s.slots slotNumber).isSome) =
        liveRelease throttler permit (liveSlots now s.slots) := by
  unfold releaseOwnedConcurrencySlot liveRelease ownedSlot
  split
  · exact ⟨rfl, by simp⟩
  cases permit.slotSuffix with
  | none => exact ⟨rfl, rfl⟩
  | some suffix =>
      cases permit.holderId with
      | none => exact ⟨rfl, by simp⟩
      | some holder =>
          dsimp only
          cases howned : (s.slots.lookup suffix).any fun slot =>
            decide (slot.holderId = holder.text) with
          | false =>
              have hlive : (liveSlots now s.slots suffix).any (fun slot =>
                decide (slot.holderId = holder.text)) = false :=
                not_filter_any howned
              simp [hlive]
          | true =>
              have hlive : (liveSlots now s.slots suffix).any
                (fun slot => decide (slot.holderId = holder.text)) =
                  (liveSlots now s.slots suffix).isSome := filter_any_of_any howned
              rw [hlive]
              cases hsome : liveSlots now s.slots suffix with
              | some slot => simp [liveSlots_erase, hsome]
              | none =>
                  refine ⟨?_, by simp [hsome]⟩
                  change liveSlots now (s.slots.erase suffix) = liveSlots now s.slots
                  rw [liveSlots_erase, ← hsome, Function.update_eq_self]

theorem Alike.releaseOwned (h : Alike throttler now s s') (permit : ThrottlerPermit) :
    Alike throttler now (releaseOwnedConcurrencySlot throttler s permit).2
      (releaseOwnedConcurrencySlot throttler s' permit).2 := by
  have hslots : liveSlots now (releaseOwnedConcurrencySlot throttler s permit).2.slots =
      liveSlots now (releaseOwnedConcurrencySlot throttler s' permit).2.slots := by
    rw [releaseOwned_live.1, releaseOwned_live.1, h.slots]
  have hrest (state : ThrottlerState ℚ) : ∃ slots,
    (releaseOwnedConcurrencySlot throttler state permit).2 =
      { state with slots } := by
    unfold releaseOwnedConcurrencySlot
    split
    · exact ⟨_, rfl⟩
    · split
      · exact ⟨_, rfl⟩
      · exact ⟨_, rfl⟩
  obtain ⟨slots, heq⟩ := hrest s
  obtain ⟨slots', heq'⟩ := hrest s'
  rw [heq, heq'] at hslots ⊢
  exact h.withSlots hslots

theorem Alike.applyTaskOutcome (h : Alike throttler now s s') (task : ThrottlerTaskOutcome) :
    (applyTaskOutcomeToCircuitState throttler s now task).1 =
    (applyTaskOutcomeToCircuitState throttler s' now task).1 ∧
      Alike throttler now (applyTaskOutcomeToCircuitState throttler s now task).2
        (applyTaskOutcomeToCircuitState throttler s' now task).2 := by
  obtain ⟨hfailures, hstate, hopened, hprobe, hexpires⟩ := Circuit.mk.inj h.circuit
  unfold applyTaskOutcomeToCircuitState
  rw [hfailures, hstate, hopened]
  split
  · exact ⟨rfl, h⟩
  · cases task with
    | notExecuted => exact ⟨rfl, h⟩
    | failed =>
        dsimp only
        split
        · exact ⟨rfl, circuit_congr rfl rfl rfl hprobe hexpires, h.slots, h.tokens⟩
        · split
          · exact ⟨rfl, circuit_congr rfl rfl rfl hprobe hexpires, h.slots, h.tokens⟩
          · exact ⟨rfl, circuit_congr rfl rfl rfl hprobe hexpires, h.slots, h.tokens⟩
    | succeeded =>
        dsimp only
        split
        · exact ⟨rfl, h⟩
        · exact ⟨rfl, circuit_congr rfl rfl rfl hprobe hexpires, h.slots, h.tokens⟩

theorem Alike.clearProbe (h : Alike throttler now s s') (permit : ThrottlerPermit) :
    (clearProbeIfOwned s permit).1 = (clearProbeIfOwned s' permit).1 ∧
      Alike throttler now (clearProbeIfOwned s permit).2 (clearProbeIfOwned s' permit).2 := by
  obtain ⟨hfailures, hstate, hopened, hprobe, -⟩ := Circuit.mk.inj h.circuit
  unfold clearProbeIfOwned
  rw [hprobe]
  split
  · exact ⟨rfl, h⟩
  · split
    · exact ⟨rfl, circuit_congr hfailures hstate hopened rfl rfl, h.slots, h.tokens⟩
    · exact ⟨rfl, h⟩

theorem Alike.applyRelease (h : Alike throttler now s s')
    (permit : ThrottlerPermit) (task : ThrottlerTaskOutcome) :
    (applyReleaseAndOutcome throttler s now permit task).1.circuitStateUpdated =
        (applyReleaseAndOutcome throttler s' now permit task).1.circuitStateUpdated ∧
      (applyReleaseAndOutcome throttler s now permit task).1.probeReleased =
        (applyReleaseAndOutcome throttler s' now permit task).1.probeReleased ∧
      Alike throttler now (applyReleaseAndOutcome throttler s now permit task).2
        (applyReleaseAndOutcome throttler s' now permit task).2 := by
  have hreleased := h.releaseOwned permit
  obtain ⟨hupdated, hafter⟩ := hreleased.applyTaskOutcome task
  obtain ⟨hprobe, hcleared⟩ := hafter.clearProbe permit
  unfold applyReleaseAndOutcome
  dsimp only
  split
  · exact ⟨rfl, rfl, hreleased⟩
  · exact ⟨hupdated, hprobe, hcleared⟩

theorem concurrencySlotReleased_eq :
    (applyReleaseAndOutcome throttler s now permit task).1.concurrencySlotReleased =
    (releaseOwnedConcurrencySlot throttler s permit).1 := by
  unfold applyReleaseAndOutcome
  dsimp only
  split
  · rfl
  · rfl

theorem releaseOwned_unreleased : (releaseOwnedConcurrencySlot throttler s permit).1 = true ∨
    (releaseOwnedConcurrencySlot throttler s permit).2 = s := by
  unfold releaseOwnedConcurrencySlot
  split
  · exact .inr rfl
  · split
    · exact .inr rfl
    · exact .inl rfl

theorem applyTaskOutcome_unmodified : (applyTaskOutcomeToCircuitState throttler s now task).1 = true ∨
    (applyTaskOutcomeToCircuitState throttler s now task).2 = s := by
  unfold applyTaskOutcomeToCircuitState
  split
  · exact .inr rfl
  · cases task with
    | notExecuted => exact .inr rfl
    | failed =>
        dsimp only
        split
        · exact .inl rfl
        · split
          · exact .inl rfl
          · exact .inl rfl
    | succeeded =>
        dsimp only
        split
        · exact .inr rfl
        · exact .inl rfl

theorem clearProbe_unmodified :
    (clearProbeIfOwned s permit).1 = true ∨ (clearProbeIfOwned s permit).2 = s := by
  unfold clearProbeIfOwned
  split
  · exact .inr rfl
  · split
    · exact .inl rfl
    · exact .inr rfl

/-- A release that reports nothing has done nothing. -/
theorem applyRelease_unmodified
    (h : (applyReleaseAndOutcome throttler s now permit task).1.stateWasModified = false) :
    (applyReleaseAndOutcome throttler s now permit task).2 = s := by
  unfold applyReleaseAndOutcome at h ⊢
  dsimp only at h ⊢
  split at h
  · rename_i hbreaker
    simp only [ThrottlerReleaseResult.stateWasModified, Bool.or_eq_false_iff] at h
    rw [if_pos hbreaker]
    exact releaseOwned_unreleased.resolve_left (by simp [h.1.1])
  · rename_i hbreaker
    simp only [ThrottlerReleaseResult.stateWasModified, Bool.or_eq_false_iff] at h
    obtain ⟨⟨hslot, hcircuit⟩, hprobe⟩ := h
    rw [if_neg hbreaker]
    dsimp only
    rw [clearProbe_unmodified.resolve_left
      (by simp [hprobe]), applyTaskOutcome_unmodified.resolve_left (by simp [hcircuit]),
      releaseOwned_unreleased.resolve_left (by simp [hslot])]

end Release

theorem alike_unmodified {concurrency : ThrottlerConcurrencyAcquireOutcome} {reserved : ThrottlerState ℚ}
    (h : acquireConcurrencySlotIfConfigured throttler current now holderId =
      .ok (concurrency, reserved))
    (hunmodified : concurrency.stateWasModified = false) : Alike throttler now reserved current := by
  unfold acquireConcurrencySlotIfConfigured at h
  split at h
  · obtain ⟨-, rfl⟩ := Prod.mk.inj (Except.ok.inj h)
    exact .refl _ _
  · split at h
    · cases h
    · dsimp only at h
      split at h
      · obtain ⟨-, rfl⟩ := Prod.mk.inj (Except.ok.inj h)
        exact ⟨rfl, liveSlots_retainLiveSlots, fun _ _ _ _ => rfl⟩
      · obtain ⟨expiresAt, -, h⟩ := bind_eq_ok.1 h
        obtain ⟨rfl, -⟩ := Prod.mk.inj (Except.ok.inj h)
        cases hunmodified

/-- Where an acquisition writes nothing, what it would have written is like what is there. -/
theorem alike_leftBehind
    (h : evaluateTryAcquireManualPermit throttler current now holderId = .ok outcome) :
    Alike throttler now (leftBehind current outcome) outcome.state := by
  unfold leftBehind
  split
  · exact .refl _ _
  rename_i hkeep
  rcases evaluate_eq_ok h with rfl |
    ⟨concurrency, reserved, hslot, rfl | ⟨-, rateLimit, consumed, -, hrest⟩⟩
  · exact .refl _ _
  · exact (alike_unmodified hslot (Bool.eq_false_of_not_eq_true hkeep)).symm
  · rcases hrest with ⟨-, rfl⟩ | ⟨-, hwrite, -⟩
    · exact absurd rfl hkeep
    · exact absurd hwrite hkeep

theorem alike_step {i : Input} (hnow : start ≤ i.now) (h : Alike throttler start s s') :
    (step throttler i s).2 = (step throttler i s').2 ∧
      Alike throttler i.now (step throttler i s).1 (step throttler i s').1 := by
  have h : Alike throttler i.now s s' := h.mono hnow
  have hanswer : (evaluate throttler i s).2 = (evaluate throttler i s').2 ∧
      Alike throttler i.now (evaluate throttler i s).1 (evaluate throttler i s').1 := by
    unfold evaluate
    cases i.operation with
    | acquire holderId =>
        have hagree := h.evaluateTryAcquireManualPermit holderId
        dsimp only
        cases hevaluate : evaluateTryAcquireManualPermit throttler s i.now holderId with
        | error e =>
            rw [hevaluate] at hagree
            cases hevaluate' : evaluateTryAcquireManualPermit throttler s' i.now holderId with
            | error e' =>
                rw [hevaluate'] at hagree
                cases hagree
                exact ⟨rfl, h⟩
            | ok outcome' => rw [hevaluate'] at hagree; cases hagree
        | ok outcome =>
            rw [hevaluate] at hagree
            cases hevaluate' : evaluateTryAcquireManualPermit throttler s' i.now holderId with
            | error e' => rw [hevaluate'] at hagree; cases hagree
            | ok outcome' =>
                rw [hevaluate'] at hagree
                obtain ⟨hresult, hafter⟩ : _ ∧ _ := by cases hagree; assumption
                refine ⟨congrArg (fun result => Answer.acquired (.ok result)) hresult, ?_⟩
                exact (alike_leftBehind hevaluate).trans
                  (hafter.trans (alike_leftBehind hevaluate').symm)
    | release permit task =>
        have hkept (state : ThrottlerState ℚ) :
          (if (applyReleaseAndOutcome throttler state i.now permit task).1.stateWasModified
            then (applyReleaseAndOutcome throttler state i.now permit task).2 else state) =
              (applyReleaseAndOutcome throttler state i.now permit task).2 := by
          split
          · rfl
          · rename_i hmodified
            exact (applyRelease_unmodified (Bool.eq_false_of_not_eq_true hmodified)).symm
        obtain ⟨hupdated, hprobe, hafter⟩ := h.applyRelease permit task
        dsimp only
        rw [hkept, hkept, hupdated, hprobe, concurrencySlotReleased_eq, concurrencySlotReleased_eq]
        refine ⟨?_, hafter⟩
        rw [releaseOwned_live.2, releaseOwned_live.2, h.slots]
  obtain ⟨hsame, hafter⟩ := hanswer
  refine ⟨?_, hafter⟩
  unfold step
  dsimp only
  rw [hsame, hafter.circuit, hafter.slots]

theorem trace_alike {inputs : List Input} (hfrom : ∀ i ∈ inputs, start ≤ i.now)
    (hsorted : inputs.Pairwise fun i j => i.now ≤ j.now) (h : Alike throttler start s s') :
    trace (step throttler) inputs s = trace (step throttler) inputs s' :=
  trace_congr (fun _ _ _ _ => alike_step) hfrom hsorted h

theorem elapsedSeconds_eq (h : state.lastRefillUnixMicroseconds ≤ now) :
    elapsedSeconds state now =
      (min (now - state.lastRefillUnixMicroseconds) i64Max : Int) / 1000000 := by
  have helapsed : max (saturatingSub now state.lastRefillUnixMicroseconds) 0 =
      min (now - state.lastRefillUnixMicroseconds) i64Max := by
    simp only [saturatingSub, i64Max]
    omega
  rw [elapsedSeconds_rat, helapsed]

end Paranoid.ThrottlerObservations
