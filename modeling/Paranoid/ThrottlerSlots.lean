import Paranoid.ThrottlerAcquire
import Paranoid.ThrottlerRelease
import Paranoid.Transitions

namespace Paranoid.ThrottlerSlots

open Postgres KvAtomic LeaseModel ThrottlerModel ThrottlerAcquire ThrottlerRelease Transitions

/-- A granted permit as its client holds it, until its own release call. -/
structure Grant where
  permit : ThrottlerPermit
  heldUntil : Int
  released : Bool

def Grant.Live (moment : Int) (g : Grant) : Prop := g.released = false ∧ moment < g.heldUntil

instance (moment : Int) : DecidablePred (Grant.Live moment) := fun _ =>
  inferInstanceAs (Decidable (_ ∧ _))

/-- The shared state row and every permit granted so far, oldest first. -/
structure System (T : Type) where
  cell : Cell T
  grants : List Grant

inductive Operation
  | acquire (holderId : Option HolderId)
  | release (grant : Nat) (outcome : ThrottlerTaskOutcome)

structure Input where
  now : Int
  delay : Nat
  operation : Operation

variable {T : Type} (throttler : Throttler)

def maxHoldMicroseconds : Int :=
  throttler.concurrencyLimit.elim 0 fun limit => ceilMicroseconds limit.maxHoldDuration

/-- Acquisitions and releases in row-lock order. A release names the grant whose
permit it presents; a second release of one grant does nothing. -/
def step [TokenNumber T] (i : Input) (s : System T) : System T × Unit :=
  match i.operation with
  | .acquire holderId =>
      match tryAcquireWithOptionalHolder throttler i.now i.delay holderId s.cell with
      | .ok (.acquired permit, cell) =>
          (⟨cell, s.grants ++ [⟨permit, i.now + maxHoldMicroseconds throttler, false⟩]⟩, ())
      | .ok (_, cell) => ({ s with cell }, ())
      | .error _ => (s, ())
  | .release grant outcome =>
      match s.grants[grant]? with
      | none => (s, ())
      | some g =>
          if g.released then (s, ())
          else match releaseManualPermitAfterTaskOutcome throttler i.now i.delay g.permit outcome s.cell with
            | .ok (_, cell) => (⟨cell, s.grants.set grant { g with released := true }⟩, ())
            | .error _ => (s, ())

/-- A release does not present a slot number and holder that are also those of
another permit that is still live. -/
def ReleasesOwnSlot (i : Input) (s : System T) : Prop :=
  match i.operation with
  | .acquire _ => True
  | .release grant _ => ∀ p ∈ s.grants[grant]?, ∀ other < s.grants.length, ∀ g ∈ s.grants[other]?,
      other ≠ grant → g.Live i.now →
        ¬(g.permit.slotSuffix = p.permit.slotSuffix ∧ g.permit.holderId = p.permit.holderId)

instance decidableReleasesOwnSlot : ∀ (i : Input) (s : System T), Decidable (ReleasesOwnSlot i s)
  | ⟨_, _, .acquire _⟩, _ => .isTrue trivial
  | ⟨now, _, .release grant _⟩, s => inferInstanceAs (Decidable
      (∀ p ∈ s.grants[grant]?, ∀ other < s.grants.length, ∀ g ∈ s.grants[other]?,
        other ≠ grant → g.Live now →
          ¬(g.permit.slotSuffix = p.permit.slotSuffix ∧ g.permit.holderId = p.permit.holderId)))

/-- A stored slot that has not expired is still stored. -/
def Keeps (now : Int) (slots slots' : Slots) : Prop :=
  ∀ k slot, slots.lookup k = some slot →
    now < slot.expiresAtUnixMicroseconds → slots'.lookup k = some slot

variable {throttler} {limit : ResolvedThrottlerConcurrencyLimit} {now : Int} {slots slots' : Slots}
  {state : ThrottlerState T} {holderId : Option HolderId} {outcome : ThrottlerMutationOutcome T}

theorem keeps_retainLiveSlots (now : Int) (slots : Slots) :
    Keeps now slots (retainLiveSlots now slots) := by
  intro k slot hslot hlive
  rw [lookup_retainLiveSlots, liveSlots, hslot, Option.filter_some, if_pos (decide_eq_true hlive)]

theorem firstFreeSlot_eq_some {m k : Nat} (h : firstFreeSlot m slots = some k) :
    1 ≤ k ∧ k ≤ m ∧ k ∉ slots := by
  have hmem := List.mem_range'_1.1 (List.mem_of_find?_eq_some h)
  have hfree := List.find?_some h
  exact ⟨hmem.1, by omega, by simpa using hfree⟩

theorem keeps_erase_of_absent {k : Nat} (hk : ∀ slot, slots.lookup k = some slot →
    slot.expiresAtUnixMicroseconds ≤
      now) (h : Keeps now slots slots') : Keeps now slots (slots'.erase k) := by
  intro j slot hslot hlive
  have hne : j ≠ k := by
    rintro rfl
    exact absurd hlive (not_lt.2 (hk slot hslot))
  rw [AList.lookup_erase_ne hne]
  exact h j slot hslot hlive

theorem addDurationToTimestamp_eq_ok {timestamp t : Int} {duration : Nat}
    (h : addDurationToTimestamp timestamp duration = .ok t) :
    t = timestamp + ceilMicroseconds duration := by
  unfold addDurationToTimestamp ThrottlerModel.durationToRoundedMicroseconds at h
  split at h
  · cases h
  · rename_i microseconds hm
    split at hm
    · split at h
      · rw [← Except.ok.inj h, Option.some.inj hm]
      · cases h
    · cases hm

theorem consume_slots [TokenNumber T] {rateLimit : ThrottlerRateLimitOutcome T} {suffix : Option Nat}
    {consumed : ThrottlerState T}
    (h : consumeRateLimitTokenIfConfigured throttler state now suffix = (rateLimit, consumed)) :
    (consumed.slots = state.slots ∨ ∃ k, suffix = some k ∧ consumed.slots = state.slots.erase k) ∧
      (¬rateLimit.blockedByRateLimit → consumed.slots = state.slots) := by
  unfold consumeRateLimitTokenIfConfigured at h
  split at h
  · obtain ⟨rfl, rfl⟩ := Prod.mk.inj h
    exact ⟨.inl rfl, fun _ => rfl⟩
  · dsimp only at h
    split at h
    · obtain ⟨rfl, rfl⟩ := Prod.mk.inj h
      exact ⟨.inl rfl, fun _ => rfl⟩
    · split at h
      · obtain ⟨rfl, rfl⟩ := Prod.mk.inj h
        exact ⟨.inl rfl, fun hpassed => absurd rfl hpassed⟩
      · obtain ⟨rfl, rfl⟩ := Prod.mk.inj h
        exact ⟨.inr ⟨_, rfl, rfl⟩, fun hpassed => absurd rfl hpassed⟩

/-- What an acquisition does to the slots: unless it grants, every unexpired slot
stays as it is; a grant adds one slot, over a number that was free or expired. -/
theorem evaluate_slots [TokenNumber T] (hlimit : throttler.concurrencyLimit = some limit)
    (h : evaluateTryAcquireManualPermit throttler state now holderId = .ok outcome) :
    (¬Acquired outcome.acquireResult ∧ Keeps now state.slots outcome.state.slots) ∨
    ∃ k holder permit, outcome.acquireResult = .acquired permit ∧ outcome.shouldWrite ∧
      permit.throttlerKey = throttler.key ∧ permit.slotSuffix = some k ∧ permit.holderId = some holder ∧
      1 ≤ k ∧ k ≤ limit.maxConcurrent ∧
      (∀ slot, state.slots.lookup k = some slot → slot.expiresAtUnixMicroseconds ≤ now) ∧
      outcome.state.slots.lookup k = some ⟨holder.text, now + ceilMicroseconds limit.maxHoldDuration⟩ ∧
      Keeps now state.slots outcome.state.slots := by
  have hretain := keeps_retainLiveSlots now state.slots
  rcases evaluate_eq_ok h with rfl | ⟨concurrency, reserved, hslot, hrest⟩
  · exact .inl ⟨by simp [Acquired], fun _ _ hstored _ => hstored⟩
  simp only [acquireConcurrencySlotIfConfigured, hlimit] at hslot
  cases holderId with
  | none => cases hslot
  | some holder =>
      dsimp only at hslot
      split at hslot
      · obtain ⟨rfl, rfl⟩ := Prod.mk.inj (Except.ok.inj hslot)
        rcases hrest with rfl | ⟨hfull, -⟩
        · exact .inl ⟨by simp [Acquired], hretain⟩
        · exact absurd rfl hfull
      · rename_i k hfirst
        obtain ⟨expiresAt, hexpires, hslot⟩ := bind_eq_ok.1 hslot
        obtain ⟨rfl, rfl⟩ := Prod.mk.inj (Except.ok.inj hslot)
        obtain ⟨hpos, hbound, hfree⟩ := firstFreeSlot_eq_some hfirst
        rw [addDurationToTimestamp_eq_ok hexpires] at hrest
        have habsent : ∀ slot, state.slots.lookup k = some slot →
          slot.expiresAtUnixMicroseconds ≤ now := by
          intro slot hstored
          by_contra hlive
          have hkept := hretain k slot hstored (not_le.1 hlive)
          exact hfree (AList.lookup_isSome.1 (by rw [hkept]; rfl))
        have hinsert (slot : ThrottlerSlot) :
            Keeps now state.slots ((retainLiveSlots now state.slots).insert k slot) := by
          intro j stored hstored hlive
          have hne : j ≠ k := by
            rintro rfl
            exact absurd hlive (not_lt.2 (habsent stored hstored))
          rw [AList.lookup_insert_ne hne]
          exact hretain j stored hstored hlive
        rcases hrest with rfl | ⟨-, rateLimit, consumed, hconsume, hrest⟩
        · exact .inl ⟨by simp [Acquired], hinsert _⟩
        obtain ⟨hconsumed, hpassing⟩ := consume_slots hconsume
        rcases hrest with ⟨-, rfl⟩ | ⟨hpassed, hwrite, -, hslots, -, probe, hresult⟩
        · refine .inl ⟨by simp [Acquired], ?_⟩
          rcases hconsumed with hsame | ⟨j, hj, herased⟩
          · rw [hsame]
            exact hinsert _
          · rw [herased, ← Option.some.inj hj]
            exact keeps_erase_of_absent habsent (hinsert _)
        · rw [hpassing hpassed] at hslots
          refine .inr ⟨k, holder, _, hresult, hwrite, rfl, rfl, rfl, hpos, hbound, habsent, ?_, ?_⟩
          · rw [hslots]
            exact AList.lookup_insert _
          · rw [hslots]
            exact hinsert _

/-- The stored row keeps the slot of a grant under its holder, and lasts as long. -/
def Holds (limit : ResolvedThrottlerConcurrencyLimit) (cell : Cell T) (g : Grant) : Prop :=
  ∃ row k holder expiresAt, cell = some row ∧ g.permit.slotSuffix = some k ∧
    g.permit.holderId = some holder ∧ 1 ≤ k ∧ k ≤ limit.maxConcurrent ∧
    row.expiresAt = some expiresAt ∧ g.heldUntil ≤ expiresAt ∧
    row.value.slots.lookup k = some ⟨holder.text, g.heldUntil⟩

structure SlotsHeld (limit : ResolvedThrottlerConcurrencyLimit) (moment : Int) (s : System T) : Prop where
  holds : ∀ g ∈ s.grants, g.Live moment → Holds limit s.cell g
  recent : ∀ g ∈ s.grants, g.heldUntil ≤ moment + ceilMicroseconds limit.maxHoldDuration
  distinct : s.grants.Pairwise fun g g' =>
    g.Live moment → g'.Live moment → g.permit.slotSuffix ≠ g'.permit.slotSuffix

variable {s : System T} {moment moment' : Int} {g : Grant} {cell cell' : Cell T} {delay : Nat}

theorem Grant.Live.earlier (h : g.Live moment') (hle : moment ≤ moment') : g.Live moment :=
  ⟨h.1, hle.trans_lt h.2⟩

theorem SlotsHeld.later (h : SlotsHeld limit moment s) (hle : moment ≤ moment') :
    SlotsHeld limit moment' s where
  holds g hg hlive := h.holds g hg (hlive.earlier hle)
  recent g hg := (h.recent g hg).trans (by omega)
  distinct := h.distinct.imp fun hne hlive hlive' => hne (hlive.earlier hle) (hlive'.earlier hle)

theorem Holds.current (h : Holds limit cell g) (hlive : g.Live now) :
    ∃ state k holder, liveValue now cell = some state ∧ g.permit.slotSuffix = some k ∧
      g.permit.holderId = some holder ∧ state.slots.lookup k = some ⟨holder.text, g.heldUntil⟩ := by
  obtain ⟨row, k, holder, expiresAt, rfl, hk, hholder, -, -, hexpires, hlasts, hslot⟩ := h
  refine ⟨row.value, k, holder, ?_, hk, hholder, hslot⟩
  have hrow : row.isLive now := by simpa [Row.isLive, hexpires] using hlive.2.trans_le hlasts
  rw [liveValue_some, if_pos hrow]

/-- A rewritten row still holds a live grant whose slot it kept. -/
theorem Holds.rewritten {row : Row (ThrottlerState T)} (hlimit : throttler.concurrencyLimit = some limit)
    (h : Holds limit cell g) (hrecent : g.heldUntil ≤ now + ceilMicroseconds limit.maxHoldDuration)
    (hset : setValueAndTtl (now + delay) row.value throttler.stateTtl = .ok row)
    (hkept : ∀ k holder, g.permit.slotSuffix = some k → g.permit.holderId = some holder →
      row.value.slots.lookup k = some ⟨holder.text, g.heldUntil⟩) : Holds limit (some row) g := by
  obtain ⟨-, k, holder, -, -, hk, hholder, hpos, hbound, -, -, -⟩ := h
  obtain ⟨expiresAt, hexpires, hlasts⟩ := expiresAt_covers_hold hlimit hset
  exact ⟨row, k, holder, expiresAt, rfl, hk, hholder, hpos,
    hbound, hexpires, by omega, hkept k holder hk hholder⟩

theorem Holds.kept {slots' : Slots} (h : Holds limit cell g) (hlive : g.Live now)
    (hcurrent : liveValue now cell = some state) (hkeeps : Keeps now state.slots slots') :
    ∀ k holder, g.permit.slotSuffix = some k → g.permit.holderId = some holder →
      slots'.lookup k = some ⟨holder.text, g.heldUntil⟩ := by
  intro k holder hk hholder
  obtain ⟨state', k', holder', hstate, hk', hholder', hslot⟩ := h.current hlive
  rw [hcurrent] at hstate
  cases hstate
  rw [hk] at hk'
  cases hk'
  rw [hholder] at hholder'
  cases hholder'
  exact hkeeps k _ hslot hlive.2

theorem slotsHeld_refused [TokenNumber T] {result : ThrottlerManualPermitAcquireResult T}
    (hlimit : throttler.concurrencyLimit = some limit) (h : SlotsHeld limit now s)
    (hacquire : tryAcquireWithOptionalHolder throttler now delay holderId s.cell = .ok (result, cell'))
    (hrefused : ¬Acquired result) : SlotsHeld limit now { s with cell := cell' } := by
  obtain ⟨outcome, hevaluate, rfl, hcell⟩ := tryAcquire_eq_ok hacquire
  refine ⟨fun g hg hlive => ?_, h.recent, h.distinct⟩
  have hheld := h.holds g hg hlive
  rcases hcell with ⟨-, -, rfl⟩ | ⟨row, rfl, hset, hvalue⟩
  · exact hheld
  · obtain ⟨current, -, -, hcurrent, -⟩ := hheld.current hlive
    rw [hcurrent, Option.getD_some] at hevaluate
    refine hheld.rewritten hlimit (h.recent g hg) hset ?_
    rcases hvalue with ⟨-, hvalue⟩ | ⟨-, hnone, -⟩
    · rw [hvalue]
      refine hheld.kept hlive hcurrent ?_
      rcases evaluate_slots hlimit hevaluate with ⟨-, hkeeps⟩ | ⟨-, -, permit, hgrant, -⟩
      · exact hkeeps
      · exact absurd ⟨permit, hgrant⟩ hrefused
    · rw [hcurrent] at hnone
      cases hnone

theorem slotsHeld_acquired [TokenNumber T] {permit : ThrottlerPermit}
    (hlimit : throttler.concurrencyLimit = some limit)
    (h : SlotsHeld limit now s)
    (hacquire : tryAcquireWithOptionalHolder throttler now delay holderId s.cell =
      .ok (.acquired permit, cell')) :
    SlotsHeld limit now
      ⟨cell', s.grants ++ [⟨permit, now + ceilMicroseconds limit.maxHoldDuration, false⟩]⟩ := by
  obtain ⟨outcome, hevaluate, hresult, hcell⟩ := tryAcquire_eq_ok hacquire
  rcases evaluate_slots hlimit hevaluate with ⟨hrefused, -⟩ |
    ⟨k, holder, permit', hgrant, hwrite, -, hk,
    hholder, hpos, hbound, hexpired, hslot, hkeeps⟩
  · exact absurd ⟨permit, hresult.symm⟩ hrefused
  rw [← hresult] at hgrant
  cases hgrant
  rcases hcell with ⟨hkeep, -⟩ | ⟨row, rfl, hset, ⟨-, hvalue⟩ | ⟨hkeep, -⟩⟩
  · exact absurd hwrite hkeep
  · rw [← hvalue] at hslot hkeeps
    have hcurrent {g : Grant} (hg : g ∈ s.grants) (hlive : g.Live now) :
        ∃ state, liveValue now s.cell = some state := by
      obtain ⟨state, -, -, hstate, -⟩ := (h.holds g hg hlive).current hlive
      exact ⟨state, hstate⟩
    refine ⟨?_, ?_, ?_⟩
    · intro g hg hlive
      rcases List.mem_append.1 hg with hold | hnew
      · obtain ⟨state, hstate⟩ := hcurrent hold hlive
        rw [hstate, Option.getD_some] at hkeeps
        have hheld := h.holds g hold hlive
        exact hheld.rewritten hlimit (h.recent g hold) hset (hheld.kept hlive hstate hkeeps)
      · rw [List.mem_singleton.1 hnew]
        obtain ⟨expiresAt, hexpires, hlasts⟩ := expiresAt_covers_hold hlimit hset
        exact ⟨row, k, holder, expiresAt, rfl, hk, hholder,
          hpos, hbound, hexpires, by dsimp only; omega, hslot⟩
    · intro g hg
      rcases List.mem_append.1 hg with hold | hnew
      · exact h.recent g hold
      · rw [List.mem_singleton.1 hnew]
    · rw [List.pairwise_append]
      refine ⟨h.distinct, List.pairwise_singleton _ _, ?_⟩
      intro g hg g' hnew hlive _ hsame
      rw [List.mem_singleton.1 hnew, hk] at hsame
      obtain ⟨state, j, holder', hstate, hj, -, hstored⟩ := (h.holds g hg hlive).current hlive
      rw [hstate, Option.getD_some] at hexpired
      rw [hsame] at hj
      cases hj
      exact absurd hlive.2 (not_lt.2 (hexpired _ hstored))
  · exact absurd hwrite hkeep

theorem pairwise_set {α : Type*} {R : α → α → Prop} {l : List α} {x : α} (n : Nat) (h : l.Pairwise R)
    (hleft : ∀ a, R a x) (hright : ∀ a, R x a) : (l.set n x).Pairwise R := by
  induction l generalizing n with
  | nil => exact List.Pairwise.nil
  | cons a l ih =>
      rw [List.pairwise_cons] at h
      cases n with
      | zero => exact List.pairwise_cons.2 ⟨fun b _ => hright b, h.2⟩
      | succ n =>
          refine List.pairwise_cons.2 ⟨fun b hb => ?_, ih n h.2⟩
          rcases List.mem_or_eq_of_mem_set hb with hb | rfl
          · exact h.1 b hb
          · exact hleft a

theorem HolderId.eq_of_text {a b : HolderId} (h : a.text = b.text) : a = b := by
  cases a
  cases b
  cases h
  rfl

/-- A released grant leaves; whoever else is live keeps its slot, since the
release owned another one. -/
theorem slotsHeld_released {index : Nat} {p : Grant} {result : ThrottlerReleaseResult}
    {task : ThrottlerTaskOutcome} (hlimit : throttler.concurrencyLimit = some limit)
    (h : SlotsHeld limit now s) (hp : p ∈ s.grants)
    (hown : ∀ other < s.grants.length, ∀ g ∈ s.grants[other]?, other ≠ index → g.Live now →
      ¬(g.permit.slotSuffix = p.permit.slotSuffix ∧ g.permit.holderId = p.permit.holderId))
    (hrelease : releaseManualPermitAfterTaskOutcome throttler now delay p.permit task s.cell =
      .ok (result, cell')) :
    SlotsHeld limit now ⟨cell', s.grants.set index { p with released := true }⟩ := by
  have hdead (moment : Int) : ¬({ p with released := true } : Grant).Live moment := by simp [Grant.Live]
  refine ⟨?_, ?_, ?_⟩
  · intro g hg hlive
    obtain ⟨other, hlen, hget⟩ := List.getElem_of_mem hg
    rw [List.getElem_set] at hget
    split at hget
    · rw [← hget] at hlive
      exact absurd hlive (hdead now)
    · rename_i hne
      have hmem : g ∈ s.grants := List.mem_of_getElem hget
      have hheld := h.holds g hmem hlive
      have hlen' : other < s.grants.length := by simpa using hlen
      have hstranger := hown other hlen' g
        (by rw [List.getElem?_eq_getElem hlen', hget]; rfl) (Ne.symm hne) hlive
      rcases release_eq_ok hrelease with ⟨-, rfl⟩ | ⟨current, row, hcurrent, rfl, hset, happlied⟩
      · exact hheld
      · refine hheld.rewritten hlimit (h.recent g hmem) hset ?_
        have hvalue : row.value = _ := (congrArg Prod.snd happlied).symm
        rw [hvalue]
        rcases applyRelease_slots with hsame | ⟨k, hk, herased⟩
        · rw [hsame]
          exact hheld.kept hlive hcurrent fun _ _ hslot _ => hslot
        · intro j holder hj hholder
          have hstored := hheld.kept hlive hcurrent (fun _ _ hslot _ => hslot) j holder hj hholder
          rw [herased]
          by_cases hjk : j = k
          · subst hjk
            obtain ⟨hsuffix, holder', slot, hholder', hslot, htext⟩ := ownedSlot_eq_some hk
            rw [hstored] at hslot
            cases hslot
            refine absurd ⟨hj.trans hsuffix.symm, ?_⟩ hstranger
            rw [hholder, hholder', HolderId.eq_of_text htext]
          · rw [AList.lookup_erase_ne hjk]
            exact hstored
  · intro g hg
    rcases List.mem_or_eq_of_mem_set hg with hold | rfl
    · exact h.recent g hold
    · exact h.recent p hp
  · exact pairwise_set index h.distinct (fun _ _ hlive => absurd hlive (hdead now))
      fun _ hlive => absurd hlive (hdead now)

theorem slotsHeld_step [TokenNumber T] {i : Input} (hlimit : throttler.concurrencyLimit = some limit)
    (hown : ReleasesOwnSlot i s) (h : SlotsHeld limit i.now s) :
    SlotsHeld limit i.now (step throttler i s).1 := by
  obtain ⟨now, delay, operation⟩ := i
  cases operation with
  | acquire holderId =>
      have hhold : maxHoldMicroseconds throttler = ceilMicroseconds limit.maxHoldDuration := by
        simp [maxHoldMicroseconds, hlimit]
      simp only [step, hhold]
      split
      · rename_i permit cell hacquire
        exact slotsHeld_acquired hlimit h hacquire
      · rename_i result cell hrefused hacquire
        refine slotsHeld_refused hlimit h hacquire ?_
        rintro ⟨permit, rfl⟩
        exact hrefused permit rfl
      · exact h
  | release index task =>
      simp only [step]
      split
      · exact h
      · rename_i p hp
        split
        · exact h
        · split
          · rename_i hrelease
            exact slotsHeld_released hlimit h (List.mem_of_getElem? hp) (hown p hp) hrelease
          · exact h

theorem slotsHeld_exec [TokenNumber T] {inputs : List Input} (hlimit : throttler.concurrencyLimit = some limit)
    (hsorted : (inputs.map (·.now)).Pairwise (· ≤ ·)) (hlater : ∀ i ∈ inputs, moment ≤ i.now)
    (hown : Meets ReleasesOwnSlot (step throttler) inputs s) (h : SlotsHeld limit moment s)
    (hend : moment ≤ moment') (hbefore : ∀ i ∈ inputs, i.now ≤ moment') :
    SlotsHeld limit moment' (exec (step throttler) inputs s) := by
  induction inputs generalizing s moment with
  | nil => exact h.later hend
  | cons i inputs ih =>
      rw [List.map_cons, List.pairwise_cons] at hsorted
      have hstep := slotsHeld_step hlimit hown.1 (h.later (hlater i List.mem_cons_self))
      refine ih hsorted.2 (fun j hj => hsorted.1 _ (List.mem_map_of_mem hj)) hown.2 hstep
        (hbefore i List.mem_cons_self) fun j hj => hbefore j (List.mem_cons_of_mem _ hj)

/-- Live grants hold different slots among the configured ones. -/
theorem SlotsHeld.count_le (h : SlotsHeld limit moment s) :
    s.grants.countP (fun g => g.Live moment) ≤ limit.maxConcurrent := by
  have hnodup : ((s.grants.filter fun g => g.Live moment).map (·.permit.slotSuffix)).Nodup := by
    rw [List.Nodup, List.pairwise_map, List.pairwise_filter]
    refine h.distinct.imp fun hne hlive hlive' => ?_
    exact hne (by simpa using hlive) (by simpa using hlive')
  have hsub : (s.grants.filter fun g => g.Live moment).map (·.permit.slotSuffix) ⊆
      (List.range' 1 limit.maxConcurrent).map some := by
    intro suffix hsuffix
    obtain ⟨g, hg, rfl⟩ := List.mem_map.1 hsuffix
    obtain ⟨hmem, hlive⟩ := List.mem_filter.1 hg
    obtain ⟨-, k, -, -, -, hk, -, hpos, hbound, -⟩ := h.holds g hmem (by simpa using hlive)
    exact List.mem_map.2 ⟨k, List.mem_range'_1.2 ⟨hpos, by omega⟩, hk.symm⟩
  have hlength := (List.subperm_of_subset hnodup hsub).length_le
  rw [List.countP_eq_length_filter]
  simpa using hlength

/-- When no release presents the slot and holder of another live permit, every
live permit keeps its slot, and at no moment are there more than the limit. -/
theorem concurrency_bounded [TokenNumber T] (throttler : Throttler)
    (limit : ResolvedThrottlerConcurrencyLimit) (hlimit : throttler.concurrencyLimit = some limit)
    (cell : Cell T) (inputs : List Input)
    (hsorted : (inputs.map (·.now)).Pairwise (· ≤ ·))
    (hown : Meets ReleasesOwnSlot (step throttler) inputs ⟨cell, []⟩) (moment : Int)
    (hmoment : ∀ i ∈ inputs, i.now ≤ moment) :
    (exec (step throttler) inputs ⟨cell, []⟩).grants.countP (fun g => g.Live moment) ≤
      limit.maxConcurrent ∧
      ∀ g ∈ (exec (step throttler) inputs ⟨cell, []⟩).grants, g.Live moment →
        Holds limit (exec (step throttler) inputs ⟨cell, []⟩).cell g := by
  have hopening (first : Int) : SlotsHeld limit first ⟨cell, []⟩ :=
    ⟨by simp, by simp, List.Pairwise.nil⟩
  have hheld : SlotsHeld limit moment (exec (step throttler) inputs ⟨cell, []⟩) := by
    cases inputs with
    | nil => exact hopening moment
    | cons i inputs =>
        have hfirst : ∀ j ∈ i :: inputs, i.now ≤ j.now := by
          rw [List.map_cons, List.pairwise_cons] at hsorted
          rw [List.forall_mem_cons]
          exact ⟨le_rfl, fun j hj => hsorted.1 _ (List.mem_map_of_mem hj)⟩
        exact slotsHeld_exec hlimit hsorted hfirst hown
          (hopening i.now) (hmoment i List.mem_cons_self) hmoment
  exact ⟨hheld.count_le, hheld.holds⟩

def oneAtATime : ResolvedThrottlerConcurrencyLimit := ⟨1, 1000000000, by decide, by decide, by decide⟩

def exclusive : Throttler where
  key := "exclusive"
  rateLimit := none
  concurrencyLimit := some oneAtATime
  circuitBreaker := none
  stateTtl := oneSecondStateTtl
  ttl_eq := by rfl

def worker : HolderId := ⟨"worker", by decide, by decide, by decide⟩

def stranger : HolderId := ⟨"stranger", by decide, by decide, by decide⟩

def unused : System Binary64.Float64 := ⟨none, []⟩

def acquireAt (now : Int) (holderId : HolderId) : Input := ⟨now, 0, .acquire (some holderId)⟩

def releaseAt (now : Int) (grant : Nat) : Input := ⟨now, 0, .release grant .succeeded⟩

theorem concurrency_bounded_late_release :
    (exec (step exclusive) [acquireAt 0 worker, acquireAt 1000000 stranger, releaseAt 1100000 0,
      acquireAt 1200000 worker] unused).grants.countP (fun g => g.Live 1300000) ≤ 1 :=
  (concurrency_bounded exclusive oneAtATime rfl none
    _ (by decide) (by decide +kernel) 1300000 (by decide)).1

/-- The worker's first hold has run out and its second one is on; the late release
of the first takes the slot from the second, and a stranger is let in beside it. -/
theorem late_release_frees_live_slot :
    ¬(exec (step exclusive) [acquireAt 0 worker, acquireAt 1000000 worker, releaseAt 1100000 0,
      acquireAt 1200000 stranger] unused).grants.countP (fun g => g.Live 1300000) ≤
        oneAtATime.maxConcurrent := by
  decide +kernel

end Paranoid.ThrottlerSlots
