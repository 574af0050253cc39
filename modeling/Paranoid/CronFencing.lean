import Paranoid.CronSteps

namespace Paranoid.CronFencing

open MutexGuardModel hiding step start advance State Event
open LeaseFencing hiding claimedToken claimedTokens_increase
open Function LeaseModel LeaseStatements ErrorModel MutexGuard CronModel CronSteps Transitions
open LeaseRuns hiding step Output

variable {t : ErrorType} {cron : Cron} {event : Event t} {s : State t} {past : List (Event t)}

/-- A statement, the cron's own or another's, has claimed the key. -/
def ClaimsKey (key : Key) (out : Output) : Prop :=
  ∃ claim, out = .statement (.claimed (.ok (some claim))) ∧ claim.key = key

/-- The step is a claim of the cron's own that has given it a guard with this claim. -/
structure Acquires (cron : Cron) (event : Event t) (out : Output) (claim : Claim) : Prop where
  claims : ∃ attempt leaseToken rowVisible, event = .claims attempt leaseToken rowVisible
  claimed : out = .statement (.claimed (.ok (some claim)))
  key : claim.key = cron.leaseKey

section Tables

variable {before after : Tables} {out : Output} {key : Key} {token : Int}

theorem counter_shows (h : Shows before after out) (key : Key) :
    counter key before ≤ counter key after := by
  rcases h with ⟨rfl, -⟩ | ⟨other, drawn, result, -, heffect⟩
  · exact le_rfl
  · exact counter_le_effect heffect key

theorem superseded_shows (h : Shows before after out) (hcounter : token ≤ counter key before)
    (hs : ClaimsKey key out ∨ Superseded key token before) : Superseded key token after := by
  rcases h with ⟨rfl, hout⟩ | ⟨other, drawn, result, rfl, heffect⟩
  · rcases hs with ⟨claim, hclaim, -⟩ | hs
    · exact absurd hclaim (hout _)
    · exact hs
  · rcases hs with ⟨claim, hclaim, hkey⟩ | hs
    · cases hclaim
      exact superseded_of_claimSucceeds heffect hcounter ⟨claim, rfl, hkey⟩
    · exact superseded_effect heffect hcounter hs

theorem claimedToken_eq_some : claimedToken key (event, out) = some token ↔
    ∃ claim, out = .statement (.claimed (.ok (some claim))) ∧ claim.key = key ∧
      claim.fencingToken.value = token := by
  constructor
  · intro h
    unfold claimedToken at h
    split at h
    · rename_i claim heq
      split at h
      · rename_i hkey
        cases h
        exact ⟨claim, congrArg Prod.snd heq, hkey, rfl⟩
      · cases h
    · cases h
  · rintro ⟨claim, rfl, hkey, rfl⟩
    simp [claimedToken, hkey]

theorem claimedToken_shows (h : Shows before after out) (hn : claimedToken key (event, out) = some token) :
    counter key before < token ∧ token ≤ counter key after := by
  obtain ⟨claim, rfl, rfl, rfl⟩ := claimedToken_eq_some.1 hn
  rcases h with ⟨-, hout⟩ | ⟨other, drawn, result, hresult, heffect⟩
  · exact absurd rfl (hout _)
  · cases hresult
    cases heffect with
    | refused hc => exact absurd rfl (hc claim)
    | claimed above =>
        exact ⟨counter_lt_of_above above, (counter_putCounter_self _ _ _).ge⟩

end Tables

theorem starts_of_step {snapshot : MutexGuardSnapshot} (h : (step cron event s).2 = .starts snapshot) :
    event = .advances ∧ ∃ holderId claim, s.place = .guarded holderId .executing ∧
      s.guard.currentClaim = some claim ∧ snapshot = guardSnapshot claim := by
  have hsteps := steps cron event s
  generalize (step cron event s).1 = s', (step cron event s).2 = out at h hsteps
  have hnot : ∀ statement, ofStatement statement ≠ .starts snapshot := by
    intro statement
    cases statement <;> simp [ofStatement]
  cases hsteps with
  | stays | others | moves | draws | resumes | ends => cases h
  | claims | guards => exact absurd h (hnot _)
  | starts hplace hclaim =>
      cases h
      exact ⟨rfl, _, _, hplace, hclaim, rfl⟩

/-- The tokens with which the task has been started, in order. -/
def started (cron : Cron) (past : List (Event t)) : List Int :=
  (trace (step cron) past start).filterMap startedToken

theorem started_append (cron : Cron) (past : List (Event t)) (event : Event t) :
    started cron (past ++ [event]) = started cron past ++
      (startedToken (event, (step cron event (exec (step cron) past start)).2)).toList := by
  simp only [started, trace_append, List.filterMap_append, trace_cons, trace_nil]
  cases h : startedToken (event, (step cron event (exec (step cron) past start)).2) <;> simp [h]

/-- While the cron has a guard: since the claim that it was given, the task has only been
started with its token, and no claim of the key has succeeded or the token is overtaken. -/
structure Tenure (cron : Cron) (past : List (Event t)) (s : State t) (claim : Claim) : Prop where
  counter : claim.fencingToken.value ≤ counter cron.leaseKey s.guard.tables
  keepsToken : ∀ holderId, KeepsToken (cron.mutex holderId) claim s.guard
  started : ∀ token ∈ started cron past, token ≤ claim.fencingToken.value
  since : ∃ earlier acquired middle, past = earlier ++ acquired :: middle ∧
    Acquires cron acquired (step cron acquired (exec (step cron) earlier start)).2 claim ∧
    (∀ entry ∈ trace (step cron) middle (exec (step cron) (earlier ++ [acquired]) start),
      ∀ token, startedToken entry = some token → token = claim.fencingToken.value) ∧
    ((∀ entry ∈ trace (step cron) middle (exec (step cron) (earlier ++ [acquired]) start),
        ¬ClaimsKey cron.leaseKey entry.2) ∨
      Superseded cron.leaseKey claim.fencingToken.value s.guard.tables)

/-- What the past of every run is like. -/
structure History (cron : Cron) (past : List (Event t)) (s : State t) : Prop where
  sorted : (started cron past).Pairwise (· ≤ ·)
  counter : ∀ token ∈ started cron past, token ≤ counter cron.leaseKey s.guard.tables
  held : holds s.place = true → ∃ claim, Tenure cron past s claim

variable {claim : Claim}

theorem keepsToken_holder {guard : MutexGuardModel.State t Unit} {holderId : HolderId}
    (h : KeepsToken (cron.mutex holderId) claim guard) (other : HolderId) :
    KeepsToken (cron.mutex other) claim guard :=
  ⟨h.current, h.renewed⟩

theorem Tenure.startedToken_eq (h : Tenure cron past s claim) {token : Int}
    (hstarted : startedToken (event, (step cron event s).2) = some token) :
    token = claim.fencingToken.value := by
  unfold startedToken at hstarted
  split at hstarted
  · rename_i snapshot heq
    obtain ⟨-, holderId, current, -, hcurrent, rfl⟩ := starts_of_step (congrArg Prod.snd heq)
    cases hstarted
    exact congrArg FencingToken.value ((h.keepsToken holderId).current current hcurrent).2
  · cases hstarted

/-- A tenure goes on for as long as the step keeps the guard. -/
theorem Tenure.next (hs : s = exec (step cron) past start) (h : Tenure cron past s claim)
    (hkeeps : ∀ holderId, KeepsToken (cron.mutex holderId) claim (step cron event s).1.guard) :
    Tenure cron (past ++ [event]) (step cron event s).1 claim := by
  have hshows := shows_step cron event s
  refine ⟨h.counter.trans (counter_shows hshows cron.leaseKey), hkeeps, ?_, ?_⟩
  · intro token htoken
    rw [started_append, ← hs] at htoken
    rcases List.mem_append.1 htoken with htoken | htoken
    · exact h.started token htoken
    · exact (h.startedToken_eq (Option.mem_toList.1 htoken)).le
  · obtain ⟨earlier, acquired, middle, rfl, hacquires, htokens, hsince⟩ := h.since
    have hmiddle : exec (step cron) middle (exec (step cron) (earlier ++ [acquired]) start) = s := by
      rw [hs, ← exec_append, List.append_assoc, List.singleton_append]
    refine ⟨earlier, acquired, middle ++ [event], by simp, hacquires, ?_, ?_⟩
    · intro entry hentry token htoken
      rw [trace_append, hmiddle] at hentry
      rcases List.mem_append.1 hentry with hentry | hentry
      · exact htokens entry hentry token htoken
      · rw [List.mem_singleton.1 hentry] at htoken
        exact h.startedToken_eq htoken
    · rw [trace_append, hmiddle]
      by_cases hclaims : ClaimsKey cron.leaseKey (step cron event s).2
      · exact .inr (superseded_shows hshows h.counter (.inl hclaims))
      · rcases hsince with hnone | hsuperseded
        · left
          intro entry hentry
          rcases List.mem_append.1 hentry with hentry | hentry
          · exact hnone entry hentry
          · rw [List.mem_singleton.1 hentry]
            exact hclaims
        · exact .inr (superseded_shows hshows h.counter (.inr hsuperseded))

theorem History.begins (hs : s = exec (step cron) past start) (h : History cron past s)
    (hacquires : Acquires cron event (step cron event s).2 claim)
    (hkeeps : ∀ holderId, KeepsToken (cron.mutex holderId) claim (step cron event s).1.guard)
    (hcounter : claim.fencingToken.value ≤
      LeaseFencing.counter cron.leaseKey (step cron event s).1.guard.tables) :
    Tenure cron (past ++ [event]) (step cron event s).1 claim := by
  have hlt : LeaseFencing.counter cron.leaseKey s.guard.tables < claim.fencingToken.value :=
    (claimedToken_shows (shows_step cron event s)
      (claimedToken_eq_some.2 ⟨claim, hacquires.claimed, hacquires.key, rfl⟩ :
        claimedToken cron.leaseKey (event, (step cron event s).2) = _)).1
  refine ⟨hcounter, hkeeps, ?_, past, event, [], rfl, hs ▸ hacquires, by simp, .inl (by simp)⟩
  intro token htoken
  rw [started_append, ← hs, hacquires.claimed] at htoken
  rcases List.mem_append.1 htoken with htoken | htoken
  · exact (h.counter token htoken).trans hlt.le
  · simp [startedToken] at htoken

theorem held_step (hs : s = exec (step cron) past start) (hcoherent : Coherent s) (h : History cron past s)
    (hholds : holds (step cron event s).1.place = true) :
    ∃ claim, Tenure cron (past ++ [event]) (step cron event s).1 claim := by
  have hnext : holds s.place = true →
      (∀ claim, Tenure cron past s claim → ∀ holderId,
        KeepsToken (cron.mutex holderId) claim (step cron event s).1.guard) →
      ∃ claim, Tenure cron (past ++ [event]) (step cron event s).1 claim := by
    intro hheld hkeeps
    obtain ⟨claim, htenure⟩ := h.held hheld
    exact ⟨claim, htenure.next hs (hkeeps claim htenure)⟩
  have hsteps := steps cron event s
  generalize hafter : (step cron event s).1 = s', hout : (step cron event s).2 = out at *
  cases hsteps with
  | stays => exact hnext hholds fun claim htenure => htenure.keepsToken
  | others =>
      exact hnext hholds fun claim htenure holderId =>
        ⟨(htenure.keepsToken holderId).current, (htenure.keepsToken holderId).renewed⟩
  | moves same other => exact hnext (same ▸ hholds) fun claim htenure => htenure.keepsToken
  | draws => cases hholds
  | @claims attempt leaseToken rowVisible holderId hplace =>
      have hclaiming : s.guard.progress = .claiming := by simpa only [Coherent, hplace] using hcoherent
      rcases claim_cases cron hclaiming holderId attempt leaseToken rowVisible with
        ⟨-, hprogress⟩ | ⟨claim, hclaim, hprogress, hkey, hkeeps, hcounter⟩
      · rw [holds_placeAfterClaim hprogress] at hholds
        cases hholds
      · refine ⟨claim, ?_⟩
        rw [← hafter]
        refine h.begins hs ⟨⟨_, _, _, rfl⟩, ?_, hkey⟩ ?_ ?_
        · rw [hout, hclaim]
          rfl
        · rw [hafter]
          exact keepsToken_holder hkeeps
        · rw [hafter]
          exact hcounter
  | resumes hplace =>
      exact hnext (by rw [hplace]; rfl) fun claim htenure holderId =>
        keepsToken_progress (htenure.keepsToken holderId)
  | guards guardEvent hplace =>
      have hguarded : ¬Unguarded s.guard.progress := by simpa only [Coherent, hplace] using hcoherent
      exact hnext (by rw [hplace]; rfl) fun claim htenure =>
        keepsToken_holder (keepsToken_guard_step hguarded (htenure.keepsToken _))
  | starts hplace =>
      exact hnext (by rw [hplace]; rfl) fun claim htenure holderId =>
        keepsToken_advance (htenure.keepsToken holderId)
  | ends =>
      rw [holds_placeAfterTenure] at hholds
      cases hholds

theorem history_step (hs : s = exec (step cron) past start) (hcoherent : Coherent s)
    (h : History cron past s) : History cron (past ++ [event]) (step cron event s).1 := by
  have hcounter := counter_shows (shows_step cron event s) cron.leaseKey
  have hstarts : ∀ token, startedToken (event, (step cron event s).2) = some token →
      ∃ claim, Tenure cron past s claim ∧ token = claim.fencingToken.value := by
    intro token htoken
    obtain ⟨snapshot, hout⟩ : ∃ snapshot, (step cron event s).2 = .starts snapshot := by
      unfold startedToken at htoken
      split at htoken
      · rename_i snapshot heq
        exact ⟨snapshot, congrArg Prod.snd heq⟩
      · cases htoken
    obtain ⟨-, holderId, current, hplace, -, -⟩ := starts_of_step hout
    obtain ⟨claim, htenure⟩ := h.held (by rw [hplace]; rfl)
    exact ⟨claim, htenure, htenure.startedToken_eq htoken⟩
  refine ⟨?_, ?_, held_step hs hcoherent h⟩
  · rw [started_append, ← hs, List.pairwise_append]
    refine ⟨h.sorted, Option.pairwise_toList, ?_⟩
    intro earlier hearlier token htoken
    obtain ⟨claim, htenure, rfl⟩ := hstarts token (Option.mem_toList.1 htoken)
    exact htenure.started earlier hearlier
  · intro token htoken
    rw [started_append, ← hs] at htoken
    rcases List.mem_append.1 htoken with htoken | htoken
    · exact (h.counter token htoken).trans hcounter
    · obtain ⟨claim, htenure, rfl⟩ := hstarts token (Option.mem_toList.1 htoken)
      exact htenure.counter.trans hcounter

theorem history_exec (cron : Cron) (events : List (Event t)) :
    History cron events (exec (step cron) events start) := by
  induction events using List.reverseRecOn with
  | nil => exact ⟨by simp [started], by simp [started], by simp [start, holds]⟩
  | append_singleton past event ih =>
      rw [exec_append, exec_cons, exec_nil]
      exact history_step rfl (coherent_exec cron past) ih

theorem claimedTokens_increase (cron : Cron) (events : List (Event t)) (key : Key) :
    ((trace (step cron) events start).filterMap (claimedToken key)).Pairwise (· < ·) :=
  (trace_stamps (m := fun s : State t => counter key s.guard.tables) (fun _ => True)
    (fun _ _ _ => trivial) (fun event s _ => counter_shows (shows_step cron event s) key)
    (fun event s _ _ hn => claimedToken_shows (shows_step cron event s) hn) events trivial).1

/-- In every run of a cron, whatever other clients do: the fencing tokens that its task is
started with never decrease, each of them is the token of a claim that the cron has made
before, and no other client is ever given that token. -/
theorem cron_tasks_fenced (cron : Cron) (events : List (Event t)) :
    (started cron events).Pairwise (· ≤ ·) ∧
    ∀ earlier event later snapshot, events = earlier ++ event :: later →
      (step cron event (exec (step cron) earlier start)).2 = .starts snapshot →
      (∃ entry ∈ trace (step cron) earlier start, acquires entry = true ∧
        claimedToken cron.leaseKey entry = some snapshot.fencingToken.value) ∧
      ∀ entry ∈ trace (step cron) events start,
        claimedToken cron.leaseKey entry = some snapshot.fencingToken.value → acquires entry = true := by
  refine ⟨(history_exec cron events).sorted, ?_⟩
  rintro earlier event later snapshot rfl hstarts
  obtain ⟨-, holderId, current, hplace, hcurrent, rfl⟩ := starts_of_step hstarts
  obtain ⟨claim, htenure⟩ := (history_exec cron earlier).held (by rw [hplace]; rfl)
  have htoken := ((htenure.keepsToken holderId).current current hcurrent).2
  have hown : ∃ entry ∈ trace (step cron) earlier start, acquires entry = true ∧
      claimedToken cron.leaseKey entry = some current.leaseClaim.fencingToken.value := by
    obtain ⟨before, acquired, middle, rfl, hacquires, -, -⟩ := htenure.since
    refine ⟨_, by rw [trace_append, trace_cons]; exact List.mem_append_right _ List.mem_cons_self, ?_, ?_⟩
    · obtain ⟨attempt, leaseToken, rowVisible, rfl⟩ := hacquires.claims
      rw [hacquires.claimed]
      rfl
    · exact claimedToken_eq_some.2 ⟨claim, hacquires.claimed, hacquires.key, by rw [htoken]⟩
  refine ⟨hown, ?_⟩
  intro entry hentry hclaimed
  obtain ⟨own, hmem, hacquires, hown⟩ := hown
  have heq : own = entry := by
    apply eq_of_stamp (claimedTokens_increase cron _ cron.leaseKey) _ hentry hown hclaimed
    rw [trace_append]
    exact List.mem_append_left _ hmem
  exact heq ▸ hacquires

/-- The past ends in a tenure of the cron: since the claim that began it, no claim of the key
has succeeded, whoever made it, and every run of the task was started with its token. -/
def ExclusiveTenure (cron : Cron) (past : List (Event t)) : Prop :=
  ∃ earlier acquired middle claim, past = earlier ++ acquired :: middle ∧
    Acquires cron acquired (step cron acquired (exec (step cron) earlier start)).2 claim ∧
    ∀ entry ∈ trace (step cron) middle (exec (step cron) (earlier ++ [acquired]) start),
      ¬ClaimsKey cron.leaseKey entry.2 ∧
      ∀ token, startedToken entry = some token → token = claim.fencingToken.value

/-- Every tenure whose release finds the lease held was exclusive, whatever other clients do
and however many tenures the cron has had before. -/
theorem cron_tenure_exclusive (cron : Cron) (past : List (Event t)) (now : Int)
    (hreleased : (step cron (.releases (.ok now)) (exec (step cron) past start)).2 =
      .statement (.released (.ok true))) : ExclusiveTenure cron past := by
  rcases release_cases cron (.ok now) (exec (step cron) past start) with
    heq | ⟨holderId, ending, hplace, heq⟩
  · simp only [step, heq] at hreleased
    cases hreleased
  · obtain ⟨claim, htenure⟩ := (history_exec cron past).held (by rw [hplace]; rfl)
    obtain ⟨earlier, acquired, middle, rfl, hacquires, htokens, hsince⟩ := htenure.since
    refine ⟨earlier, acquired, middle, claim, rfl, hacquires, ?_⟩
    rcases hsince with hnone | hsuperseded
    · exact fun entry hentry => ⟨hnone entry hentry, htokens entry hentry⟩
    · -- the row that the release deletes carries the token of the claim
      exfalso
      simp only [step, heq, MutexGuardModel.step] at hreleased
      rcases tryRelease_cases (cron.mutex holderId) (.ok now)
          (exec (step cron) (earlier ++ acquired :: middle) start).guard with
        htry | ⟨taskResult, -, htry | ⟨error, htry⟩ | ⟨now', current, hnow, hcurrent, hkey, htry⟩⟩
      · rw [htry] at hreleased
        cases hreleased
      · rw [htry] at hreleased
        cases hreleased
      · rw [htry] at hreleased
        cases hreleased
      · rw [htry, releaseLease_eq] at hreleased
        cases hrow : authorisedRow now' current.leaseClaim
            (exec (step cron) (earlier ++ acquired :: middle) start).guard.tables with
        | none => simp [ofStatement, hrow] at hreleased
        | some row =>
            obtain ⟨hheld, hauthorised⟩ := authorisedRow_eq_some.1 hrow
            rw [show current.leaseClaim.key = cron.leaseKey from hkey] at hheld
            have hlt := hsuperseded row hheld
            rw [hauthorised.2.1, ((htenure.keepsToken holderId).current current hcurrent).2] at hlt
            exact lt_irrefl _ hlt

def sampleCron : Cron where
  key := sampleRun.key
  leaseKey := sampleRun.leaseKey
  claimDuration := sampleRun.claimDuration
  maxConsecutiveRenewalFailures := 3
  continuous := true

/-- The task is run once, and then the cron is stopped. -/
def samplePast : List (Event .other) :=
  [.generates (.ok sampleRun.holderId), .claims (.ok 0) (sampleToken 1) true, .advances, .advances,
    .taskReturns (.ok ()), .advances, .advances, .stops]

theorem cron_tenure_exclusive_stopped : ExclusiveTenure sampleCron samplePast :=
  cron_tenure_exclusive sampleCron samplePast 500000 rfl

end Paranoid.CronFencing
