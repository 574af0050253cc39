import Paranoid.LeaseAuthority
import Paranoid.LeaseFencing
import Paranoid.MutexGuardModel

namespace Paranoid.MutexGuard

open LeaseRuns hiding step
open Function LeaseModel LeaseStatements LeaseFencing Transitions ErrorModel MutexGuardModel

variable {t : ErrorType} {α : Type}

/-- The result says that leadership was lost, or that the release failed. -/
def SaysLostOrReleaseFailed : ErrorValue (.mutexRun t) → Prop
  | .mutexRunFleet _ => False
  | .mutexRunTask _ => False
  | .mutexRunLeadershipLost => True
  | .mutexRunFleetAndLeadershipLost _ => True
  | .mutexRunTaskAndLeadershipLost _ => True
  | .mutexRunLeadershipLostAndRelease _ => True
  | .mutexRunRelease _ => True
  | .mutexRunFleetAndRelease _ _ => True
  | .mutexRunTaskAndRelease _ _ => True

/-- A statement of the run, the guard's own or another's, has claimed the key. -/
def ClaimSucceeds (key : Key) (out : Option Output) : Prop :=
  ∃ claim, out = some (.claimed (.ok (some claim))) ∧ claim.key = key

/-- The step that hands the run its guard. -/
structure TakesGuard (run : GuardedRun) (event : Event t α) (s : State t α) (claim : Claim) : Prop where
  claiming : s.progress = .claiming
  claims : (step run event s).2 = some (.claimed (.ok (some claim)))
  claimed : (step run event s).1.progress = .claimed

/-- The step that executes the release statement of the guard, which finds the row of the
lease unexpired, under the fencing token of the claim, and deletes it. -/
structure FindsHeld (run : GuardedRun) (event : Event t α) (s : State t α) (claim : Claim) : Prop where
  releases : ∃ now, event = .releases (.ok now) ∧
    ∃ row, s.tables.leases run.leaseKey = some row ∧
      row.fencingToken = claim.fencingToken ∧ now < row.expiresAt
  executed : ∃ taskResult, s.progress = .executed taskResult
  released : (step run event s).2 = some (.released (.ok true))

/-- In the run, the guard's release found the lease still held under the token of the
guard's claim, and no claim of the key succeeded between the two. -/
def HeldThroughout (run : GuardedRun) (events : List (Event t α)) : Prop :=
  ∃ earlier claims middle releases later claim,
    events = earlier ++ claims :: (middle ++ releases :: later) ∧
    TakesGuard run claims (exec (step run) earlier start) claim ∧
    FindsHeld run releases (exec (step run) (earlier ++ claims :: middle) start) claim ∧
    ∀ entry ∈ trace (step run) middle (exec (step run) (earlier ++ [claims]) start),
      ¬ClaimSucceeds run.leaseKey entry.2

section Tables

variable {tables tables' : Tables} {key other : Key} {drawn : Option Token} {out : Output} {token : Int}

/-- The fencing token has been overtaken: no row of the key carries it any more. -/
def Superseded (key : Key) (token : Int) (tables : Tables) : Prop :=
  ∀ row, tables.leases key = some row → token < row.fencingToken.value

theorem superseded_effect (h : Effect tables other drawn tables' out)
    (hcounter : token ≤ counter key tables)
    (hs : Superseded key token tables) : Superseded key token tables' := by
  intro row hrow
  by_cases hk : key = other
  · subst hk
    cases h with
    | refused => exact hs row hrow
    | bumped => exact hs row hrow
    | claimed above =>
        simp only [Tables.putLease, update_self, Option.some.injEq] at hrow
        subst hrow
        exact hcounter.trans_lt (counter_lt_of_above above)
    | @renewed old _ _ held =>
        simp only [Tables.putLease, update_self, Option.some.injEq] at hrow
        subst hrow
        exact hs old held
    | released => simp [Tables.deleteLease] at hrow
  · refine hs row ?_
    cases h <;> simpa [Tables.putLease, Tables.putCounter, Tables.deleteLease, hk] using hrow

/-- Each claim of a key gives its row a token that the counter had not reached. -/
theorem superseded_of_claimSucceeds (h : Effect tables other drawn tables' out)
    (hcounter : token ≤ counter key tables) (hclaim : ClaimSucceeds key (some out)) :
    Superseded key token tables' := by
  obtain ⟨claim, hout, rfl⟩ := hclaim
  cases h with
  | refused hc => exact absurd (Option.some.inj hout) (hc claim)
  | bumped => simp at hout
  | claimed above =>
      cases hout
      intro row hrow
      simp only [Tables.putLease, update_self, Option.some.injEq] at hrow
      subst hrow
      exact hcounter.trans_lt (counter_lt_of_above above)
  | renewed => simp at hout
  | released => simp at hout

end Tables

variable {run : GuardedRun} {event : Event t α}
  {s : State t α} {claim : Claim} {past : List (Event t α)}

@[simp] theorem advance_tables (s : State t α) : (advance s).tables = s.tables := by
  unfold advance
  split <;> (try split) <;> (try split) <;> rfl

@[simp] theorem taskReturn_tables (result : Except (ErrorValue t) α) (s : State t α) :
    (taskReturn result s).tables = s.tables := by
  unfold taskReturn
  split <;> rfl

@[simp] theorem beat_tables (run : GuardedRun) (s : State t α) : (beat run s).tables = s.tables := by
  unfold beat
  split <;> (try split) <;> (try split) <;> rfl

@[simp] theorem notify_tables (s : State t α) : (notify s).tables = s.tables := by
  unfold notify
  split <;> (try split) <;> rfl

@[simp] theorem die_tables (source : ErrorValue .other) (s : State t α) :
    (die source s).tables = s.tables := by
  unfold die
  split <;> rfl

theorem tryClaim_cases (run : GuardedRun) (attempt : FleetResult Int)
    (leaseToken : Token) (rowVisible : Bool)
    (s : State t α) :
    tryClaim run attempt leaseToken rowVisible s = (s, none) ∨ s.progress = .claiming ∧
      ((∃ error, tryClaim run attempt leaseToken rowVisible s =
        ({ s with progress := .notGuarded (.error error) }, none)) ∨
      ∃ now tables result, LeaseRuns.step ⟨now,
        .claim run.leaseKey run.holderId leaseToken run.claimDuration rowVisible⟩ s.tables =
          (tables, .claimed result) ∧
        ((∀ claim, result ≠ .ok (some claim)) ∧
          (∃ progress, (progress = .claiming ∨ ∃ r, progress = .notGuarded r) ∧
          tryClaim run attempt leaseToken rowVisible s =
            ({ s with tables, progress }, some (.claimed result))) ∨
        ∃ claim, result = .ok (some claim) ∧ tryClaim run attempt leaseToken rowVisible s =
          (guardFromClaim run claim { s with tables }, some (.claimed result)))) := by
  unfold tryClaim
  split
  · rename_i error hprogress
    exact .inr ⟨hprogress, .inl ⟨error, rfl⟩⟩
  · rename_i now hprogress
    rcases hstore : Store.tryClaimLease now rowVisible run.leaseKey
      run.holderId leaseToken run.claimDuration s.tables
      with ⟨tables, result⟩
    refine .inr ⟨hprogress, .inr ⟨now, tables, result, by simp [LeaseRuns.step, hstore], ?_⟩⟩
    cases result with
    | error error => exact .inl ⟨by simp, _, .inr ⟨_, rfl⟩, rfl⟩
    | ok answer =>
        cases answer with
        | none =>
            refine .inl ⟨by simp, ?_⟩
            by_cases hwaits : run.waits = true
            · exact ⟨_, .inl rfl, by rw [← hprogress]; simp [hwaits]⟩
            · exact ⟨_, .inr ⟨_, rfl⟩, by simp [hwaits]; rfl⟩
        | some claim => exact .inr ⟨claim, rfl, rfl⟩
  · exact .inl rfl

theorem tryRenew_cases (run : GuardedRun) (attempt : FleetResult Int)
    (nextLeaseToken : Token) (s : State t α) :
    tryRenew run attempt nextLeaseToken s = (s, none) ∨
      ∃ failures, (∃ error, tryRenew run attempt nextLeaseToken s =
          ({ s with heartbeat := .renewing failures (.error error) }, none)) ∨
        ∃ now claim tables result, s.currentClaim = some claim ∧
          LeaseRuns.step ⟨now, .renew claim.leaseClaim nextLeaseToken run.claimDuration⟩
            s.tables = (tables, .renewed result) ∧
          tryRenew run attempt nextLeaseToken s = ({ s with
            tables
            heartbeat := .renewing failures
              ((result.mapError fromCoordination).map (Option.map (claimFromLeaseClaim run))) },
                some (.renewed result)) := by
  unfold tryRenew
  split
  · rename_i failures claim _ hclaim
    split
    · exact .inl rfl
    · right
      refine ⟨failures, ?_⟩
      split
      · exact .inl ⟨_, rfl⟩
      · exact .inl ⟨_, rfl⟩
      · exact .inr ⟨_, claim, _, _, hclaim, rfl, rfl⟩
  · exact .inl rfl

theorem matches_of_require_eq_ok {claim : MutexManualRenewalClaim}
    (h : requireClaimMatchesMutex run claim = .ok ()) :
    claim.leaseClaim.key = run.leaseKey := by
  unfold requireClaimMatchesMutex at h
  split at h
  · cases h
  · rename_i hmatches
    exact not_not.1 (not_or.1 hmatches).2

theorem tryRelease_cases (run : GuardedRun) (attempt : FleetResult Int) (s : State t α) :
    tryRelease run attempt s = (s, none) ∨ ∃ taskResult, s.progress = .executed taskResult ∧
      (tryRelease run attempt s =
        ({ s with stopHeartbeat := true, progress := .stopping taskResult false }, none) ∨
      (∃ error, tryRelease run attempt s =
        ({ s with progress := .releasing taskResult (.error error) }, none)) ∨
      ∃ now claim, attempt = .ok now ∧ s.currentClaim = some claim ∧
        claim.leaseClaim.key = run.leaseKey ∧
        tryRelease run attempt s = ({ s with
          tables := (Store.releaseLease now claim.leaseClaim s.tables).1
          progress := .releasing taskResult
            ((Store.releaseLease now claim.leaseClaim s.tables).2.mapError fromCoordination) },
          some (.released (Store.releaseLease now claim.leaseClaim s.tables).2))) := by
  unfold tryRelease
  split
  · rename_i taskResult hprogress
    split
    · exact .inl rfl
    · refine .inr ⟨taskResult, hprogress, ?_⟩
      split
      · exact .inl rfl
      · rename_i claim hclaim
        right
        split
        · exact .inl ⟨_, rfl⟩
        · exact .inl ⟨_, rfl⟩
        · rename_i now hmatches
          exact .inr ⟨now, claim, rfl, hclaim, matches_of_require_eq_ok hmatches, rfl⟩
  · exact .inl rfl

theorem releases_eq (now : Int) (claim : Claim) (tables : Tables) :
    LeaseRuns.step ⟨now, .release claim⟩ tables =
    ((Store.releaseLease now claim tables).1, .released (Store.releaseLease now claim tables).2) := rfl

theorem issued_keeps_key {input : Input} {tables : Tables} {issued : Claim}
    (h : (LeaseRuns.step input tables).2 = .claimed (.ok (some issued)) ∨
      (LeaseRuns.step input tables).2 =
        .renewed (.ok (some issued))) : issued.key = input.operation.key := by
  have heffect := step_effect input tables
  generalize LeaseRuns.step input tables = after, input.drawnToken = drawn at h heffect
  obtain ⟨tables', out⟩ := after
  cases heffect with
  | refused hc hr => exact h.elim (fun h => absurd h (hc issued)) (fun h => absurd h (hr issued))
  | bumped => simp at h
  | claimed =>
      rcases h with h | h
      all_goals cases h
      rfl
  | renewed =>
      rcases h with h | h
      all_goals cases h
      rfl
  | released => simp at h

/-- What a step does to the tables, it does by one lease statement. -/
theorem step_tables (run : GuardedRun) (event : Event t α) (s : State t α) :
    (step run event s).1.tables = s.tables ∧ (step run event s).2 = none ∨
      ∃ key drawn out, (step run event s).2 = some out ∧
        Effect s.tables key drawn (step run event s).1.tables out := by
  cases event with
  | others input => exact .inr ⟨_, _, _, rfl, step_effect input s.tables⟩
  | claims attempt leaseToken rowVisible =>
      rcases tryClaim_cases run attempt leaseToken rowVisible s with
        h | ⟨-, ⟨error, h⟩ | ⟨now, tables, result, hstep, ⟨-, progress, -, h⟩ | ⟨claim, -, h⟩⟩⟩
      · exact .inl (by simp only [step, h, and_self])
      · exact .inl (by simp only [step, h, and_self])
      all_goals
        have heffect := step_effect
          ⟨now, .claim run.leaseKey run.holderId leaseToken run.claimDuration rowVisible⟩ s.tables
        rw [hstep] at heffect
        exact .inr ⟨_, _, .claimed result,
          by simp only [step, h], by simpa only [step, h, guardFromClaim] using heffect⟩
  | renews attempt nextLeaseToken =>
      rcases tryRenew_cases run attempt nextLeaseToken s with
        h | ⟨failures, ⟨error, h⟩ | ⟨now, claim, tables, result, -, hstep, h⟩⟩
      · exact .inl (by simp only [step, h, and_self])
      · exact .inl (by simp only [step, h, and_self])
      · have heffect := step_effect
          ⟨now, .renew claim.leaseClaim nextLeaseToken run.claimDuration⟩ s.tables
        rw [hstep] at heffect
        exact .inr ⟨_, _, .renewed result,
          by simp only [step, h], by simpa only [step, h] using heffect⟩
  | releases attempt =>
      rcases tryRelease_cases run attempt s with h |
        ⟨taskResult, -, h | ⟨error, h⟩ | ⟨now, claim, -, -, -, h⟩⟩
      · exact .inl (by simp only [step, h, and_self])
      · exact .inl (by simp only [step, h, and_self])
      · exact .inl (by simp only [step, h, and_self])
      · have heffect := step_effect ⟨now, .release claim.leaseClaim⟩ s.tables
        exact .inr ⟨_, _, .released (Store.releaseLease now claim.leaseClaim s.tables).2,
          by simp only [step, h],
          by simpa only [step, h, releases_eq] using heffect⟩
  | advances => exact .inl ⟨advance_tables s, rfl⟩
  | taskReturns result => exact .inl ⟨taskReturn_tables result s, rfl⟩
  | beats => exact .inl ⟨beat_tables run s, rfl⟩
  | isNotified => exact .inl ⟨notify_tables s, rfl⟩
  | dies source => exact .inl ⟨die_tables source s, rfl⟩

/-- The steps of the heartbeat and of other clients leave the run where it is. -/
theorem step_progress (run : GuardedRun) (s : State t α)
    (hothers : ∀ attempt leaseToken rowVisible, event ≠ .claims attempt leaseToken rowVisible)
    (hadvances : event ≠ .advances) (hreturns : ∀ result, event ≠ .taskReturns result)
    (hreleases : ∀ attempt, event ≠ .releases attempt) :
    (step run event s).1.progress = s.progress := by
  cases event with
  | others input => rfl
  | claims attempt leaseToken rowVisible => exact absurd rfl (hothers attempt leaseToken rowVisible)
  | advances => exact absurd rfl hadvances
  | taskReturns result => exact absurd rfl (hreturns result)
  | releases attempt => exact absurd rfl (hreleases attempt)
  | beats =>
      simp only [step, beat]
      split <;> (try split) <;> (try split) <;> rfl
  | isNotified =>
      simp only [step, notify]
      split <;> (try split) <;> rfl
  | renews attempt nextLeaseToken =>
      rcases tryRenew_cases run attempt nextLeaseToken s with
        heq | ⟨failures, ⟨error, heq⟩ | ⟨now, current, tables, result, -, -, heq⟩⟩
      all_goals simp only [step, heq]
  | dies source =>
      simp only [step, die]
      split <;> rfl

/-- A claim of the guard's key that carries the fencing token of the guard's first claim. -/
def CarriesToken (run : GuardedRun) (claim : Claim) (current : MutexManualRenewalClaim) : Prop :=
  current.leaseClaim.key = run.leaseKey ∧ current.leaseClaim.fencingToken = claim.fencingToken

/-- Renewals change the lease token of the guard's claim, and not its fencing token. -/
structure KeepsToken (run : GuardedRun) (claim : Claim) (s : State t α) : Prop where
  current : ∀ current, s.currentClaim = some current → CarriesToken run claim current
  renewed : ∀ failures renewed, s.heartbeat = .renewing failures (.ok (some renewed)) →
    CarriesToken run claim renewed

theorem keepsToken_guardFromClaim (hkey : claim.key = run.leaseKey) :
    KeepsToken run claim (guardFromClaim run claim s) := by
  constructor
  · rintro current ⟨⟩
    exact ⟨hkey, rfl⟩
  · intro failures renewed h
    cases h

theorem keepsToken_advance (h : KeepsToken run claim s) : KeepsToken run claim (advance s) := by
  have hnone : ∀ (progress : Progress t α) stop taken, KeepsToken run claim
      { s with currentClaim := none, stopHeartbeat := stop, heartbeatTaken := taken, progress } :=
    fun progress stop taken => ⟨by simp, h.renewed⟩
  have hsame : ∀ (progress : Progress t α) stop taken, KeepsToken run claim
      { s with stopHeartbeat := stop, heartbeatTaken := taken, progress } :=
    fun progress stop taken => ⟨h.current, h.renewed⟩
  unfold advance
  split
  · split <;> exact hsame _ _ _
  · split
    · exact h
    · split <;> exact hsame _ _ _
  · split <;> exact hsame _ _ _
  · exact hnone _ _ _
  · exact hsame _ _ _
  · split
    · exact h
    · exact hsame _ _ _
  · split <;> exact hsame _ _ _
  · split
    · exact h
    · exact hnone _ _ _
  · exact h

theorem keepsToken_beat (h : KeepsToken run claim s) : KeepsToken run claim (beat run s) := by
  unfold beat
  split
  · split <;> exact ⟨h.current, by simp⟩
  · split
    · exact h
    · split
      · exact ⟨h.current, by simp⟩
      · exact h
  · rename_i renewed hrenewed
    refine ⟨?_, by simp⟩
    rintro current ⟨⟩
    exact h.renewed _ _ hrenewed
  · exact ⟨by simp, by simp⟩
  · split
    · exact ⟨h.current, by simp⟩
    · split <;> exact ⟨h.current, by simp⟩
  · exact h

theorem keepsToken_renews {attempt : FleetResult Int}
    {nextLeaseToken : Token} (h : KeepsToken run claim s) :
    KeepsToken run claim (tryRenew run attempt nextLeaseToken s).1 := by
  rcases tryRenew_cases run attempt nextLeaseToken s with
    heq | ⟨failures, ⟨error, heq⟩ | ⟨now, current, tables, result, hcurrent, hstep, heq⟩⟩
  · rwa [heq]
  · rw [heq]
    exact ⟨h.current, by simp⟩
  · rw [heq]
    refine ⟨h.current, ?_⟩
    intro failures' renewed hanswer
    obtain ⟨hkey, htoken⟩ := h.current current hcurrent
    cases result with
    | error error => simp [Except.mapError, Except.map] at hanswer
    | ok answer =>
        cases answer with
        | none => simp [Except.mapError, Except.map] at hanswer
        | some leaseClaim =>
            simp only [Except.mapError, Except.map, Option.map_some,
              Heartbeat.renewing.injEq, Except.ok.injEq,
              Option.some.injEq] at hanswer
            have hout := congrArg Prod.snd hstep
            rw [← hanswer.2]
            exact ⟨(issued_keeps_key (.inr hout)).trans hkey,
              (renewal_keeps_token rfl hout).trans htoken⟩

theorem keepsToken_step (hguarded : s.progress ≠ .claiming) (h : KeepsToken run claim s) :
    KeepsToken run claim (step run event s).1 := by
  cases event with
  | others input => exact ⟨h.current, h.renewed⟩
  | claims attempt leaseToken rowVisible =>
      rcases tryClaim_cases run attempt leaseToken rowVisible s with heq | ⟨hclaiming, -⟩
      · simpa only [step, heq] using h
      · exact absurd hclaiming hguarded
  | advances => exact keepsToken_advance h
  | taskReturns result =>
      simp only [step, taskReturn]
      split <;> exact ⟨h.current, h.renewed⟩
  | releases attempt =>
      rcases tryRelease_cases run attempt s with heq |
        ⟨taskResult, -, heq | ⟨error, heq⟩ | ⟨now, current, -, -, -, heq⟩⟩
      all_goals
        simp only [step, heq]
        exact ⟨h.current, h.renewed⟩
  | beats => exact keepsToken_beat h
  | isNotified =>
      simp only [step, notify]
      split
      · split
        · exact ⟨h.current, by simp⟩
        · exact h
      · exact h
  | renews attempt nextLeaseToken => exact keepsToken_renews h
  | dies source =>
      simp only [step, die]
      split
      · exact h
      · exact ⟨h.current, by simp⟩

/-- What the run knows once its release has been answered: an answer that the lease was
held is true, and a result without it says what went wrong. -/
def Truthful (run : GuardedRun) (past : List (Event t α)) : Progress t α → Prop
  | .releasing _ answer => answer = .ok true → HeldThroughout run past
  | .stopping _ released => released = true → HeldThroughout run past
  | .tried _ result => result = .ok true → HeldThroughout run past
  | .joining _ result => result = .ok true → HeldThroughout run past
  | .finished result =>
      HeldThroughout run past ∨ ∃ error, result = .error error ∧ SaysLostOrReleaseFailed error
  | _ => True

theorem HeldThroughout.append (h : HeldThroughout run past) (event : Event t α) :
    HeldThroughout run (past ++ [event]) := by
  obtain ⟨earlier, claims, middle, releases, later, claim, rfl, hheld⟩ := h
  exact ⟨earlier, claims, middle, releases, later ++ [event], claim, by simp, hheld⟩

theorem Truthful.append {progress : Progress t α} (h : Truthful run past progress) (event : Event t α) :
    Truthful run (past ++ [event]) progress := by
  cases progress with
  | releasing taskResult answer => exact fun hanswer => (h hanswer).append event
  | stopping taskResult released => exact fun hreleased => (h hreleased).append event
  | tried taskResult result => exact fun hresult => (h hresult).append event
  | joining taskResult result => exact fun hresult => (h hresult).append event
  | finished result => exact h.imp (fun h => h.append event) id
  | claiming | notGuarded | claimed | snapshotting | running | returned | executed => trivial

theorem combine_stop_eq_ok_true {stopResult : FleetResult Unit} {result : FleetResult Bool}
    (h : combineMutexGuardStopAndReleaseResults stopResult result = .ok true) : result = .ok true := by
  cases stopResult <;> cases result <;> simp_all [combineMutexGuardStopAndReleaseResults]

/-- Whatever the task did: unless the release found the lease held, the result says so. -/
theorem combine_task_of_not_held {taskResult : RunResult t α}
    {result : FleetResult Bool} (h : result ≠ .ok true) :
    ∃ error, combineMutexTaskAndReleaseResults taskResult result = .error error ∧
      SaysLostOrReleaseFailed error := by
  cases taskResult with
  | ok value =>
      cases result with
      | ok released =>
          cases released with
          | false => exact ⟨_, rfl, trivial⟩
          | true => exact absurd rfl h
      | error releaseError => exact ⟨_, rfl, trivial⟩
  | error error =>
      cases result with
      | ok released =>
          cases released with
          | false => cases error <;> exact ⟨_, rfl, trivial⟩
          | true => exact absurd rfl h
      | error releaseError => cases error <;> exact ⟨_, rfl, trivial⟩

theorem truthful_finished {taskResult : RunResult t α} {result : FleetResult Bool}
    (h : result = .ok true → HeldThroughout run past) :
    Truthful run past (.finished (combineMutexTaskAndReleaseResults taskResult result)) := by
  by_cases hresult : result = .ok true
  · exact .inl (h hresult)
  · exact .inr (combine_task_of_not_held hresult)

theorem truthful_advance (h : Truthful run past s.progress) :
    Truthful run past (advance s).progress := by
  unfold advance
  split
  · split <;> trivial
  · split
    · exact h
    · split <;> trivial
  · split <;> trivial
  · rename_i taskResult released hprogress
    rw [hprogress] at h
    exact fun hreleased => h (hreleased ▸ rfl)
  · exact fun hresult => by cases hresult
  · rename_i taskResult released hprogress
    split
    · exact h
    · rw [hprogress] at h
      exact fun hresult => h (Except.ok.inj (combine_stop_eq_ok_true hresult))
  · rename_i taskResult result hprogress
    rw [hprogress] at h
    split
    · exact h
    · exact truthful_finished h
  · rename_i taskResult result hprogress
    split
    · exact h
    · rw [hprogress] at h
      exact truthful_finished fun hresult => h (combine_stop_eq_ok_true hresult)
  · exact h

/-- While the run is in its guard: its claim was handed out at some step, and since then
either no claim of the key has succeeded, or the token has been overtaken. -/
structure Guarded (run : GuardedRun) (past : List (Event t α)) (s : State t α) (claim : Claim) :
    Prop where
  counter : claim.fencingToken.value ≤ counter run.leaseKey s.tables
  keepsToken : KeepsToken run claim s
  truthful : Truthful run past s.progress
  since : ∃ earlier claims rest, past = earlier ++ claims :: rest ∧
    TakesGuard run claims (exec (step run) earlier start) claim ∧
    ((∀ entry ∈ trace (step run) rest (exec (step run) (earlier ++ [claims]) start), ¬ClaimSucceeds run.leaseKey entry.2) ∨
      Superseded run.leaseKey claim.fencingToken.value s.tables)

theorem counter_step (key : Key) (run : GuardedRun) (event : Event t α) (s : State t α) :
    counter key s.tables ≤ counter key (step run event s).1.tables := by
  rcases step_tables run event s with ⟨htables, -⟩ | ⟨other, drawn, out, -, heffect⟩
  · rw [htables]
  · exact counter_le_effect heffect key

theorem superseded_step {token : Int} {key : Key} (hcounter : token ≤ counter key s.tables)
    (h : ClaimSucceeds key (step run event s).2 ∨ Superseded key token s.tables) :
    Superseded key token (step run event s).1.tables := by
  rcases step_tables run event s with ⟨htables, hout⟩ | ⟨other, drawn, out, hout, heffect⟩
  · rw [htables]
    rcases h with ⟨claim, hclaim, -⟩ | h
    · rw [hout] at hclaim
      cases hclaim
    · exact h
  · rw [hout] at h
    rcases h with h | h
    · exact superseded_of_claimSucceeds heffect hcounter h
    · exact superseded_effect heffect hcounter h

/-- A row that carries the claim's token when the guard releases it has not been overtaken. -/
theorem heldThroughout_of_releases (hs : s = exec (step run) past start) (h : Guarded run past s claim)
    (hfinds : FindsHeld run event s claim) : HeldThroughout run (past ++ [event]) := by
  obtain ⟨earlier, claims, rest, rfl, htakes, hsince⟩ := h.since
  refine ⟨earlier, claims, rest, event, [], claim, by simp, htakes, hs ▸ hfinds, ?_⟩
  rcases hsince with hnone | hsuperseded
  · exact hnone
  · obtain ⟨now, -, row, hrow, htoken, -⟩ := hfinds.releases
    have hlt := hsuperseded row hrow
    rw [htoken] at hlt
    exact absurd hlt (lt_irrefl _)

theorem truthful_releases {attempt : FleetResult Int}
    (hs : s = exec (step run) past start) (h : Guarded run past s claim) :
    Truthful run (past ++ [.releases attempt]) (step run (.releases attempt) s).1.progress := by
  rcases tryRelease_cases run attempt s with
    heq | ⟨taskResult, hprogress, heq | ⟨error, heq⟩ | ⟨now, current, hattempt, hcurrent, hkey, heq⟩⟩
  all_goals simp only [step, heq]
  · exact h.truthful.append _
  · intro hreleased
    cases hreleased
  · intro hanswer
    cases hanswer
  · intro hanswer
    obtain ⟨-, htoken⟩ := h.keepsToken.current current hcurrent
    subst hattempt
    rw [releaseLease_eq] at hanswer
    cases hrow : authorisedRow now current.leaseClaim s.tables with
    | none => simp [hrow, Except.mapError] at hanswer
    | some row =>
        obtain ⟨hheld, hauthorised⟩ := authorisedRow_eq_some.1 hrow
        refine heldThroughout_of_releases hs h
          ⟨⟨now, rfl, row, hkey ▸ hheld, ?_, hauthorised.2.2.2⟩, ⟨_, hprogress⟩, ?_⟩
        · exact hauthorised.2.1.trans htoken
        · simp only [step, heq, releaseLease_eq, hrow, Option.isSome_some, if_true]

theorem truthful_step (hs : s = exec (step run) past start) (hguarded : s.progress ≠ .claiming)
    (h : Guarded run past s claim) : Truthful run (past ++ [event]) (step run event s).1.progress := by
  cases event with
  | claims attempt leaseToken rowVisible =>
      rcases tryClaim_cases run attempt leaseToken rowVisible s with heq | ⟨hclaiming, -⟩
      · simp only [step, heq]
        exact h.truthful.append _
      · exact absurd hclaiming hguarded
  | advances => exact truthful_advance (h.truthful.append _)
  | taskReturns result =>
      simp only [step, taskReturn]
      split
      · trivial
      · trivial
      · exact h.truthful.append _
  | releases attempt => exact truthful_releases hs h
  | others | beats | isNotified | renews | dies =>
      rw [step_progress run s (by simp) (by simp) (by simp) (by simp)]
      exact h.truthful.append _

theorem guarded_step (hs : s = exec (step run) past start) (hguarded : s.progress ≠ .claiming)
    (h : Guarded run past s claim) : Guarded run (past ++ [event]) (step run event s).1 claim := by
  refine ⟨h.counter.trans (counter_step run.leaseKey run event s),
    keepsToken_step hguarded h.keepsToken,
    truthful_step hs hguarded h, ?_⟩
  obtain ⟨earlier, claims, rest, rfl, htakes, hsince⟩ := h.since
  refine ⟨earlier, claims, rest ++ [event], by simp, htakes, ?_⟩
  have hrest : exec (step run) rest (exec (step run) (earlier ++ [claims]) start) = s := by
    rw [hs, ← exec_append, List.append_assoc, List.singleton_append]
  rw [trace_append, hrest]
  by_cases hsucceeds : ClaimSucceeds run.leaseKey (step run event s).2
  · exact .inr (superseded_step h.counter (.inl hsucceeds))
  · rcases hsince with hnone | hsuperseded
    · left
      intro entry hentry
      rcases List.mem_append.1 hentry with hentry | hentry
      · exact hnone entry hentry
      · rw [List.mem_singleton.1 hentry]
        exact hsucceeds
    · exact .inr (superseded_step h.counter (.inr hsuperseded))

/-- The run has not got its guard, or will not get one. -/
def Unguarded : Progress t α → Prop
  | .claiming => True
  | .notGuarded _ => True
  | _ => False

theorem takesGuard_of_step (h : Unguarded s.progress)
    (hstep : ¬Unguarded (step run event s).1.progress) :
    ∃ claim, TakesGuard run event s claim ∧ KeepsToken run claim (step run event s).1 ∧
      claim.fencingToken.value ≤ counter run.leaseKey (step run event s).1.tables := by
  cases event with
  | claims attempt leaseToken rowVisible =>
      rcases tryClaim_cases run attempt leaseToken rowVisible s with
        heq | ⟨hclaiming, ⟨error, heq⟩ | ⟨now, tables, result,
          hlease, ⟨-, progress, hprogress, heq⟩ | ⟨claim, rfl, heq⟩⟩⟩
      all_goals simp only [step, heq] at hstep ⊢
      · exact absurd h hstep
      · exact absurd trivial hstep
      · rcases hprogress with rfl | ⟨r, rfl⟩ <;> exact absurd trivial hstep
      · have hout := congrArg Prod.snd hlease
        have hkey : claim.key = run.leaseKey := issued_keeps_key (.inl hout)
        have heffect := step_effect
          ⟨now, .claim run.leaseKey run.holderId leaseToken run.claimDuration rowVisible⟩ s.tables
        rw [hlease] at heffect
        have htoken : claimedToken run.leaseKey
            (⟨now, .claim run.leaseKey run.holderId leaseToken run.claimDuration rowVisible⟩,
              .claimed (.ok (some claim))) = some claim.fencingToken.value := by
          simp [claimedToken, hkey]
        exact ⟨claim, ⟨hclaiming, by simp only [step, heq], by simp only [step, heq, guardFromClaim]⟩,
          keepsToken_guardFromClaim hkey, (claimedToken_effect heffect htoken).2⟩
  | advances =>
      refine absurd ?_ hstep
      simp only [step, advance]
      split <;> simp_all [Unguarded]
  | taskReturns result =>
      refine absurd ?_ hstep
      simp only [step, taskReturn]
      split <;> simp_all [Unguarded]
  | releases attempt =>
      rcases tryRelease_cases run attempt s with heq | ⟨taskResult, hprogress, -⟩
      · exact absurd (by simpa only [step, heq] using h) hstep
      · rw [hprogress] at h
        exact h.elim
  | others | beats | isNotified | renews | dies =>
      rw [step_progress run s (by simp) (by simp) (by simp) (by simp)] at hstep
      exact absurd h hstep

theorem guarded_of_takesGuard (hs : s = exec (step run) past start)
    (htakes : TakesGuard run event s claim)
    (hkeeps : KeepsToken run claim (step run event s).1)
    (hcounter : claim.fencingToken.value ≤ counter run.leaseKey (step run event s).1.tables) :
    Guarded run (past ++ [event]) (step run event s).1 claim := by
  refine ⟨hcounter, hkeeps, ?_, past, event, [], rfl, hs ▸ htakes, .inl (by simp)⟩
  rw [htakes.claimed]
  trivial

/-- In every state of a run that has its guard, the guard's history is as it should be. -/
theorem guarded_exec (run : GuardedRun) (events : List (Event t α)) :
    Unguarded (exec (step run) events start).progress ∨
      ∃ claim, Guarded run events (exec (step run) events start) claim := by
  induction events using List.reverseRecOn with
  | nil => exact .inl trivial
  | append_singleton past event ih =>
      rw [exec_append, exec_cons, exec_nil]
      by_cases hunguarded : Unguarded (exec (step run) past start).progress
      · by_cases hstep : Unguarded (step run event (exec (step run) past start)).1.progress
        · exact .inl hstep
        · obtain ⟨claim, htakes, hkeeps, hcounter⟩ := takesGuard_of_step hunguarded hstep
          exact .inr ⟨claim, guarded_of_takesGuard rfl htakes hkeeps hcounter⟩
      · obtain ⟨claim, hguarded⟩ := ih.resolve_left hunguarded
        exact .inr ⟨claim,
          guarded_step rfl (fun hclaiming => hunguarded (hclaiming ▸ trivial)) hguarded⟩

theorem finished_of_ran {progress : Progress t α} {value : α}
    (h : progress.result = some (.ok (.ran value))) :
    progress = .finished (.ok value) := by
  unfold Progress.result at h
  split at h
  · cases h
  · cases h
  · rename_i result
    cases result with
    | error error => cases h
    | ok returned =>
        cases h
        rfl
  · cases h

/-- In every run: the guarded task's value is returned only when the release found the
lease held under the claim's fencing token, and then no claim of the key has succeeded
since the guard's own. In every other case the run ends with an error that says that
leadership was lost or that the release failed. -/
theorem guarded_task_exclusive (run : GuardedRun) (events : List (Event t α)) :
    (∀ value, (exec (step run) events start).progress.result = some (.ok (.ran value)) →
      HeldThroughout run events) ∧
    ∀ result, (exec (step run) events start).progress = .finished result → ¬HeldThroughout run events →
      ∃ error, result = .error error ∧ SaysLostOrReleaseFailed error := by
  have hfinished : ∀ result, (exec (step run) events start).progress = .finished result →
      HeldThroughout run events ∨ ∃ error, result = .error error ∧ SaysLostOrReleaseFailed error := by
    intro result hresult
    rcases guarded_exec run events with hunguarded | ⟨claim, hguarded⟩
    · rw [hresult] at hunguarded
      exact hunguarded.elim
    · have htruthful := hguarded.truthful
      rwa [hresult] at htruthful
  constructor
  · intro value hvalue
    rcases hfinished (.ok value) (finished_of_ran hvalue) with hheld | ⟨error, herror, -⟩
    · exact hheld
    · cases herror
  · exact fun result hresult hheld => (hfinished result hresult).resolve_left hheld

def sampleRun : GuardedRun where
  key := ⟨"backup", by decide⟩
  leaseKey := ⟨"mutex::backup::", by decide⟩
  claimDuration := LeaseAuthority.oneSecond
  holderId := LeaseAuthority.holderA
  maxConsecutiveRenewalFailures := 3
  waits := false

def sampleToken (byte : UInt8) : Token := ⟨List.replicate leaseTokenBytes byte, List.length_replicate⟩

/-- One renewal, and then the task is done. -/
def sampleEvents : List (Event .other Nat) :=
  [.claims (.ok 0) (sampleToken 1) true, .advances, .advances,
    .beats, .renews (.ok 400000) (sampleToken 2), .beats,
    .taskReturns (.ok 7), .advances, .releases (.ok 1300000),
      .advances, .isNotified, .advances, .advances]

theorem guarded_task_exclusive_renewed : HeldThroughout sampleRun sampleEvents :=
  (guarded_task_exclusive sampleRun sampleEvents).1 7 rfl

end Paranoid.MutexGuard
