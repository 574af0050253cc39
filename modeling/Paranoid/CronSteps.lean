import Paranoid.CronModel
import Paranoid.MutexGuard

namespace Paranoid.CronSteps

open MutexGuardModel hiding step start advance State Event
open Function LeaseModel LeaseStatements LeaseFencing ErrorModel MutexGuard CronModel Transitions
open LeaseRuns hiding step Output

variable {t : ErrorType} {cron : Cron} {event : Event t} {s : State t} {past : List (Event t)}

/-- The fencing token that a run of the task is started with. -/
def startedToken : Event t × Output → Option Int
  | (_, .starts snapshot) => some snapshot.fencingToken.value
  | _ => none

/-- The fencing token under which a statement, the cron's own or another's, claims a key. -/
def claimedToken (key : Key) : Event t × Output → Option Int
  | (_, .statement (.claimed (.ok (some claim)))) =>
      if claim.key = key then some claim.fencingToken.value else none
  | _ => none

/-- The entry is a claim of the cron's own that has given it a guard. -/
def acquires : Event t × Output → Bool
  | (.claims _ _ _, .statement (.claimed (.ok (some _)))) => true
  | _ => false

/-- The entry is the return of `guard.release()`. -/
def givesUp : Event t × Output → Bool
  | (_, .released _) => true
  | _ => false

def holds : Place t → Bool
  | .guarded _ _ => true
  | _ => false

section Guard

variable {run : GuardedRun} {guard : MutexGuardModel.State t Unit} {claim : Claim}

theorem advance_guarded (h : ¬Unguarded guard.progress) :
    ¬Unguarded (MutexGuardModel.advance guard).progress := by
  intro hadvance
  apply h
  unfold MutexGuardModel.advance at hadvance
  split at hadvance
  · split at hadvance <;> exact hadvance.elim
  · split at hadvance
    · exact hadvance
    · split at hadvance <;> exact hadvance.elim
  · split at hadvance <;> exact hadvance.elim
  · exact hadvance.elim
  · exact hadvance.elim
  · split at hadvance
    · exact hadvance
    · exact hadvance.elim
  · split at hadvance <;> exact hadvance.elim
  · split at hadvance
    · exact hadvance
    · exact hadvance.elim
  · exact hadvance

/-- A guard that was handed out is not taken back: the run stays in what follows it. -/
theorem guarded_progress_step {event : MutexGuardModel.Event t Unit} (h : ¬Unguarded guard.progress) :
    ¬Unguarded (MutexGuardModel.step run event guard).1.progress := by
  cases event with
  | claims attempt leaseToken rowVisible =>
      rcases tryClaim_cases run attempt leaseToken rowVisible guard with heq | ⟨hclaiming, -⟩
      · simpa only [MutexGuardModel.step, heq] using h
      · exact absurd (hclaiming ▸ trivial) h
  | advances => exact advance_guarded h
  | taskReturns result =>
      simp only [MutexGuardModel.step, taskReturn]
      split
      · exact id
      · exact id
      · exact h
  | releases attempt =>
      rcases tryRelease_cases run attempt guard with
        heq | ⟨taskResult, -, heq | ⟨error, heq⟩ | ⟨now, current, -, -, -, heq⟩⟩
      all_goals simp only [MutexGuardModel.step, heq]
      · exact h
      all_goals exact id
  | others | beats | isNotified | renews | dies =>
      rwa [step_progress run guard (by simp) (by simp) (by simp) (by simp)]

theorem keepsToken_guard_step {event : MutexGuardModel.Event t Unit}
    (hguarded : ¬Unguarded guard.progress) (h : KeepsToken run claim guard) :
    KeepsToken run claim (MutexGuardModel.step run event guard).1 :=
  keepsToken_step (fun hclaiming => hguarded (hclaiming ▸ trivial)) h

/-- The token of a claim is kept under every holder id of the cron's mutex. -/
theorem keepsToken_progress {progress : Progress t Unit} (h : KeepsToken run claim guard) :
    KeepsToken run claim { guard with progress } :=
  ⟨h.current, h.renewed⟩

end Guard

/-- What a step does to the tables it does by the lease statement that it shows. -/
def Shows (before after : Tables) (out : Output) : Prop :=
  (after = before ∧ ∀ result, out ≠ .statement result) ∨
    ∃ key drawn result, out = .statement result ∧ Effect before key drawn after result

theorem shows_guard_step (run : GuardedRun) (event : MutexGuardModel.Event t Unit)
    (guard : MutexGuardModel.State t Unit) :
    Shows guard.tables (MutexGuardModel.step run event guard).1.tables
      (ofStatement (MutexGuardModel.step run event guard).2) := by
  rcases step_tables run event guard with ⟨htables, hout⟩ | ⟨key, drawn, out, hout, heffect⟩
  · rw [hout]
    exact .inl ⟨htables, by simp [ofStatement]⟩
  · rw [hout]
    exact .inr ⟨key, drawn, out, rfl, heffect⟩

theorem release_cases (cron : Cron) (attempt : FleetResult Int) (s : State t) :
    release cron attempt s = (s, .nothing) ∨
      ∃ holderId ending, s.place = .guarded holderId (.releasing ending) ∧
        release cron attempt s =
          ({ s with guard :=
              (MutexGuardModel.step (cron.mutex holderId) (.releases attempt) s.guard).1 },
            ofStatement (MutexGuardModel.step (cron.mutex holderId) (.releases attempt) s.guard).2) := by
  unfold release
  split
  · rename_i holderId ending hplace
    right
    refine ⟨holderId, ending, hplace, ?_⟩
    simp only [onGuard, hplace]
  · exact .inl rfl

theorem holds_placeAfterTenure (cron : Cron) (outcome : CronResult t CronLeadershipTenureOutcome) :
    holds (placeAfterTenure cron outcome) = false := by
  unfold placeAfterTenure
  split
  · rfl
  · rfl
  · split <;> rfl

theorem holds_placeAfterClaim {holderId : HolderId} {progress : Progress t Unit}
    (h : progress = .claiming ∨ ∃ error, progress = .notGuarded (.error error)) :
    holds (placeAfterClaim holderId progress) = false := by
  rcases h with rfl | ⟨error, rfl⟩
  · rfl
  · unfold placeAfterClaim
    dsimp only
    split <;> rfl

/-- What one step of a cron does, whoever takes it. -/
inductive Steps (cron : Cron) (s : State t) : Event t → State t → Output → Prop
  | stays {e : Event t} : Steps cron s e s .nothing
  | others {input} : Steps cron s (.others input)
      { s with guard := { s.guard with tables := (LeaseRuns.step input s.guard.tables).1 } }
      (.statement (LeaseRuns.step input s.guard.tables).2)
  | moves {e : Event t} {place} (same : holds place = holds s.place)
      (other : ∀ holderId, place ≠ .claiming holderId) : Steps cron s e { s with place } .nothing
  | draws {e : Event t} {holderId} (place : s.place = .acquiring) :
      Steps cron s e ⟨noGuard s.guard.tables, .claiming holderId⟩ .nothing
  | claims {attempt leaseToken rowVisible holderId} (place : s.place = .claiming holderId) :
      Steps cron s (.claims attempt leaseToken rowVisible)
        ⟨(MutexGuardModel.step (cron.mutex holderId) (.claims attempt leaseToken rowVisible) s.guard).1,
          placeAfterClaim holderId (MutexGuardModel.step (cron.mutex holderId)
            (.claims attempt leaseToken rowVisible) s.guard).1.progress⟩
        (ofStatement (MutexGuardModel.step (cron.mutex holderId)
          (.claims attempt leaseToken rowVisible) s.guard).2)
  | resumes {e : Event t} {holderId} (place : s.place = .guarded holderId .pausing) :
      Steps cron s e ⟨{ s.guard with progress := .claimed }, .guarded holderId .executing⟩ .nothing
  | guards {e : Event t} {holderId phase} (guardEvent) (place : s.place = .guarded holderId phase)
      (other : ∀ attempt leaseToken rowVisible, e ≠ .claims attempt leaseToken rowVisible) :
      Steps cron s e
        { s with guard := (MutexGuardModel.step (cron.mutex holderId) guardEvent s.guard).1 }
        (ofStatement (MutexGuardModel.step (cron.mutex holderId) guardEvent s.guard).2)
  | starts {holderId claim} (place : s.place = .guarded holderId .executing)
      (current : s.guard.currentClaim = some claim) :
      Steps cron s .advances { s with guard := MutexGuardModel.advance s.guard }
        (.starts (guardSnapshot claim))
  | ends {holderId ending result} (place : s.place = .guarded holderId (.releasing ending))
      (returns : releaseReturn s.guard = some result) :
      Steps cron s .advances
        ⟨noGuard s.guard.tables, placeAfterTenure cron (tenureOutcome ending result)⟩ (.released result)

theorem steps_onGuard (guardEvent : MutexGuardModel.Event t Unit)
    (other : ∀ attempt leaseToken rowVisible, event ≠ .claims attempt leaseToken rowVisible) :
    Steps cron s event (onGuard cron guardEvent s).1 (onGuard cron guardEvent s).2 := by
  unfold onGuard
  split
  · rename_i holderId phase hplace
    exact .guards guardEvent hplace other
  · exact .stays

theorem steps_advance (cron : Cron) (s : State t) :
    Steps cron s .advances (advance cron s).1 (advance cron s).2 := by
  unfold advance
  split
  · rename_i holderId hplace
    split
    · exact .moves (by rw [hplace]; rfl) (by simp)
    · unfold startedSnapshot
      split
      · rename_i claim hsnapshotting hrunning hclaim
        exact .starts hplace hclaim
      · exact .guards .advances hplace (by simp)
  · rename_i holderId ending hplace
    split
    · exact .guards .advances hplace (by simp)
    · rename_i result hresult
      exact .ends hplace hresult
  · exact .stays

theorem steps (cron : Cron) (event : Event t) (s : State t) :
    Steps cron s event (step cron event s).1 (step cron event s).2 := by
  cases event with
  | others input => exact .others
  | generates result =>
      simp only [step, generate]
      split
      · rename_i hplace
        exact .draws hplace
      · rename_i hplace
        exact .moves (by rw [hplace]; rfl) (by simp)
      · exact .stays
  | claims attempt leaseToken rowVisible =>
      simp only [step, CronModel.tryClaim]
      split
      · rename_i hplace
        exact .claims hplace
      · exact .stays
  | stops =>
      simp only [step, stop]
      split
      · rename_i hplace
        exact .moves (by rw [hplace]; rfl) (by simp)
      · rename_i hplace
        exact .moves (by rw [hplace]; rfl) (by simp)
      · rename_i hplace
        exact .moves (by rw [hplace]; rfl) (by simp)
      · rename_i hplace
        exact .moves (by rw [hplace]; rfl) (by simp)
      · exact .stays
  | delays result =>
      simp only [step, delay]
      split
      · rename_i hplace
        exact .moves (by rw [hplace]; rfl) (by simp)
      · rename_i hplace
        exact .moves (by rw [hplace]; rfl) (by simp)
      · exact .stays
  | elapses =>
      simp only [step, elapse]
      split
      · rename_i hplace
        exact .moves (by rw [hplace]; rfl) (by simp)
      · rename_i hplace
        exact .resumes hplace
      · exact .stays
  | advances => exact steps_advance cron s
  | decides action =>
      simp only [step, decideTaskError]
      split
      · rename_i hplace hprogress
        exact .moves (by rw [hplace]; rfl) (by simp)
      · rename_i hplace hprogress
        split <;> exact .moves (by rw [hplace]; rfl) (by simp)
      · exact .stays
  | noticesLoss =>
      simp only [step, noticeLoss]
      split
      · rename_i hplace
        split
        · exact .moves (by rw [hplace]; rfl) (by simp)
        · exact .stays
      · exact .stays
  | releases attempt =>
      simp only [step, release]
      split
      · exact steps_onGuard _ (by simp)
      · exact .stays
  | taskReturns result => exact steps_onGuard _ (by simp)
  | beats => exact steps_onGuard _ (by simp)
  | isNotified => exact steps_onGuard _ (by simp)
  | renews attempt nextLeaseToken => exact steps_onGuard _ (by simp)
  | dies source => exact steps_onGuard _ (by simp)

theorem shows_step (cron : Cron) (event : Event t) (s : State t) :
    Shows s.guard.tables (step cron event s).1.guard.tables (step cron event s).2 := by
  have h := steps cron event s
  generalize (step cron event s).1 = s', (step cron event s).2 = out at h
  cases h with
  | stays | moves | draws | resumes => exact .inl ⟨rfl, by simp⟩
  | others => exact .inr ⟨_, _, _, rfl, LeaseRuns.step_effect _ s.guard.tables⟩
  | claims | guards => exact shows_guard_step _ _ s.guard
  | starts => exact .inl ⟨advance_tables s.guard, by simp⟩
  | ends => exact .inl ⟨rfl, by simp⟩

/-- The guard's own state agrees with where the cron is. -/
def Coherent (s : State t) : Prop :=
  match s.place with
  | .claiming _ => s.guard.progress = .claiming
  | .guarded _ _ => ¬Unguarded s.guard.progress
  | _ => True

/-- A claim of the cron's that waits under a holder id: either it leaves the cron without a
guard, or it gives the cron a guard of its key whose token the counter has reached. -/
theorem claim_cases (cron : Cron) {guard : MutexGuardModel.State t Unit}
    (hclaiming : guard.progress = .claiming)
    (holderId : HolderId) (attempt : FleetResult Int) (leaseToken : Token) (rowVisible : Bool) :
    ((∀ claim, (MutexGuardModel.step (cron.mutex holderId)
      (.claims attempt leaseToken rowVisible) guard).2 ≠
        some (.claimed (.ok (some claim)))) ∧
      ((MutexGuardModel.step (cron.mutex holderId)
        (.claims attempt leaseToken rowVisible) guard).1.progress =
          .claiming ∨
        ∃ error, (MutexGuardModel.step (cron.mutex holderId) (.claims attempt leaseToken rowVisible)
          guard).1.progress = .notGuarded (.error error))) ∨
    ∃ claim, (MutexGuardModel.step (cron.mutex holderId) (.claims attempt leaseToken rowVisible) guard).2 =
        some (.claimed (.ok (some claim))) ∧
      (MutexGuardModel.step (cron.mutex holderId)
        (.claims attempt leaseToken rowVisible) guard).1.progress =
        .claimed ∧
      claim.key = cron.leaseKey ∧
      KeepsToken (cron.mutex holderId) claim
        (MutexGuardModel.step (cron.mutex holderId) (.claims attempt leaseToken rowVisible) guard).1 ∧
      claim.fencingToken.value ≤ counter cron.leaseKey
        (MutexGuardModel.step (cron.mutex holderId)
          (.claims attempt leaseToken rowVisible) guard).1.tables := by
  simp only [MutexGuardModel.step]
  cases attempt with
  | error error => exact .inl ⟨by simp [MutexGuardModel.tryClaim, hclaiming], .inr ⟨error,
      by simp [MutexGuardModel.tryClaim, hclaiming]⟩⟩
  | ok now =>
      have hlease : LeaseRuns.step
        ⟨now, .claim cron.leaseKey holderId leaseToken cron.claimDuration rowVisible⟩
          guard.tables = (Store.tryClaimLease now rowVisible cron.leaseKey holderId leaseToken
            cron.claimDuration guard.tables).map id .claimed := rfl
      have heffect := LeaseRuns.step_effect
        ⟨now, .claim cron.leaseKey holderId leaseToken cron.claimDuration rowVisible⟩ guard.tables
      rw [hlease] at heffect
      simp only [MutexGuardModel.tryClaim, hclaiming, Cron.mutex]
      rcases hstore : Store.tryClaimLease now rowVisible cron.leaseKey holderId leaseToken
        cron.claimDuration guard.tables with ⟨tables, result⟩
      rw [hstore] at hlease heffect
      cases result with
      | error error => exact .inl ⟨by simp, .inr ⟨_, rfl⟩⟩
      | ok answer =>
          cases answer with
          | none => exact .inl ⟨by simp, .inl (by simp)⟩
          | some claim =>
              have hkey : claim.key = cron.leaseKey :=
                issued_keeps_key (.inl (congrArg Prod.snd hlease))
              have htoken : LeaseFencing.claimedToken cron.leaseKey
                  (⟨now, .claim cron.leaseKey holderId leaseToken cron.claimDuration rowVisible⟩,
                    .claimed (.ok (some claim))) = some claim.fencingToken.value := by
                simp [LeaseFencing.claimedToken, hkey]
              exact .inr ⟨claim, rfl, rfl, hkey,
                keepsToken_guardFromClaim hkey, (claimedToken_effect heffect htoken).2⟩

theorem coherent_step (h : Coherent s) : Coherent (step cron event s).1 := by
  have hsteps := steps cron event s
  generalize (step cron event s).1 = s', (step cron event s).2 = out at hsteps
  cases hsteps with
  | stays => exact h
  | others => exact h
  | @moves _ place same other =>
      cases hplace : place with
      | guarded holderId phase =>
          rw [hplace] at same
          cases hold : s.place with
          | guarded holderId' phase' => simpa only [Coherent, hold] using h
          | acquiring | claiming | delaying | waiting | finished =>
              rw [hold] at same
              cases same
      | claiming holderId => exact absurd hplace (other holderId)
      | acquiring | delaying | waiting | finished => trivial
  | draws => rfl
  | claims hplace =>
      have hclaiming : s.guard.progress = .claiming := by simpa only [Coherent, hplace] using h
      rcases claim_cases cron hclaiming
        _ _ _ _ with ⟨-, hprogress | ⟨error, hprogress⟩⟩ | ⟨-, -, hprogress, -⟩
      · rw [hprogress]
        exact hprogress
      · rw [hprogress]
        simp only [placeAfterClaim]
        split <;> trivial
      · rw [hprogress]
        simp only [Coherent, placeAfterClaim, hprogress]
        exact id
  | resumes => exact id
  | guards guardEvent hplace =>
      have hguarded : ¬Unguarded s.guard.progress := by simpa only [Coherent, hplace] using h
      simpa only [Coherent, hplace] using guarded_progress_step hguarded
  | starts hplace =>
      have hguarded : ¬Unguarded s.guard.progress := by simpa only [Coherent, hplace] using h
      simpa only [Coherent, hplace] using advance_guarded hguarded
  | ends =>
      simp only [placeAfterTenure]
      split
      · trivial
      · trivial
      · split <;> trivial

theorem coherent_exec (cron : Cron) (events : List (Event t)) :
    Coherent (exec (step cron) events start) :=
  exec_invariant Coherent (fun _ _ => coherent_step) events trivial

end Paranoid.CronSteps
