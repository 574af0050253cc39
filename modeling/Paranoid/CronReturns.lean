import Paranoid.CronFencing

namespace Paranoid.CronReturns

open MutexGuardModel hiding step start advance State Event
open LeaseModel ErrorModel MutexGuard CronModel CronSteps CronFencing Transitions
open LeaseRuns hiding step Output

variable {t : ErrorType} {cron : Cron} {event : Event t} {s : State t} {past : List (Event t)}

/-- The cron polls the stop future. -/
def polls : Place t → Bool
  | .acquiring => true
  | .claiming _ => true
  | .waiting => true
  | .guarded _ .pausing => true
  | _ => false

/-- The cron has found the stop future resolved. -/
def Stopped (cron : Cron) (past : List (Event t)) : Prop :=
  ∃ earlier later, past = earlier ++ .stops :: later ∧ polls (exec (step cron) earlier start).place = true

/-- The policy has stopped the cron at an error of its task, and the task has not been
started since. -/
def StoppedAtError (cron : Cron) (source : ErrorValue t) (past : List (Event t)) : Prop :=
  ∃ earlier later, past = earlier ++ .decides .stop :: later ∧
    taskFailure (exec (step cron) earlier start).guard.progress = some source ∧
    ∀ entry ∈ trace (step cron) later (exec (step cron) (earlier ++ [.decides .stop]) start),
      startedToken entry = none

/-- A call on the way to a guard has failed, and not with an error that is tried again. -/
def Refused (error : ErrorValue .fleet) (past : List (Event t)) : Prop :=
  ∃ event ∈ past, event = .generates (.error error) ∨ event = .delays (.error error) ∨
    isRetryableCronLeadershipAcquireError error = false ∧
      ∃ attempt leaseToken rowVisible, event = .claims attempt leaseToken rowVisible

/-- A release of the guard has returned. -/
def Released (cron : Cron) (result : FleetResult Bool) (past : List (Event t)) : Prop :=
  ∃ entry ∈ trace (step cron) past start, entry.2 = .released result

/-- What a result of the run says about the run. -/
def Accounts (cron : Cron) (past : List (Event t)) : CronResult t Unit → Prop
  | .ok () => Stopped cron past
  | .error (.cronRunFleet error) => Refused error past
  | .error (.cronRunFleetAndLeadershipLost _) => False
  | .error (.cronRunFleetAndRelease _ _) => False
  | .error .cronRunLeadershipLost => cron.continuous = false
  | .error (.cronRunLeadershipLostAndRelease releaseError) => Released cron (.error releaseError) past
  | .error (.cronRunTask source) => StoppedAtError cron source past ∧ Released cron (.ok true) past
  | .error (.cronRunTaskAndLeadershipLost source) =>
      StoppedAtError cron source past ∧ Released cron (.ok false) past
  | .error (.cronRunRelease source) => Stopped cron past ∧ Released cron (.error source) past
  | .error (.cronRunTaskAndRelease source releaseError) =>
      StoppedAtError cron source past ∧ Released cron (.error releaseError) past

/-- What the cron knows of its past, on its way to a result. -/
def Accounted (cron : Cron) (past : List (Event t)) : Place t → Prop
  | .guarded _ (.releasing .stopRequested) => Stopped cron past
  | .guarded _ (.releasing (.failed error)) =>
      ∃ source, error = .cronRunTask source ∧ StoppedAtError cron source past
  | .finished result => Accounts cron past result
  | _ => True

/-- `execute_task_while_guarded` fails only with an error of the task or with the loss of
leadership. -/
def Plain (progress : Progress t Unit) : Prop :=
  ∀ error, progress = .executed (.error error) →
    error = .mutexRunLeadershipLost ∨ ∃ source, error = .mutexRunTask source

theorem Stopped.append (h : Stopped cron past) (event : Event t) : Stopped cron (past ++ [event]) := by
  obtain ⟨earlier, later, rfl, hpolls⟩ := h
  exact ⟨earlier, later ++ [event], by simp, hpolls⟩

theorem Refused.append {error : ErrorValue .fleet} (h : Refused error past) (event : Event t) :
    Refused error (past ++ [event]) := by
  obtain ⟨refused, hmem, h⟩ := h
  exact ⟨refused, List.mem_append_left _ hmem, h⟩

theorem Released.append {result : FleetResult Bool} (h : Released cron result past) (event : Event t) :
    Released cron result (past ++ [event]) := by
  obtain ⟨entry, hmem, h⟩ := h
  exact ⟨entry, by rw [trace_append]; exact List.mem_append_left _ hmem, h⟩

theorem StoppedAtError.append {source : ErrorValue t} (hs : s = exec (step cron) past start)
    (h : StoppedAtError cron source past) (hnot : startedToken (event, (step cron event s).2) = none) :
    StoppedAtError cron source (past ++ [event]) := by
  obtain ⟨earlier, later, rfl, hfailure, hlater⟩ := h
  have hreached : exec (step cron) later (exec (step cron) (earlier ++ [.decides .stop]) start) = s := by
    rw [hs, ← exec_append, List.append_assoc, List.singleton_append]
  refine ⟨earlier, later ++ [event], by simp, hfailure, ?_⟩
  intro entry hentry
  rw [trace_append, hreached] at hentry
  rcases List.mem_append.1 hentry with hentry | hentry
  · exact hlater entry hentry
  · rw [List.mem_singleton.1 hentry]
    exact hnot

/-- Only a cron that executes its task starts it. -/
theorem startedToken_eq_none (h : ∀ holderId, s.place ≠ .guarded holderId .executing) :
    startedToken (event, (step cron event s).2) = none := by
  unfold startedToken
  split
  · rename_i heq
    obtain ⟨-, holderId, -, hplace, -⟩ := starts_of_step (congrArg Prod.snd heq)
    exact absurd hplace (h holderId)
  · rfl

theorem Accounts.append {result : CronResult t Unit} (hs : s = exec (step cron) past start)
    (h : Accounts cron past result) (hnot : startedToken (event, (step cron event s).2) = none) :
    Accounts cron (past ++ [event]) result := by
  cases result with
  | ok value => exact Stopped.append h event
  | error error =>
      cases error with
      | cronRunFleet => exact Refused.append h event
      | cronRunFleetAndLeadershipLost => exact h
      | cronRunFleetAndRelease => exact h
      | cronRunLeadershipLost => exact h
      | cronRunLeadershipLostAndRelease => exact Released.append h event
      | cronRunTask => exact ⟨h.1.append hs hnot, h.2.append event⟩
      | cronRunTaskAndLeadershipLost => exact ⟨h.1.append hs hnot, h.2.append event⟩
      | cronRunRelease => exact ⟨h.1.append event, h.2.append event⟩
      | cronRunTaskAndRelease => exact ⟨h.1.append hs hnot, h.2.append event⟩

/-- A step that leaves the cron where it is keeps the account. -/
theorem accounted_stays (hs : s = exec (step cron) past start) (h : Accounted cron past s.place) :
    Accounted cron (past ++ [event]) s.place := by
  cases hplace : s.place with
  | acquiring | claiming | delaying | waiting => trivial
  | guarded holderId phase =>
      rw [hplace] at h
      cases phase with
      | executing | pausing => trivial
      | releasing ending =>
          cases ending with
          | stopRequested => exact Stopped.append h event
          | leadershipLost => trivial
          | failed error =>
              obtain ⟨source, rfl, hstopped⟩ := h
              exact ⟨source, rfl, hstopped.append hs (startedToken_eq_none (by simp [hplace]))⟩
  | finished result =>
      rw [hplace] at h
      exact Accounts.append hs h (startedToken_eq_none (by simp [hplace]))

theorem plain_advance {guard : MutexGuardModel.State t Unit} (h : Plain guard.progress) :
    Plain (MutexGuardModel.advance guard).progress := by
  unfold MutexGuardModel.advance
  split
  · split
    · rintro error ⟨⟩
      exact .inl rfl
    · simp [Plain]
  · split
    · exact h
    · split
      · rintro error ⟨⟩
        exact .inl rfl
      · simp [Plain]
  · split
    · rintro error ⟨⟩
      exact .inl rfl
    · simp [Plain]
  · simp [Plain]
  · simp [Plain]
  · split
    · exact h
    · simp [Plain]
  · split <;> simp [Plain]
  · split
    · exact h
    · simp [Plain]
  · exact h

theorem plain_guard_step {run : GuardedRun} {guardEvent : MutexGuardModel.Event t Unit}
    {guard : MutexGuardModel.State t Unit} (h : Plain guard.progress) :
    Plain (MutexGuardModel.step run guardEvent guard).1.progress := by
  cases guardEvent with
  | claims attempt leaseToken rowVisible =>
      rcases tryClaim_cases run attempt leaseToken rowVisible guard with
        heq | ⟨-, ⟨error, heq⟩ | ⟨now, tables, result, -, ⟨-, progress, hprogress, heq⟩ | ⟨claim, -, heq⟩⟩⟩
      all_goals simp only [MutexGuardModel.step, heq]
      · exact h
      · simp [Plain]
      · rcases hprogress with rfl | ⟨r, rfl⟩ <;> simp [Plain]
      · simp [Plain, guardFromClaim]
  | advances => exact plain_advance h
  | taskReturns result =>
      simp only [MutexGuardModel.step, taskReturn]
      split
      · simp [Plain]
      · rintro error ⟨⟩
        exact .inr ⟨_, rfl⟩
      · exact h
  | releases attempt =>
      rcases tryRelease_cases run attempt guard with
        heq | ⟨taskResult, -, heq | ⟨error, heq⟩ | ⟨now, current, -, -, -, heq⟩⟩
      all_goals simp only [MutexGuardModel.step, heq]
      · exact h
      all_goals simp [Plain]
  | others | beats | isNotified | renews | dies =>
      rwa [step_progress run guard (by simp) (by simp) (by simp) (by simp)]

theorem plain_step (h : Plain s.guard.progress) : Plain (step cron event s).1.guard.progress := by
  have hsteps := steps cron event s
  generalize (step cron event s).1 = s', (step cron event s).2 = out at hsteps
  cases hsteps with
  | stays | others | moves => exact h
  | draws | resumes | ends => simp [Plain, noGuard, MutexGuardModel.start]
  | claims | guards => exact plain_guard_step h
  | starts => exact plain_advance h

/-- The outcome of a tenure, with what its release has returned, accounts for the tenure. -/
theorem accounted_placeAfterTenure {holderId : HolderId} {ending : Ending t} {result : FleetResult Bool}
    (h : Accounted cron past (.guarded holderId (.releasing ending)))
    (hreleased : Released cron result past) :
    Accounted cron past (placeAfterTenure cron (tenureOutcome ending result)) := by
  cases ending with
  | stopRequested =>
      cases result with
      | ok released => exact h
      | error source => exact ⟨h, hreleased⟩
  | leadershipLost =>
      cases result with
      | ok released =>
          simp only [tenureOutcome, releaseCronGuardAfterLeadershipLost, placeAfterTenure]
          split
          · trivial
          · rename_i hcontinuous
            exact Bool.eq_false_iff.2 hcontinuous
      | error releaseError => exact hreleased
  | failed error =>
      obtain ⟨source, rfl, hstopped⟩ := h
      cases result with
      | ok released => cases released <;> exact ⟨hstopped, hreleased⟩
      | error releaseError => exact ⟨hstopped, hreleased⟩

theorem accounted_step (hs : s = exec (step cron) past start) (hplain : Plain s.guard.progress)
    (h : Accounted cron past s.place) :
    Accounted cron (past ++ [event]) (step cron event s).1.place := by
  have hstays : Accounted cron (past ++ [event]) s.place := accounted_stays hs h
  have hmem : event ∈ past ++ [event] := List.mem_append_right _ List.mem_cons_self
  have honGuard : ∀ guardEvent, Accounted cron (past ++ [event]) (onGuard cron guardEvent s).1.place := by
    intro guardEvent
    unfold onGuard
    split <;> exact hstays
  have hstopped : event = .stops → polls s.place = true → Stopped cron (past ++ [event]) := by
    rintro rfl hpolls
    exact ⟨past, [], rfl, hs ▸ hpolls⟩
  cases event with
  | others input => exact hstays
  | generates result =>
      simp only [step, generate]
      split
      · trivial
      · exact ⟨_, hmem, .inl rfl⟩
      · exact hstays
  | claims attempt leaseToken rowVisible =>
      simp only [step, CronModel.tryClaim]
      split
      · simp only [placeAfterClaim]
        split
        · trivial
        · split
          · trivial
          · rename_i hretryable
            exact ⟨_, hmem, .inr (.inr ⟨Bool.eq_false_iff.2 hretryable, _, _, _, rfl⟩)⟩
        · trivial
      · exact hstays
  | stops =>
      simp only [step, stop]
      split
      · rename_i hplace
        exact hstopped rfl (by rw [hplace]; rfl)
      · rename_i hplace
        exact hstopped rfl (by rw [hplace]; rfl)
      · rename_i hplace
        exact hstopped rfl (by rw [hplace]; rfl)
      · rename_i hplace
        exact hstopped rfl (by rw [hplace]; rfl)
      · exact hstays
  | delays result =>
      simp only [step, delay]
      split
      · trivial
      · exact ⟨_, hmem, .inr (.inl rfl)⟩
      · exact hstays
  | elapses =>
      simp only [step, elapse]
      split
      · trivial
      · trivial
      · exact hstays
  | advances =>
      have hsteps := steps_advance cron s
      simp only [step, advance] at hstays ⊢
      split
      · rename_i holderId hplace
        split
        · rename_i result hprogress
          cases result with
          | ok value => trivial
          | error error =>
              rcases hplain error hprogress with rfl | ⟨source, rfl⟩ <;> trivial
        · rw [hplace]
          trivial
      · rename_i holderId ending hplace
        split
        · exact hstays
        · rename_i result hresult
          rw [hplace] at hstays
          refine accounted_placeAfterTenure hstays ⟨(.advances, .released result), ?_, rfl⟩
          rw [trace_append, ← hs]
          apply List.mem_append_right
          simp only [trace_cons, trace_nil, step, advance, hplace, hresult, List.mem_singleton]
      · exact hstays
  | decides action =>
      simp only [step, decideTaskError]
      split
      · rename_i hplace hfailure
        exact ⟨_, rfl, past, [], rfl, hs ▸ hfailure, by simp⟩
      · split <;> trivial
      · exact hstays
  | noticesLoss =>
      simp only [step, noticeLoss]
      split
      · split
        · trivial
        · exact hstays
      · exact hstays
  | releases attempt =>
      simp only [step, release]
      split
      · exact honGuard _
      · exact hstays
  | taskReturns | beats | isNotified | renews | dies => exact honGuard _

theorem accounted_exec (cron : Cron) (events : List (Event t)) :
    Plain (exec (step cron) events start).guard.progress ∧
      Accounted cron events (exec (step cron) events start).place := by
  induction events using List.reverseRecOn with
  | nil => exact ⟨by simp [Plain, start, MutexGuardModel.start], trivial⟩
  | append_singleton past event ih =>
      rw [exec_append, exec_cons, exec_nil]
      exact ⟨plain_step ih.1, accounted_step rfl ih.1 ih.2⟩

/-- A guard that is given is one more that is held, and a release that returns is one less. -/
theorem guards_step (cron : Cron) (event : Event t) (h : Coherent s) :
    (acquires (event, (step cron event s).2)).toNat + (holds s.place).toNat =
      (givesUp (event, (step cron event s).2)).toNat + (holds (step cron event s).1.place).toNat := by
  have hstatement : ∀ statement, givesUp (event, ofStatement statement) = false := by
    intro statement
    cases statement <;> rfl
  have hsteps := steps cron event s
  generalize (step cron event s).1 = s', (step cron event s).2 = out at hsteps
  cases hsteps with
  | stays => cases event <;> simp [acquires, givesUp]
  | others => simp [acquires, givesUp]
  | moves same other => cases event <;> simp [acquires, givesUp, same]
  | draws hplace => cases event <;> simp [acquires, givesUp, hplace, holds]
  | @claims attempt leaseToken rowVisible holderId hplace =>
      have hclaiming : s.guard.progress = .claiming := by simpa only [Coherent, hplace] using h
      rw [hstatement]
      rcases claim_cases cron hclaiming holderId attempt leaseToken rowVisible with
        ⟨hnot, hprogress⟩ | ⟨claim, hclaim, hprogress, -⟩
      · have hacquires : acquires (Event.claims (t := t) attempt leaseToken rowVisible,
            ofStatement (MutexGuardModel.step (cron.mutex holderId)
              (.claims attempt leaseToken rowVisible) s.guard).2) = false := by
          unfold acquires
          split
          · rename_i claim heq
            have hout := congrArg Prod.snd heq
            generalize (MutexGuardModel.step (cron.mutex holderId)
              (.claims attempt leaseToken rowVisible) s.guard).2 = statement at hnot hout
            cases statement with
            | none => cases hout
            | some result =>
                cases hout
                exact absurd rfl (hnot claim)
          · rfl
        rw [holds_placeAfterClaim hprogress, hacquires, hplace]
        rfl
      · rw [hclaim, hprogress, hplace]
        rfl
  | resumes hplace => cases event <;> simp [acquires, givesUp, hplace, holds]
  | guards guardEvent hplace hother =>
      rw [hstatement]
      have hacquires : ∀ out, acquires (event, out) = false := by
        intro out
        unfold acquires
        split
        · rename_i heq
          exact absurd (congrArg Prod.fst heq) (hother _ _ _)
        · rfl
      rw [hacquires]
  | starts hplace => simp [acquires, givesUp]
  | ends hplace =>
      rw [hplace, holds_placeAfterTenure]
      rfl

theorem guards_exec (cron : Cron) (events : List (Event t)) :
    (trace (step cron) events start).countP acquires =
      (trace (step cron) events start).countP givesUp +
        (holds (exec (step cron) events start).place).toNat := by
  induction events using List.reverseRecOn with
  | nil => rfl
  | append_singleton past event ih =>
      have hstep := guards_step cron event (coherent_exec cron past)
      rw [exec_append, exec_cons, exec_nil, trace_append, List.countP_append, List.countP_append]
      simp only [trace_cons, trace_nil, List.countP_singleton]
      cases hacquires : acquires (event, (step cron event (exec (step cron) past start)).2) <;>
        cases hgivesUp : givesUp (event, (step cron event (exec (step cron) past start)).2) <;>
        simp only [hacquires, hgivesUp, Bool.toNat_true, Bool.toNat_false, if_true, if_false,
          Bool.false_eq_true] at hstep ⊢ <;> omega

/-- In every run of a cron: the claims that gave it a guard are the returns of the guard's
release, and one more while it holds a guard. A run that has returned has released each of
its guards once, and its result accounts for the run: it was stopped if it succeeded, a task
error in it is the one at which the policy has stopped it, a continuous run does not report
the loss of leadership, and the release errors in it were returned by the release. -/
theorem cron_returns_accounted (cron : Cron) (events : List (Event t)) :
    (trace (step cron) events start).countP acquires =
      (trace (step cron) events start).countP givesUp +
        (holds (exec (step cron) events start).place).toNat ∧
    ∀ result, (exec (step cron) events start).place = .finished result →
      (trace (step cron) events start).countP acquires = (trace (step cron) events start).countP givesUp ∧
        Accounts cron events result := by
  have hguards := guards_exec cron events
  refine ⟨hguards, fun result hfinished => ⟨?_, ?_⟩⟩
  · rw [hguards, hfinished]
    rfl
  · have haccounted := (accounted_exec cron events).2
    rwa [hfinished] at haccounted

end Paranoid.CronReturns
