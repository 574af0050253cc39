import Paranoid.QueueSoundness

namespace Paranoid.QueueRows

open List QueueModel QueueStatements QueueEffects QueueChanges QueueSoundness
open Postgres (forall₂_mem_left forall₂_mem_right mapM_eq_ok)

variable {π : Type} {m : Moment π} {t t' : Tables π} {id : JobId} {workerId : WorkerOwnerId}
  {outcome : TransitionOutcome} {set : JobRow π → Except StatementError (JobRow π)}

section Lookup

/-- An update looks at the rows one by one, so every id keeps its row or gets the
row that replaces it. -/
theorem updateJobs_job? {targets : List JobId} (hid : ∀ row row', set row = .ok row' → row'.id = row.id)
    (h : updateJobs t targets set = .ok t') (hrow : t.job? id = some row) :
    ∃ row', t'.job? id = some row' ∧ if id ∈ targets then set row = .ok row' else row' = row := by
  obtain ⟨hmem, rfl⟩ := Tables.job?_eq_some.1 hrow
  obtain ⟨row', hrow', hset⟩ := forall₂_mem_left (updateJobs_eq_ok h).1 hmem
  refine ⟨row', Tables.job?_eq_some.2 ⟨hrow', ?_⟩, hset⟩
  split at hset
  · exact hid row row' hset
  · rw [hset]

theorem updateJobs_job?_none {targets : List JobId}
    (hid : ∀ row row', set row = .ok row' → row'.id = row.id) (h : updateJobs t targets set = .ok t')
    (hnone : t.job? id = none) : t'.job? id = none := by
  rw [Tables.job?_eq_none] at hnone ⊢
  intro row' hrow' heq
  obtain ⟨row, hrow, hset⟩ := forall₂_mem_right (updateJobs_eq_ok h).1 hrow'
  refine hnone row hrow ?_
  split at hset
  · rw [← hid row row' hset, heq]
  · rw [← hset, heq]

theorem updateJobs_job?_other {targets : List JobId}
    (hid : ∀ row row', set row = .ok row' → row'.id = row.id) (h : updateJobs t targets set = .ok t')
    (hother : id ∉ targets) : t'.job? id = t.job? id := by
  cases hrow : t.job? id with
  | none => exact updateJobs_job?_none hid h hrow
  | some row =>
      obtain ⟨row', hrow', hset⟩ := updateJobs_job? hid h hrow
      rw [if_neg hother] at hset
      rw [hrow', hset]

/-- An update of locked rows: a row stays as it is, or it is one of them and is
rewritten. -/
theorem bulk_update {rows : List (JobRow π)} {P : JobRow π → Prop}
    (hid : ∀ row row', set row = .ok row' → row'.id = row.id)
    (hrows : ∀ row ∈ rows, row ∈ t.jobs ∧ P row)
    (h : updateJobs t (jobIds rows) set = .ok t') {row : JobRow π} (hrow : t.job? id = some row) :
    t'.job? id = some row ∨ P row ∧ ∃ row', set row = .ok row' ∧ t'.job? id = some row' := by
  obtain ⟨row', hrow', hset⟩ := updateJobs_job? hid h hrow
  obtain ⟨hmem, rfl⟩ := Tables.job?_eq_some.1 hrow
  split at hset
  · exact .inr ⟨target_spec hrows hmem ‹_›, row', hset, hrow'⟩
  · exact .inl (hset ▸ hrow')

theorem job?_of_jobs_eq (h : t'.jobs = t.jobs) : t'.job? id = t.job? id := by
  rw [Tables.job?, Tables.job?, h]

/-- A lock on the row of one id finds that row or nothing. -/
theorem lockJobs_id {matching : JobRow π → Bool} (hmatch : ∀ row, matching row → row.id = id) :
    lockJobs m t matching = [] ∨
      ∃ row, lockJobs m t matching = [row] ∧ t.job? id = some row ∧ matching row := by
  have hnodup := lockJobs_nodup m t matching
  have hspec : ∀ row ∈ lockJobs m t matching, t.job? id = some row ∧ matching row := by
    intro row hrow
    obtain ⟨hmem, hrowMatch, -⟩ := mem_lockJobs hrow
    exact ⟨Tables.job?_eq_some.2 ⟨hmem, hmatch row hrowMatch⟩, hrowMatch⟩
  match hrows : lockJobs m t matching with
  | [] => exact .inl rfl
  | [row] => exact .inr ⟨row, rfl, hspec row (by rw [hrows]; exact mem_singleton_self row)⟩
  | row :: other :: rest =>
      rw [hrows] at hnodup hspec
      have hsame := (hspec row mem_cons_self).1.symm.trans
        (hspec other (mem_cons_of_mem _ mem_cons_self)).1
      simp [jobIds, Option.some.inj hsame] at hnodup

/-- Where no row is new, a row stays or goes. -/
theorem job?_of_subset (hsub : ∀ row ∈ t'.jobs, row ∈ t.jobs)
    {row : JobRow π} (hrow : t.job? id = some row) :
    t'.job? id = some row ∨ t'.job? id = none := by
  cases hrow' : t'.job? id with
  | none => exact .inr rfl
  | some row' =>
      obtain ⟨hmem, hid⟩ := Tables.job?_eq_some.1 hrow'
      rw [Tables.job?_eq_some.2 ⟨hsub row' hmem, hid⟩] at hrow
      exact .inl hrow

/-- Only an enqueue or the requeue of a dead letter gives a row to an id without one. -/
theorem job?_none_of_change {kind : Kind π} (h : Change t t' kind)
    (hkind : ∀ payloads, kind ≠ .enqueues payloads) (hrequeue : kind ≠ .requeues)
    (hnone : t.job? id = none) : t'.job? id = none := by
  rw [Tables.job?_eq_none] at hnone ⊢
  intro row' hrow'
  cases kind with
  | rewrites | activates | claims =>
      obtain ⟨row, hrow, hkeeps⟩ := forall₂_mem_right h.1 hrow'
      rw [hkeeps.id]
      exact hnone row hrow
  | deletes => exact hnone row' (h.1.mem hrow')
  | moves =>
      obtain ⟨moved, -, -, hjobs, -⟩ := h
      exact hnone row' (hjobs.mem_iff.2 (mem_append_left _ hrow'))
  | enqueues payloads => exact absurd rfl (hkind payloads)
  | requeues => exact absurd rfl hrequeue

theorem claim_row {taskNames : List TaskName} {claimLimit : Nat} {jobs : List (JobRow π)}
    (h : claimAvailableJobs m taskNames claimLimit workerId t = .ok (jobs, t')) {row : JobRow π}
    (hrow : t.job? id = some row) :
    t'.job? id = some row ∨
      row.status = .pending ∧ id ∈ jobIds jobs ∧ t'.job? id = some (claimedBy m.now workerId row) := by
  obtain ⟨hmem, rfl⟩ := Tables.job?_eq_some.1 hrow
  have hmapped := mem_map_of_mem (f := fun row => if row.id ∈ jobIds (lockFirstJobs m t
    (claimable m taskNames) claimOrder claimLimit) then claimedBy m.now workerId row else row) hmem
  rw [← (claimAvailableJobs_eq_ok h).1] at hmapped
  generalize hafter :
    (if row.id ∈ jobIds (lockFirstJobs m t (claimable m taskNames) claimOrder claimLimit)
    then claimedBy m.now workerId row else row) = row' at hmapped
  have hid : row'.id = row.id := by
    rw [← hafter]
    split <;> rfl
  have hrow' := Tables.job?_eq_some.2 ⟨hmapped, hid⟩
  rcases claimed_rows h hmapped with ⟨htaken, other, hother, hpending, rfl⟩ | ⟨hkept, -⟩
  · obtain rfl := inj_on_of_nodup_map (t.constraints .primaryKey) hother hmem hid
    exact .inr ⟨hpending, mem_map.2 ⟨_, htaken, rfl⟩, hrow'⟩
  · have hsame := Tables.job?_eq_some.2 ⟨hkept, hid⟩
    rw [hrow, Option.some.injEq] at hsame
    exact .inl (hsame ▸ hrow')

end Lookup

section Owned

theorem ownedRunning_status (h : ownedRunning id workerId row) : row.status = .running := by
  simp only [ownedRunning, Bool.and_eq_true, decide_eq_true_eq] at h
  exact h.1.2

theorem tables_eq (hjobs : t'.jobs = t.jobs) (hdead : t'.deadLetters = t.deadLetters)
    (hpauses : t'.pauses = t.pauses) : t' = t := by
  cases t
  cases t'
  simp_all

theorem updateJobs_nil (h : updateJobs t [] set = .ok t') : t' = t := by
  obtain ⟨hjobs, hdead, hpauses⟩ := updateJobs_eq_ok h
  refine tables_eq (forall₂_eq_eq_eq ▸ hjobs.imp fun row row' hrow => ?_).symm hdead hpauses
  rw [if_neg not_mem_nil] at hrow
  exact hrow.symm

theorem outcome_ne_applied (visibleExtraMismatch : JobRow π → Bool) :
    ownedTransitionOutcome m id workerId false visibleExtraMismatch ≠ .applied := by
  simp only [ownedTransitionOutcome, Bool.false_eq_true, if_false]
  split
  · nofun
  · split <;> nofun

/-- The transition rewrote the running row of its owner and left every other job alone. -/
structure Rewrote (t t' : Tables π) (id : JobId) (workerId : WorkerOwnerId) (row row' : JobRow π) :
    Prop where
  before : t.job? id = some row
  owned : ownedRunning id workerId row
  after : t'.job? id = some row'
  others : ∀ other ≠ id, t'.job? other = t.job? other
  deadLetters : t'.deadLetters = t.deadLetters

/-- An owned transition either rewrites the running row of its owner and reports that
it was applied, or changes nothing and does not. -/
theorem ownedRunningJobUpdate_eq_ok {targetExtra visibleExtraMismatch : JobRow π → Bool}
    (hid : ∀ row row', set row = .ok row' → row'.id = row.id)
    (h : ownedRunningJobUpdate m id workerId set targetExtra visibleExtraMismatch t =
      .ok (outcome, t')) :
    outcome ≠ .applied ∧ t' = t ∨ outcome = .applied ∧
      ∃ row row', Rewrote t t' id workerId row row' ∧ targetExtra row ∧ set row = .ok row' := by
  obtain ⟨updated, hupdated, hreply⟩ := Postgres.bind_eq_ok.1 h
  obtain ⟨houtcome, rfl⟩ := Prod.mk.inj (Except.ok.inj hreply)
  have hmatch : ∀ row : JobRow π, (ownedRunning id workerId row && targetExtra row) → row.id = id := by
    intro row hrow
    simp only [ownedRunning, Bool.and_eq_true, decide_eq_true_eq] at hrow
    exact hrow.1.1.1
  rcases lockJobs_id (m := m) (t := t) hmatch with hnone | ⟨row, hone, hrow, howned⟩
  · rw [hnone] at hupdated houtcome
    refine .inl ⟨?_, updateJobs_nil hupdated⟩
    rw [← houtcome]
    simpa [jobIds] using outcome_ne_applied visibleExtraMismatch
  · rw [hone] at hupdated houtcome
    obtain ⟨hmem, hrowId⟩ := Tables.job?_eq_some.1 hrow
    rw [Bool.and_eq_true] at howned
    obtain ⟨row', hrow', hset⟩ := updateJobs_job? hid hupdated hrow
    rw [if_pos (by simp [jobIds, hrowId])] at hset
    refine .inr ⟨?_, row, row', ⟨hrow, howned.1, hrow', fun other hother => ?_, ?_⟩, howned.2, hset⟩
    · rw [← houtcome]
      simp [ownedTransitionOutcome, jobIds]
    · exact updateJobs_job?_other hid hupdated (by simpa [jobIds, hrowId] using hother)
    · exact (updateJobs_eq_ok hupdated).2.1

theorem id_of_ok {f : JobRow π → JobRow π} (hf : ∀ row, (f row).id = row.id) (row row' : JobRow π)
    (h : (.ok (f row) : Except StatementError (JobRow π)) = .ok row') : row'.id = row.id := by
  rw [← Except.ok.inj h]
  exact hf row

theorem id_of_bind {α : Type} {x : JobRow π → Except StatementError α} {f : α → JobRow π → JobRow π}
    (hf : ∀ a row, (f a row).id = row.id) (row row' : JobRow π)
    (h : (do return f (← x row) row) = Except.ok row') : row'.id = row.id := by
  obtain ⟨a, -, h⟩ := Postgres.bind_eq_ok.1 h
  rw [← Except.ok.inj h]
  exact hf a row

theorem moveOwnedRunningJobToDeadLetter_eq_ok {deadLetterId : JobId} {errorMessage : String}
    {increment : Bool} {reason : DeadLetterReason}
    (h : moveOwnedRunningJobToDeadLetter m id workerId deadLetterId errorMessage increment reason t =
      .ok (outcome, t')) :
    outcome ≠ .applied ∧ t' = t ∨
      outcome = .applied ∧ (∀ other ≠ id, t'.job? other = t.job? other) ∧ t'.job? id = none ∧
        ∃ row retryCount lastError, t.job? id = some row ∧ ownedRunning id workerId row ∧
          incrementRetryCount increment row = .ok retryCount ∧
          t'.deadLetters = t.deadLetters ++
            [deadLetterOf m.now deadLetterId lastError retryCount reason row] := by
  obtain ⟨lastError, -, h⟩ := Postgres.bind_eq_ok.1 h
  obtain ⟨inserted, hinserted, h⟩ := Postgres.bind_eq_ok.1 h
  obtain ⟨updated, hupdated, hreply⟩ := Postgres.bind_eq_ok.1 h
  obtain ⟨houtcome, rfl⟩ := Prod.mk.inj (Except.ok.inj hreply)
  obtain ⟨hjobs, hdead, hpauses⟩ := replaceRows_eq_ok hupdated
  have hmatch : ∀ row : JobRow π, ownedRunning id workerId row → row.id = id := by
    intro row hrow
    simp only [ownedRunning, Bool.and_eq_true, decide_eq_true_eq] at hrow
    exact hrow.1.1
  rcases lockJobs_id (m := m) (t := t) hmatch with hnone | ⟨row, hone, hrow, howned⟩
  · rw [hnone] at hinserted hjobs houtcome
    obtain rfl : inserted = [] := by simpa using (mapM_eq_ok hinserted).length_eq.symm
    refine .inl ⟨?_, tables_eq (by simpa [jobIds] using hjobs) (by simpa using hdead) hpauses⟩
    rw [← houtcome]
    simpa using outcome_ne_applied fun _ => false
  · rw [hone] at hinserted hjobs houtcome
    obtain ⟨-, hrowId⟩ := Tables.job?_eq_some.1 hrow
    have hone' := mapM_eq_ok hinserted
    rw [forall₂_cons_left_iff] at hone'
    obtain ⟨deadLetter, rest, hdeadLetter, hrest, rfl⟩ := hone'
    obtain rfl := forall₂_nil_left_iff.1 hrest
    obtain ⟨retryCount, hcount, hbuilt⟩ := Postgres.bind_eq_ok.1 hdeadLetter
    obtain rfl := Except.ok.inj hbuilt
    refine .inr ⟨?_, fun other hother => ?_, ?_, row, retryCount, lastError, hrow, howned, hcount, ?_⟩
    · rw [← houtcome]
      simp [ownedTransitionOutcome]
    · rw [Tables.job?, Tables.job?, hjobs, append_nil, find?_filter]
      congr 1
      funext candidate
      by_cases hcandidate : candidate.id = other
      · simp [jobIds, hrowId, hcandidate, hother]
      · simp [hcandidate]
    · rw [Tables.job?_eq_none, hjobs]
      simp [jobIds, hrowId]
    · simpa using hdead

end Owned

end Paranoid.QueueRows
