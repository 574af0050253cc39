import Paranoid.QueueSoundness
import Paranoid.SweepLoop
import Paranoid.TimeBounds

namespace Paranoid.QueueCleanup

open List QueueModel QueueStatements QueueOperations QueueEffects QueueChanges QueueSoundness
open SweepLoop Transitions
open Postgres (timestampMinusMicroseconds timestampMinusMicroseconds_eq_ok float8OfInt8 bind_eq_ok
  mapError_eq_ok)
open TimeBounds (AdmissionError durationToRoundedMicroseconds)

variable {π : Type}

section Model

def maxQueueCleanupBatchSize : Nat := 10000

inductive CleanupError
  | cleanupBatchSizeIsZero
  | cleanupBatchSizeTooLarge (actual max : Nat)
  | age (error : AdmissionError)
  | statement (error : StatementError)
  | transaction (operation : String)
  | unexpectedOutcome (operation outcome : String)

inductive CleanupTarget
  | jobs (status : JobStatus)
  | deadLetterJobs

def validateCleanupBatchSize (batchSize : Nat) : Except CleanupError Unit :=
  if batchSize = 0 then .error .cleanupBatchSizeIsZero
  else if maxQueueCleanupBatchSize < batchSize then
    .error (.cleanupBatchSizeTooLarge batchSize maxQueueCleanupBatchSize)
  else .ok ()

/-- The statement of one batch, by target. -/
def cleanupStatement (target : CleanupTarget) (m : Moment π) (olderThanMicroseconds : Int)
    (batchSize : Nat) (t : Tables π) : Except StatementError (Nat × Tables π) :=
  match target with
  | .jobs status => cleanupJobsOlderThanOnce m status olderThanMicroseconds batchSize t
  | .deadLetterJobs => cleanupAvailableDeadLetterJobsOlderThanOnce m olderThanMicroseconds batchSize t

def cleanupTargetOlderThanOnce (target : CleanupTarget) (olderThan batchSize : Nat) (m : Moment π)
    (t : Tables π) : Except CleanupError (Nat × Tables π) := do
  let olderThanMicroseconds ← (durationToRoundedMicroseconds olderThan).mapError .age
  validateCleanupBatchSize batchSize
  (cleanupStatement target m olderThanMicroseconds batchSize t).mapError .statement

def checkedAddCleanupTotal (current deleted : Nat) : Except CleanupError Nat :=
  if current + deleted < 2 ^ 64 then .ok (current + deleted)
  else .error (.unexpectedOutcome "queue cleanup" "deleted row count overflowed")

def cleanupTargetOlderThanUntilEmpty (target : CleanupTarget) (olderThan batchSize : Nat) :
    Sweep (Tables π) (Moment π) CleanupError :=
  ⟨batchSize, cleanupTargetOlderThanOnce target olderThan batchSize, checkedAddCleanupTotal⟩

/-- The batch size is checked before the first transaction begins. -/
def cleanupStart (batchSize : Nat) (t : Tables π) : State (Tables π) CleanupError :=
  match validateCleanupBatchSize batchSize with
  | .ok () => start t
  | .error error => ⟨t, 0, .returned (.error error)⟩

end Model

section Batches

/-- A statement deletes some of the rows that are due and that nobody holds locked, at most
so many, and it deletes all of these that it is shown where it deletes fewer. -/
structure Batch {ρ : Type} (due free : ρ → Bool) (shown : ρ → Prop) (limit n : Nat)
    (before after : List ρ) : Prop where
  sublist : after <+ before
  count : n + after.length = before.length
  bounded : n ≤ limit
  removed : ∀ row ∈ before, row ∉ after → due row ∧ free row
  short : n < limit → ∀ row ∈ before, due row → free row → shown row → row ∉ after

variable {ρ τ : Type} {key : ρ → JobId} {locked : JobId → Bool} {newest : JobId → Option ρ}
  {due free : ρ → Bool} {shown : ρ → Prop} {seen rows before after : List ρ} {limit n : Nat}

/-- The rows that are locked first are deleted. -/
theorem batch_lockRows (hrows : (rows.map key).Nodup) (hseen : (seen.map key).Nodup)
    (hnewest : ∀ id row, newest id = some row ↔ row ∈ rows ∧ key row = id)
    (chosen : List ρ) (hchosen : chosen = (lockRows key locked newest due seen).take limit) :
    Batch due (fun row => !locked (key row)) (fun row => ∃ old ∈ seen, key old = key row ∧ due old)
      limit chosen.length rows (rows.filter fun row => key row ∉ chosen.map key) := by
  have hkey : ∀ id row, newest id = some row → key row = id :=
    fun id row h => ((hnewest id row).1 h).2
  have hmem : ∀ row ∈ chosen, row ∈ rows ∧ due row ∧ locked (key row) = false := by
    intro row hrow
    rw [hchosen] at hrow
    obtain ⟨hdue, old, -, -, hlock, hnew⟩ := mem_lockRows.1 (mem_of_mem_take hrow)
    obtain ⟨hmem, hid⟩ := (hnewest _ _).1 hnew
    exact ⟨hmem, hdue, by rwa [hid]⟩
  have hnodup : (chosen.map key).Nodup := by
    rw [hchosen, map_take]
    exact (take_sublist limit _).nodup (lockRows_nodup hkey hseen)
  refine ⟨filter_sublist, ?_, ?_, ?_, ?_⟩
  · have hperm := filter_append_perm_of_keys hrows hnodup fun row hrow => (hmem row hrow).1
    rw [hperm.length_eq, length_append, Nat.add_comm]
  · rw [hchosen]
    exact length_take_le limit _
  · intro row hrow hgone
    have hid : key row ∈ chosen.map key := by
      by_contra hid
      exact hgone (mem_filter.2 ⟨hrow, by simpa using hid⟩)
    obtain ⟨other, hother, hsame⟩ := mem_map.1 hid
    obtain ⟨hin, hdue, hlock⟩ := hmem other hother
    obtain rfl := inj_on_of_nodup_map hrows hin hrow hsame
    exact ⟨hdue, by simp [hlock]⟩
  · rintro hshort row hrow hdue hfree ⟨old, hold, hsame, hdueOld⟩ hkept
    have hlocked : row ∈ lockRows key locked newest due seen :=
      mem_lockRows.2 ⟨hdue, old, hold, hdueOld, by simpa [hsame] using hfree,
        (hnewest _ _).2 ⟨hrow, hsame.symm⟩⟩
    -- a batch that is not full holds every row that was locked
    have hall : row ∈ chosen := by
      rw [hchosen, take_of_length_le]
      · exact hlocked
      · rw [hchosen, length_take] at hshort
        omega
    have hout := (mem_filter.1 hkept).2
    exact absurd (mem_map.2 ⟨row, hall, rfl⟩) (by simpa using hout)

/-- A batch over one of several tables is a batch over all of their rows. -/
theorem Batch.embed (h : Batch due free shown limit n before after) (f : ρ → τ) (pre post : List τ)
    (due' free' : τ → Bool) (shown' : τ → Prop) (hf : Function.Injective f)
    (hdue : ∀ row, due' (f row) = due row) (hfree : ∀ row, free' (f row) = free row)
    (hshown : ∀ row, shown' (f row) → shown row) (hpre : ∀ row ∈ pre, due' row = false)
    (hpost : ∀ row ∈ post, due' row = false) :
    Batch due' free' shown' limit n (pre ++ before.map f ++ post) (pre ++ after.map f ++ post) := by
  refine ⟨((Sublist.refl pre).append (h.sublist.map f)).append (Sublist.refl post), ?_, h.bounded, ?_, ?_⟩
  · have hcount := h.count
    simp only [length_append, length_map]
    omega
  · intro row hrow hgone
    simp only [mem_append, mem_map, not_or, not_exists, not_and] at hrow hgone
    rcases hrow with (hrow | ⟨row, hrow, rfl⟩) | hrow
    · exact absurd hrow hgone.1.1
    · obtain ⟨hd, hfr⟩ := h.removed row hrow fun hkept => hgone.1.2 row hkept rfl
      exact ⟨by rw [hdue, hd], by rw [hfree, hfr]⟩
    · exact absurd hrow hgone.2
  · intro hshort row hrow hd hfr hsh hkept
    simp only [mem_append, mem_map] at hrow hkept
    rcases hrow with (hrow | ⟨row, hrow, rfl⟩) | hrow
    · exact absurd hd (by simp [hpre row hrow])
    · rcases hkept with (hkept | ⟨other, hkept, hsame⟩) | hkept
      · exact absurd hd (by simp [hpre _ hkept])
      · rw [hf hsame] at hkept
        exact h.short hshort row hrow (by rwa [hdue] at hd) (by rwa [hfree] at hfr) (hshown row hsh) hkept
      · exact absurd hd (by simp [hpost _ hkept])
    · exact absurd hd (by simp [hpost row hrow])

end Batches

section Target

variable {m : Moment π} {t t' : Tables π} {target : CleanupTarget} {age cutoff : Int}
  {olderThan batchSize n : Nat}

abbrev Row (π : Type) : Type := JobRow π ⊕ DeadLetterRow π

/-- The rows of both tables. -/
def rows (t : Tables π) : List (Row π) := t.jobs.map .inl ++ t.deadLetters.map .inr

def rowId : Row π → JobId := Sum.elim JobRow.id DeadLetterRow.id

def unlocked (m : Moment π) : Row π → Bool
  | .inl row => !m.lockedJobs row.id
  | .inr row => !m.lockedDeadLetters row.id

/-- The row is one of the target's and older than the cutoff. -/
def CleanupTarget.due (target : CleanupTarget) (cutoff : Int) : Row π → Bool
  | .inl row =>
      match target with
      | .jobs status => row.status = status && row.finishedAt.any (· < cutoff)
      | .deadLetterJobs => false
  | .inr row =>
      match target with
      | .jobs _ => false
      | .deadLetterJobs => row.deadLetteredAt < cutoff

/-- The snapshot shows the row, and shows it as due. -/
def shownDue (target : CleanupTarget) (cutoff : Int) (m : Moment π) (row : Row π) : Prop :=
  ∃ old ∈ rows m.snapshot, rowId old = rowId row ∧ target.due cutoff old

/-- A batch of a cleanup: it deletes so many rows of the target, and nothing else changes. -/
def Cleans (target : CleanupTarget) (age : Int) (batchSize n : Nat) (m : Moment π) (t t' : Tables π) :
    Prop :=
  t'.pauses = t.pauses ∧ ∃ cutoff, timestampMinusMicroseconds m.now age = .ok cutoff ∧
    Batch (target.due cutoff) (unlocked m) (shownDue target cutoff m) batchSize n (rows t) (rows t')

theorem nodup_insertionSort {ρ : Type} {key : ρ → JobId} {seen : List ρ} (r : ρ → ρ → Prop)
    [DecidableRel r] (hseen : (seen.map key).Nodup) : ((seen.insertionSort r).map key).Nodup :=
  ((perm_insertionSort r seen).map key).nodup_iff.2 hseen

theorem cleanupJobs_cleans {status : JobStatus}
    (h : cleanupJobsOlderThanOnce m status age batchSize t = .ok (n, t')) :
    Cleans (.jobs status) age batchSize n m t t' := by
  obtain ⟨cutoff, hcutoff, h⟩ := bind_eq_ok.1 h
  obtain ⟨updated, hupdated, h⟩ := bind_eq_ok.1 h
  obtain ⟨rfl, rfl⟩ := Prod.mk.inj (Except.ok.inj h)
  obtain ⟨hjobs, hdead, hpauses⟩ := replaceRows_eq_ok hupdated
  rw [append_nil] at hjobs hdead
  refine ⟨hpauses, cutoff, mapError_eq_ok.1 hcutoff, ?_⟩
  have hbatch := batch_lockRows (t.constraints .primaryKey)
    (nodup_insertionSort _ (m.snapshot.constraints .primaryKey)) (fun _ _ => Tables.job?_eq_some)
    (lockFirstJobs m t (fun row => row.status = status && row.finishedAt.any (· < cutoff))
      finishedOrder batchSize) rfl
  have hrows := hbatch.embed Sum.inl [] (t.deadLetters.map .inr)
    ((CleanupTarget.jobs status).due cutoff) (unlocked m) (shownDue (.jobs status) cutoff m)
    Sum.inl_injective (fun _ => rfl) (fun _ => rfl) ?_ (by simp) ?_
  · simpa [rows, hjobs, hdead, jobIds] using hrows
  · rintro row ⟨old, hold, hid, hdue⟩
    simp only [rows, mem_append, mem_map] at hold
    rcases hold with ⟨old, hold, rfl⟩ | ⟨old, -, rfl⟩
    · exact ⟨old, (mem_insertionSort _).2 hold, hid, hdue⟩
    · cases hdue
  · intro row hrow
    obtain ⟨deadLetter, -, rfl⟩ := mem_map.1 hrow
    rfl

theorem cleanupDeadLetters_cleans
    (h : cleanupAvailableDeadLetterJobsOlderThanOnce m age batchSize t = .ok (n, t')) :
    Cleans .deadLetterJobs age batchSize n m t t' := by
  obtain ⟨cutoff, hcutoff, h⟩ := bind_eq_ok.1 h
  obtain ⟨updated, hupdated, h⟩ := bind_eq_ok.1 h
  obtain ⟨rfl, rfl⟩ := Prod.mk.inj (Except.ok.inj h)
  obtain ⟨hjobs, hdead, hpauses⟩ := replaceRows_eq_ok hupdated
  rw [append_nil] at hjobs hdead
  refine ⟨hpauses, cutoff, mapError_eq_ok.1 hcutoff, ?_⟩
  have hbatch := batch_lockRows (t.constraints .deadLetterPrimaryKey)
    (nodup_insertionSort _ (m.snapshot.constraints .deadLetterPrimaryKey))
    (fun _ _ => Tables.deadLetter?_eq_some)
    (lockFirstDeadLetters m t (fun row => row.deadLetteredAt < cutoff)
      (fun row => toLex (row.deadLetteredAt, row.id)) batchSize) rfl
  have hrows := hbatch.embed Sum.inr (t.jobs.map .inl) []
    (CleanupTarget.deadLetterJobs.due cutoff) (unlocked m) (shownDue .deadLetterJobs cutoff m)
    Sum.inr_injective (fun _ => rfl) (fun _ => rfl) ?_ ?_ (by simp)
  · simpa [rows, hjobs, hdead, deadLetterIds] using hrows
  · rintro row ⟨old, hold, hid, hdue⟩
    simp only [rows, mem_append, mem_map] at hold
    rcases hold with ⟨old, -, rfl⟩ | ⟨old, hold, rfl⟩
    · cases hdue
    · exact ⟨old, (mem_insertionSort _).2 hold, hid, hdue⟩
  · intro row hrow
    obtain ⟨job, -, rfl⟩ := mem_map.1 hrow
    rfl

theorem cleanupStatement_cleans (h : cleanupStatement target m age batchSize t = .ok (n, t')) :
    Cleans target age batchSize n m t t' := by
  cases target with
  | jobs status => exact cleanupJobs_cleans h
  | deadLetterJobs => exact cleanupDeadLetters_cleans h

/-- The statement of a batch fails on its cutoff only. -/
theorem cleanupStatement_isOk (hcutoff : timestampMinusMicroseconds m.now age = .ok cutoff) :
    ∃ n t', cleanupStatement target m age batchSize t = .ok (n, t') := by
  have hdeletes : ∀ jobs deadLetters, ∃ t', replaceRows t jobs [] deadLetters [] = .ok t' := by
    intro jobs deadLetters
    cases hresult : replaceRows t jobs [] deadLetters [] with
    | ok t' => exact ⟨t', rfl⟩
    | error e =>
        obtain ⟨c, rfl, -⟩ := Tables.store_eq_error hresult
        exact absurd hresult ((sound_deletes jobs deadLetters).violation c)
  have hsql : sql (timestampMinusMicroseconds m.now age) = .ok cutoff := mapError_eq_ok.2 hcutoff
  cases target with
  | jobs status =>
      obtain ⟨t', ht'⟩ := hdeletes (jobIds (lockFirstJobs m t
        (fun row => row.status = status && row.finishedAt.any (· < cutoff)) finishedOrder batchSize)) []
      exact ⟨_, t', bind_eq_ok.2 ⟨cutoff, hsql, bind_eq_ok.2 ⟨t', ht', rfl⟩⟩⟩
  | deadLetterJobs =>
      obtain ⟨t', ht'⟩ := hdeletes [] (deadLetterIds (lockFirstDeadLetters m t
        (fun row => row.deadLetteredAt < cutoff) (fun row => toLex (row.deadLetteredAt, row.id)) batchSize))
      exact ⟨_, t', bind_eq_ok.2 ⟨cutoff, hsql, bind_eq_ok.2 ⟨t', ht', rfl⟩⟩⟩

theorem cleanupTargetOlderThanOnce_eq_ok
    (h : cleanupTargetOlderThanOnce target olderThan batchSize m t = .ok (n, t')) :
    ∃ age, durationToRoundedMicroseconds olderThan = .ok age ∧
      validateCleanupBatchSize batchSize = .ok () ∧ Cleans target age batchSize n m t t' := by
  obtain ⟨age, hage, h⟩ := bind_eq_ok.1 h
  obtain ⟨⟨⟩, hsize, h⟩ := bind_eq_ok.1 h
  exact ⟨age, mapError_eq_ok.1 hage, hsize, cleanupStatement_cleans (mapError_eq_ok.1 h)⟩

theorem checkedAddCleanupTotal_eq_ok {current deleted total : Nat}
    (h : checkedAddCleanupTotal current deleted = .ok total) : total = current + deleted := by
  rw [checkedAddCleanupTotal] at h
  split at h
  · exact (Except.ok.inj h).symm
  · cases h

end Target

section Runs

variable {target : CleanupTarget} {olderThan batchSize : Nat} {t : Tables π}
  {inputs : List (Input (Tables π) (Moment π) CleanupError)}

/-- The call of a cleanup, with every step that it and the other parties take. -/
def cleanupRun (target : CleanupTarget) (olderThan batchSize : Nat)
    (inputs : List (Input (Tables π) (Moment π) CleanupError)) (t : Tables π) :
    State (Tables π) CleanupError :=
  exec (step (cleanupTargetOlderThanUntilEmpty target olderThan batchSize)) inputs
    (cleanupStart batchSize t)

theorem cleanupRun_of_valid (hsize : validateCleanupBatchSize batchSize = .ok ()) :
    cleanupStart batchSize t = start t := by
  rw [cleanupStart, hsize]

/-- Only an admitted batch size lets a cleanup return a number. -/
theorem valid_of_returned {total : Nat}
    (h : (cleanupRun target olderThan batchSize inputs t).phase = .returned (.ok total)) :
    validateCleanupBatchSize batchSize = .ok () := by
  cases hsize : validateCleanupBatchSize batchSize with
  | ok => rfl
  | error e =>
      have hstart : (cleanupStart batchSize t).phase = .returned (.error e) := by
        rw [cleanupStart, hsize]
      rw [cleanupRun, phase_of_returned (by rw [hstart]; rfl), hstart] at h
      cases h

/-- A batch of a run deletes what its statement deletes and puts out how much that is. -/
theorem batches_clean (m : Moment π) (s : State (Tables π) CleanupError) :
    let after := step (cleanupTargetOlderThanUntilEmpty target olderThan batchSize) (.batches m) s
    (after.2 = 0 ∧ after.1.tables = s.tables) ∨
      ∃ age, durationToRoundedMicroseconds olderThan = .ok age ∧
        Cleans target age batchSize after.2 m s.tables after.1.tables := by
  obtain ⟨tables, total, phase⟩ := s
  cases phase with
  | pausing | returned => exact .inl ⟨rfl, rfl⟩
  | sweeping =>
      cases hbatch : cleanupTargetOlderThanOnce target olderThan batchSize m tables with
      | error e =>
          refine .inl ?_
          simp only [step, cleanupTargetOlderThanUntilEmpty, hbatch, and_self]
      | ok result =>
          obtain ⟨n, tables'⟩ := result
          obtain ⟨age, hage, -, hcleans⟩ := cleanupTargetOlderThanOnce_eq_ok hbatch
          refine .inr ⟨age, hage, ?_⟩
          simp only [step, cleanupTargetOlderThanUntilEmpty, hbatch, count_tables]
          exact hcleans

/-- However other parties write to the tables, hold rows locked, make statements fail or
cancel it: a cleanup only ever deletes rows that are old enough and not held locked, a number
that it returns is the number of rows that it has deleted, and it returns one only when it
has been cancelled or has just left no such row that it was shown. -/
theorem cleanup_reports_deletions (target : CleanupTarget) (olderThan batchSize : Nat)
    (inputs : List (Input (Tables π) (Moment π) CleanupError)) (t : Tables π) :
    let sweep := cleanupTargetOlderThanUntilEmpty target olderThan batchSize
    let run := fun inputs => cleanupRun target olderThan batchSize inputs t
    (∀ earlier m later, inputs = earlier ++ .batches m :: later →
      let after := step sweep (.batches m) (run earlier)
      (after.2 = 0 ∧ after.1.tables = (run earlier).tables) ∨
        ∃ age, durationToRoundedMicroseconds olderThan = .ok age ∧
          Cleans target age batchSize after.2 m (run earlier).tables after.1.tables) ∧
    ∀ total, (run inputs).phase = .returned (.ok total) →
      total = ((trace (step sweep) inputs (cleanupStart batchSize t)).map Prod.snd).sum ∧
      ((∃ earlier later, inputs = earlier ++ .cancels :: later ∧ returned (run earlier).phase = false) ∨
        ∃ earlier m later age cutoff, inputs = earlier ++ .batches m :: later ∧
          durationToRoundedMicroseconds olderThan = .ok age ∧
          timestampMinusMicroseconds m.now age = .ok cutoff ∧
          ∀ row ∈ rows (run earlier).tables, target.due cutoff row → unlocked m row →
            shownDue target cutoff m row → row ∉ rows (run (earlier ++ [.batches m])).tables) := by
  intro sweep run
  refine ⟨fun earlier m later _ => batches_clean m (run earlier), ?_⟩
  intro total htotal
  have hstart : cleanupStart batchSize t = start t := cleanupRun_of_valid (valid_of_returned htotal)
  have hrun : ∀ inputs, run inputs = exec (step sweep) inputs (start t) := by
    intro inputs
    rw [← hstart]
    rfl
  rw [hrun] at htotal
  have hadds : AddsUp sweep := fun _ _ _ h => checkedAddCleanupTotal_eq_ok h
  refine ⟨by rw [hstart]; exact (totals_exec hadds inputs t).returns total htotal, ?_⟩
  obtain ⟨earlier, input, later, rfl, hends, -⟩ := ended_exec inputs t htotal
  rcases hends with ⟨rfl, hrunning⟩ | ⟨m, n, t', rfl, hphase, hbatch, hshort⟩
  · exact .inl ⟨earlier, later, rfl, by rwa [hrun]⟩
  · obtain ⟨age, hage, -, -, cutoff, hcutoff, hdeleted⟩ := cleanupTargetOlderThanOnce_eq_ok hbatch
    have hafter : (run (earlier ++ [.batches m])).tables = t' := by
      rw [hrun, exec_append, exec_cons, exec_nil, step_batches hphase hbatch, count_tables]
    refine .inr ⟨earlier, m, later, age, cutoff, rfl, hage, hcutoff, ?_⟩
    intro row hrow hdue hfree hshown
    rw [hrun] at hrow
    rw [hafter]
    exact hdeleted.short hshort row hrow hdue hfree hshown

end Runs

section Quiet

variable {target : CleanupTarget} {age cutoff : Int} {olderThan batchSize n : Nat} {t t' : Tables π}

/-- The cleanup of tables that nobody else writes to or holds locked: what a batch meets is
its timestamp. -/
def quiet (target : CleanupTarget) (olderThan batchSize : Nat) : Sweep (Tables π) Int CleanupError :=
  let sweep := cleanupTargetOlderThanUntilEmpty target olderThan batchSize
  ⟨sweep.batchSize, fun now t => sweep.batch ⟨now, t, fun _ => false, fun _ => false⟩ t, sweep.add⟩

theorem rows_nodup (t : Tables π) : (rows t).Nodup := by
  refine Nodup.append ?_ ?_ ?_
  · exact (t.constraints .primaryKey).of_map.map Sum.inl_injective
  · exact (t.constraints .deadLetterPrimaryKey).of_map.map Sum.inr_injective
  · intro row hjob hdead
    obtain ⟨job, -, rfl⟩ := mem_map.1 hjob
    obtain ⟨deadLetter, -, heq⟩ := mem_map.1 hdead
    cases heq

theorem eq_filter_of_sublist {ρ : Type} {before after : List ρ} {p : ρ → Bool} (hsub : after <+ before)
    (hnodup : before.Nodup) (hmem : ∀ row ∈ before, row ∈ after ↔ p row) : after = before.filter p := by
  have hkept : after <+ before.filter p := by
    have hfilter := hsub.filter p
    rwa [filter_eq_self.2 fun row hrow => (hmem row (hsub.mem hrow)).1 hrow] at hfilter
  apply hkept.eq_of_length_le
  apply ((hnodup.filter p).subperm ?_).length_le
  intro row hrow
  obtain ⟨hin, hp⟩ := mem_filter.1 hrow
  exact (hmem row hin).2 hp

theorem due_mono {cutoff' : Int} (hle : cutoff ≤ cutoff') {row : Row π} (h : target.due cutoff row) :
    target.due cutoff' row := by
  cases row with
  | inl row =>
      cases target with
      | jobs status =>
          simp only [CleanupTarget.due, Bool.and_eq_true, decide_eq_true_eq, Option.any_eq_true] at h ⊢
          obtain ⟨hstatus, finished, hfinished, hlt⟩ := h
          exact ⟨hstatus, finished, hfinished, lt_of_lt_of_le hlt hle⟩
      | deadLetterJobs => cases h
  | inr row =>
      cases target with
      | jobs status => cases h
      | deadLetterJobs =>
          simp only [CleanupTarget.due, decide_eq_true_eq] at h ⊢
          exact lt_of_lt_of_le h hle

/-- A batch that nobody interferes with deletes rows that are due, and all of them where it
is not full. -/
theorem quiet_cleans {now : Int} (hage : durationToRoundedMicroseconds olderThan = .ok age)
    (hcutoff : timestampMinusMicroseconds now age = .ok cutoff)
    (h : (quiet target olderThan batchSize).batch now t = .ok (n, t')) :
    t'.pauses = t.pauses ∧ Batch (target.due cutoff) (fun _ => true) (fun _ => True) batchSize n
      (rows t) (rows t') := by
  obtain ⟨age', hage', -, hpauses, cutoff', hcutoff', hbatch⟩ := cleanupTargetOlderThanOnce_eq_ok h
  obtain rfl := Except.ok.inj (hage'.symm.trans hage)
  obtain rfl := Except.ok.inj (hcutoff'.symm.trans hcutoff)
  refine ⟨hpauses, hbatch.sublist, hbatch.count, hbatch.bounded, ?_, ?_⟩
  · intro row hrow hgone
    exact ⟨(hbatch.removed row hrow hgone).1, rfl⟩
  · intro hshort row hrow hdue _ _
    exact hbatch.short hshort row hrow hdue (by cases row <;> rfl) ⟨row, hrow, rfl, hdue⟩

/-- The last batch decides: what is due at its cutoff is gone, and nothing else. -/
theorem drains_cleans {nows : List Int} (hage : durationToRoundedMicroseconds olderThan = .ok age)
    (hnows : nows.Pairwise (· ≤ ·))
    (hrange : ∀ now ∈ nows, ∃ cutoff, timestampMinusMicroseconds now age = .ok cutoff)
    (h : Drains (quiet target olderThan batchSize) nows t t') :
    t'.pauses = t.pauses ∧ ∃ last ∈ nows.getLast?, ∃ cutoff,
      timestampMinusMicroseconds last age = .ok cutoff ∧
      rows t' = (rows t).filter fun row => !target.due cutoff row := by
  induction h with
  | @last now t n t' hbatch hshort =>
      obtain ⟨cutoff, hcutoff⟩ := hrange now mem_cons_self
      obtain ⟨hpauses, hdeleted⟩ := quiet_cleans hage hcutoff hbatch
      refine ⟨hpauses, now, rfl, cutoff, hcutoff,
        eq_filter_of_sublist hdeleted.sublist (rows_nodup t) fun row hrow => ?_⟩
      constructor
      · intro hkept
        by_contra hdue
        exact hdeleted.short hshort row hrow (by simpa using hdue) rfl trivial hkept
      · intro hdue
        by_contra hgone
        rw [(hdeleted.removed row hrow hgone).1] at hdue
        cases hdue
  | @full now nows t n t₁ t' hbatch _ hrest ih =>
      obtain ⟨hfirst, hnows⟩ := pairwise_cons.1 hnows
      obtain ⟨cutoff, hcutoff⟩ := hrange now mem_cons_self
      obtain ⟨hpauses, hdeleted⟩ := quiet_cleans hage hcutoff hbatch
      obtain ⟨hpauses', last, hlast, cutoff', hcutoff', hrows⟩ :=
        ih hnows fun now hnow => hrange now (mem_cons_of_mem _ hnow)
      have hle : cutoff ≤ cutoff' := by
        rw [timestampMinusMicroseconds_eq_ok hcutoff, timestampMinusMicroseconds_eq_ok hcutoff']
        have := hfirst last (mem_of_mem_getLast? hlast)
        omega
      have hlast : last ∈ (now :: nows).getLast? := mem_getLast?_cons hlast
      refine ⟨hpauses'.trans hpauses, last, hlast, cutoff', hcutoff', ?_⟩
      rw [hrows]
      refine eq_filter_of_sublist (filter_sublist.trans hdeleted.sublist) (rows_nodup t) fun row hrow => ?_
      rw [mem_filter]
      refine ⟨And.right, fun hdue => ⟨?_, hdue⟩⟩
      by_contra hgone
      rw [due_mono hle (hdeleted.removed row hrow hgone).1] at hdue
      cases hdue

theorem quiet_batch {now : Int} (hage : durationToRoundedMicroseconds olderThan = .ok age)
    (hsize : validateCleanupBatchSize batchSize = .ok ())
    (hcutoff : timestampMinusMicroseconds now age = .ok cutoff) (t : Tables π) :
    ∃ n t', (quiet target olderThan batchSize).batch now t = .ok (n, t') ∧
      n + (rows t').length = (rows t).length := by
  obtain ⟨n, t', hstatement⟩ : ∃ n t', cleanupStatement target
      ⟨now, t, fun _ => false, fun _ => false⟩ age batchSize t = .ok (n, t') :=
    cleanupStatement_isOk hcutoff
  have hbatch : (quiet target olderThan batchSize).batch now t = .ok (n, t') :=
    bind_eq_ok.2 ⟨age, mapError_eq_ok.2 hage, bind_eq_ok.2 ⟨(), hsize, mapError_eq_ok.2 hstatement⟩⟩
  exact ⟨n, t', hbatch, (quiet_cleans hage hcutoff hbatch).2.count⟩

/-- A cleanup that nobody interferes with ends with one batch more than full batches fit
into the tables, and then batching has made no difference: the rows that are old enough for
the batch with which it returns are gone, no other row is, and the result is their number. -/
theorem cleanup_alone_empties (target : CleanupTarget) {olderThan batchSize : Nat} {age : Int}
    {nows : List Int} (t : Tables π) (hage : durationToRoundedMicroseconds olderThan = .ok age)
    (hsize : validateCleanupBatchSize batchSize = .ok ()) (hnows : nows.Pairwise (· ≤ ·))
    (hrange : ∀ now ∈ nows, ∃ cutoff, timestampMinusMicroseconds now age = .ok cutoff)
    (hrows : (rows t).length < 2 ^ 64) (henough : (rows t).length < nows.length * batchSize) :
    ∃ earlier last later, nows = earlier ++ last :: later ∧
      let run := fun inputs => exec (step (quiet target olderThan batchSize)) inputs
        (cleanupStart batchSize t)
      (run (aloneInputs earlier)).phase = .sweeping ∧
      run (aloneInputs earlier ++ [.batches last]) = run (aloneInputs nows) ∧
      ∃ cutoff, timestampMinusMicroseconds last age = .ok cutoff ∧
        rows (run (aloneInputs nows)).tables = (rows t).filter (fun row => !target.due cutoff row) ∧
        (run (aloneInputs nows)).tables.pauses = t.pauses ∧
        (run (aloneInputs nows)).phase = .returned (.ok ((rows t).countP (target.due cutoff))) := by
  rw [cleanupRun_of_valid hsize]
  have hadd : ∀ total deleted, total + deleted ≤ (rows t).length + 0 →
      checkedAddCleanupTotal total deleted = .ok (total + deleted) :=
    fun total deleted h => if_pos (by omega)
  have hbatch : ∀ now ∈ nows, ∀ t : Tables π, ∃ n t',
      (quiet target olderThan batchSize).batch now t = .ok (n, t') ∧
        n + (rows t').length = (rows t).length := by
    intro now hnow t
    obtain ⟨cutoff, hcutoff⟩ := hrange now hnow
    exact quiet_batch hage hsize hcutoff t
  obtain ⟨earlier, last, later, final, total, hsplit, hdrains, hsweeping, hreturned, htotal⟩ :=
    @drains_alone _ _ _ (quiet target olderThan batchSize) (start t)
      (fun t => (rows t).length) hadd nows hbatch rfl henough
  have hsub : earlier ++ [last] <+ nows := by
    rw [hsplit, append_cons earlier last later]
    exact sublist_append_left _ later
  obtain ⟨hpauses, used, hlast, cutoff, hcutoff, hfinal⟩ :=
    drains_cleans hage (hnows.sublist hsub) (fun now hnow => hrange now (hsub.mem hnow)) hdrains
  rw [getLast?_concat, Option.mem_some_iff] at hlast
  subst hlast
  have hcount := length_eq_countP_add_countP (target.due cutoff) (l := rows t)
  rw [hfinal, ← countP_eq_length_filter] at htotal
  have htotal' : total = (rows t).countP (target.due cutoff) := by
    simp only [start, Bool.not_eq_true, Bool.decide_eq_false] at htotal hcount ⊢
    omega
  have hwhole : exec (step (quiet target olderThan batchSize)) (aloneInputs nows) (start t) =
      ⟨final, total, .returned (.ok total)⟩ := by
    rw [hsplit]
    exact exec_alone_of_returned hreturned rfl
  refine ⟨earlier, last, later, hsplit, hsweeping, hreturned.trans hwhole.symm, cutoff, hcutoff, ?_⟩
  dsimp only
  rw [hwhole, ← htotal']
  exact ⟨hfinal, hpauses, rfl⟩

/-- A dead letter from the given time, in a table of two. -/
def deadLetterFrom (id : JobId) (deadLetteredAt : Int) : DeadLetterRow Unit where
  id := id
  originalJobId := id
  taskName := ⟨"mail", by decide⟩
  payload := ()
  lastError := ""
  retryCount := 0
  maxRetries := 5
  timeoutNanos := 0
  dedupeKey := none
  reason := .executionExpired
  deadLetteredAt := deadLetteredAt
  createdAt := deadLetteredAt
  updatedAt := deadLetteredAt

theorem twoDeadLetters_constraints (c : Constraint) :
    c.Holds ([] : List (JobRow Unit)) [deadLetterFrom 1 5, deadLetterFrom 2 2000000] := by
  cases c <;> decide

def twoDeadLetters : Tables Unit := ⟨[], [deadLetterFrom 1 5, deadLetterFrom 2 2000000], [],
  twoDeadLetters_constraints⟩

theorem cleanup_alone_empties_two : ∃ earlier last later,
    [1500000, 1600000, 1700000] = earlier ++ last :: later ∧
      let run := fun inputs => exec (step (quiet .deadLetterJobs 1000000000 1)) inputs
        (cleanupStart 1 twoDeadLetters)
      (run (aloneInputs earlier)).phase = .sweeping ∧
      run (aloneInputs earlier ++ [.batches last]) = run (aloneInputs [1500000, 1600000, 1700000]) ∧
      ∃ cutoff, timestampMinusMicroseconds last 1000000 = .ok cutoff ∧
        rows (run (aloneInputs [1500000, 1600000, 1700000])).tables =
          (rows twoDeadLetters).filter (fun row => !CleanupTarget.deadLetterJobs.due cutoff row) ∧
        (run (aloneInputs [1500000, 1600000, 1700000])).tables.pauses = twoDeadLetters.pauses ∧
        (run (aloneInputs [1500000, 1600000, 1700000])).phase =
          .returned (.ok ((rows twoDeadLetters).countP (CleanupTarget.deadLetterJobs.due cutoff))) :=
  cleanup_alone_empties .deadLetterJobs twoDeadLetters rfl rfl (by decide)
    (by
      intro now hnow
      simp only [mem_cons, not_mem_nil, or_false] at hnow
      obtain rfl | rfl | rfl := hnow <;> exact ⟨_, rfl⟩) (by decide) (by decide)

end Quiet

end Paranoid.QueueCleanup
