import Paranoid.QueueFailure

namespace Paranoid.BulkRetry

open List Postgres QueueModel QueueStatements QueueOperations QueueEffects QueueChanges
open QueueOutcomes
open QueueFailure (Quiet)

variable {π : Type}

section Operation

def maxQueueRunAtOrAfterUnixMicroseconds : Int := 253402300799999999

structure JobRunAtOrAfter where
  unixMicroseconds : Int
  nonnegative : 0 ≤ unixMicroseconds
  le_max : unixMicroseconds ≤ maxQueueRunAtOrAfterUnixMicroseconds

def maxQueueRetryAvailableFailedJobsLimit : Nat := 1000

inductive RetryError
  | limitIsZero
  | limitTooLarge (actual max : Nat)
  | retryConflictWithActiveDedupeJob
  | database (error : StatementError)
  | unexpectedOutcome (operation outcome : String)

def validateRetryAvailableFailedJobsLimit (limit : Nat) : Except RetryError Unit :=
  if limit = 0 then .error .limitIsZero
  else if maxQueueRetryAvailableFailedJobsLimit < limit then
    .error (.limitTooLarge limit maxQueueRetryAvailableFailedJobsLimit)
  else .ok ()

/-- A transaction with the tables at each of its savepoints. -/
structure Tx (π : Type) where
  tables : Tables π
  savepoints : List (String × Tables π)
  aborted : Bool

def Tx.savepoint (name : String) (tx : Tx π) : Tx π :=
  { tx with savepoints := (name, tx.tables) :: tx.savepoints }

/-- The savepoint stays. -/
def Tx.rollbackTo (name : String) (tx : Tx π) : Tx π :=
  match tx.savepoints.dropWhile (·.1 ≠ name) with
  | [] => { tx with aborted := true }
  | saved :: outer => ⟨saved.2, saved :: outer, false⟩

def Tx.release (name : String) (tx : Tx π) : Tx π :=
  { tx with savepoints := (tx.savepoints.dropWhile (·.1 ≠ name)).tail }

/-- An error leaves nothing of its statement, and no statement runs before a rollback. -/
def Tx.execute {α : Type} (statement : Tables π → Except StatementError (α × Tables π)) (tx : Tx π) :
    Except StatementError α × Tx π :=
  match statement tx.tables with
  | .ok (result, tables) => (.ok result, { tx with tables })
  | .error e => (.error e, { tx with aborted := true })

def retrySavepoint : String := "__paranoid_queue_retry_available_failed_jobs"

/-- What the filter, the limit and the time of a call are. -/
structure RetryOptions where
  optionalTaskName : Option TaskName
  limit : Nat
  runAtOrAfter : Option JobRunAtOrAfter

variable (options : RetryOptions)

def attempt (m : Moment π) (tx : Tx π) : Except StatementError Nat × Tx π :=
  match (tx.savepoint retrySavepoint).execute (QueueOperations.retryAvailableFailedJobs m options.optionalTaskName options.limit
      (options.runAtOrAfter.map JobRunAtOrAfter.unixMicroseconds)) with
  | (.ok rowsAffected, tx) => (.ok rowsAffected, tx.release retrySavepoint)
  | (.error e, tx) => (.error e, (tx.rollbackTo retrySavepoint).release retrySavepoint)

/-- What an attempt meets: what others have committed before it, and its moment. -/
structure Surroundings (π : Type) where
  others : Tables π → Tables π
  moment : Tables π → Moment π

def attempts : List (Surroundings π) → Tx π → Except RetryError Nat × Tx π
  | [], tx => (.error (.unexpectedOutcome
      "retry available failed jobs in current transaction" "retry loop exhausted"), tx)
  | around :: rest, tx =>
      let met := { tx with tables := around.others tx.tables }
      match attempt options (around.moment met.tables) met with
      | (.ok rowsAffected, tx') => (.ok rowsAffected, tx')
      | (.error (.violation .dedupeActive), tx') =>
          if rest = [] then (.error .retryConflictWithActiveDedupeJob, tx') else attempts rest tx'
      | (.error e, tx') => (.error (.database e), tx')

def retryAvailableFailedJobsInCurrentTransaction (around : Fin 5 → Surroundings π) (tx : Tx π) :
    Except RetryError Nat × Tx π :=
  match validateRetryAvailableFailedJobsLimit options.limit with
  | .error e => (.error e, tx)
  | .ok () => attempts options (List.ofFn around) tx

/-- Nobody else writes, and no row is locked. -/
def undisturbed (now : Int) : Surroundings π := ⟨id, fun t => ⟨now, t, fun _ => false, fun _ => false⟩⟩

/-- The call in a transaction of its own that nobody disturbs, which commits if it succeeds. -/
def retryAvailableFailedJobs (now : Int) (t : Tables π) : Except RetryError Nat × Tables π :=
  match retryAvailableFailedJobsInCurrentTransaction options (fun _ => undisturbed now) ⟨t, [], false⟩ with
  | (.ok rowsAffected, tx) => (.ok rowsAffected, tx.tables)
  | (.error e, _) => (.error e, t)

/-- One call after the other. -/
def repeatedly (nows : List Int) (t : Tables π) : Tables π :=
  nows.foldl (fun t now => (retryAvailableFailedJobs options now t).2) t

end Operation

section Rows

variable {t t' : Tables π} {m : Moment π} {row other : JobRow π}

def Matches (optionalTaskName : Option TaskName) (row : JobRow π) : Prop :=
  row.status = .failed ∧ ∀ taskName ∈ optionalTaskName, row.taskName = taskName

def SameKey (row other : JobRow π) : Prop :=
  row.dedupeKey ≠ none ∧ other.taskName = row.taskName ∧ other.dedupeKey = row.dedupeKey

def KeyActive (t : Tables π) (row : JobRow π) : Prop :=
  ∃ active ∈ t.jobs, active.status.active ∧ SameKey row active

def Eligible (optionalTaskName : Option TaskName) (t : Tables π) (row : JobRow π) : Prop :=
  row ∈ t.jobs ∧ Matches optionalTaskName row ∧ ¬KeyActive t row

theorem not_active_of_failed (h : row.status = .failed) : row.status.active = false := by
  rw [h]
  rfl

theorem activeDuplicate_iff_keyActive (hquiet : Quiet m t)
    (hrow : row ∈ t.jobs) (hfailed : row.status = .failed) :
    activeDuplicate m row = true ↔ KeyActive t row := by
  rw [activeDuplicate_iff, hquiet.snapshot]
  constructor
  · rintro ⟨active, hmem, hmatch, -⟩
    simp only [activeDedupeMatch, Bool.and_eq_true, decide_eq_true_eq] at hmatch
    obtain ⟨⟨⟨htask, hsome⟩, hkey⟩, hactive⟩ := hmatch
    exact ⟨active, hmem, hactive, by rw [← hkey]; exact Option.isSome_iff_ne_none.1 hsome, htask, hkey⟩
  · rintro ⟨active, hmem, hactive, hne, htask, hkey⟩
    refine ⟨active, hmem, ?_, ?_⟩
    · simp only [activeDedupeMatch, Bool.and_eq_true, decide_eq_true_eq]
      exact ⟨⟨⟨htask, by rw [hkey]; exact Option.isSome_iff_ne_none.2 hne⟩, hkey⟩, hactive⟩
    · intro hid
      obtain rfl := inj_on_of_nodup_map (t.constraints .primaryKey) hmem hrow hid
      rw [not_active_of_failed hfailed] at hactive
      cases hactive

/-- The eligible rows in the order of the query. -/
def eligibleInOrder (m : Moment π) (t : Tables π) (optionalTaskName : Option TaskName) :
    List (JobRow π) :=
  (t.jobs.insertionSort fun a b => finishedOrder a ≤ finishedOrder b).filter fun row =>
    row.status = .failed && optionalTaskName.all (row.taskName = ·) && !activeDuplicate m row

variable {optionalTaskName : Option TaskName}

theorem mem_eligibleInOrder (hquiet : Quiet m t) :
    row ∈ eligibleInOrder m t optionalTaskName ↔ Eligible optionalTaskName t row := by
  have hall : optionalTaskName.all (fun taskName => decide (row.taskName = taskName)) = true ↔
      ∀ taskName ∈ optionalTaskName, row.taskName = taskName := by
    cases optionalTaskName <;> simp
  rw [eligibleInOrder, mem_filter, (perm_insertionSort _ _).mem_iff]
  simp only [Bool.and_eq_true, decide_eq_true_eq, Bool.not_eq_true', hall]
  constructor
  · rintro ⟨hrow, ⟨hfailed, htask⟩, hduplicate⟩
    refine ⟨hrow, ⟨hfailed, htask⟩, fun hactive => ?_⟩
    rw [(activeDuplicate_iff_keyActive hquiet hrow hfailed).2 hactive] at hduplicate
    cases hduplicate
  · rintro ⟨hrow, ⟨hfailed, htask⟩, hactive⟩
    exact ⟨hrow, ⟨hfailed, htask⟩, Bool.eq_false_of_not_eq_true fun h =>
      hactive ((activeDuplicate_iff_keyActive hquiet hrow hfailed).1 h)⟩

theorem pairwise_eligibleInOrder (m : Moment π) (t : Tables π) (optionalTaskName : Option TaskName) :
    (eligibleInOrder m t optionalTaskName).Pairwise fun a b => finishedOrder a < finishedOrder b := by
  have hle : (t.jobs.insertionSort fun a b => finishedOrder a ≤ finishedOrder b).Pairwise fun a b =>
      finishedOrder a ≤ finishedOrder b := pairwise_insertionSort _ _
  have hids : (t.jobs.insertionSort fun a b => finishedOrder a ≤
    finishedOrder b).Pairwise fun a b => a.id ≠ b.id := by
    have hnodup : ((t.jobs.insertionSort fun a b => finishedOrder a ≤ finishedOrder b).map
      JobRow.id).Nodup :=
      ((perm_insertionSort _ _).map JobRow.id).nodup_iff.2 (t.constraints .primaryKey)
    rwa [Nodup, pairwise_map] at hnodup
  refine Pairwise.filter _ ((hle.and hids).imp fun h => lt_of_le_of_ne h.1 fun heq => ?_)
  exact h.2 (congrArg (fun order => (ofLex order).2) heq)

theorem lockFirstJobs_quiet (hquiet : Quiet m t) (limit : Nat) : lockFirstJobs m t
    (fun row => row.status = .failed &&
      optionalTaskName.all (row.taskName = ·) && !activeDuplicate m row)
      finishedOrder limit = (eligibleInOrder m t optionalTaskName).take limit := by
  rw [lockFirstJobs, lockRows, hquiet.snapshot, eligibleInOrder]
  congr 1
  refine Eq.trans (filterMap_congr (g := some) fun row hrow => ?_) filterMap_some
  obtain ⟨hmem, hmatch⟩ := mem_filter.1 hrow
  rw [if_neg (by simp [hquiet.unlocked]), Tables.job?_of_mem ((perm_insertionSort _ _).mem_iff.1 hmem),
    Option.filter_some, if_pos hmatch]

/-- The rows of a batch: the first of the eligible ones, without those whose key is
there already. -/
def batchOf (lockable : List (JobRow π)) : List (JobRow π) :=
  lockable.filter fun row => row.dedupeKey.isNone || firstOfDedupeKey lockable row

theorem firstOfDedupeKey_iff {lockable : List (JobRow π)} : firstOfDedupeKey lockable row = true ↔
    ∀ other ∈ lockable, other.taskName = row.taskName → other.dedupeKey = row.dedupeKey →
      finishedOrder row ≤ finishedOrder other := by
  simp only [firstOfDedupeKey, all_eq_true]
  refine forall₂_congr fun other _ => ?_
  split
  · rename_i h
    exact ⟨fun hle _ _ => of_decide_eq_true hle, fun hle => decide_eq_true (hle h.1 h.2)⟩
  · rename_i h
    exact ⟨fun _ htask hkey => absurd ⟨htask, hkey⟩ h, fun _ => rfl⟩

/-- What one call does to the tables. A job is passed over only for an earlier one of its
key, or because enough eligible ones come before it. -/
structure Batch (options : RetryOptions) (now runAt : Int)
    (t t' : Tables π) (retried : List (JobRow π)) : Prop where
  jobs : t'.jobs = t.jobs.map fun row =>
    if row.id ∈ jobIds retried then retryFailedJob now runAt row else row
  others : t'.deadLetters = t.deadLetters ∧ t'.pauses = t.pauses
  eligible : ∀ row ∈ retried, Eligible options.optionalTaskName t row
  onePerKey : ∀ row ∈ retried, ∀ other ∈ retried, SameKey row other → other = row
  inOrder : retried.Pairwise fun a b => finishedOrder a < finishedOrder b
  first : ∀ row ∈ retried, ∀ before : List (JobRow π), before.Nodup →
    (∀ earlier ∈ before,
      Eligible options.optionalTaskName t earlier ∧ finishedOrder earlier < finishedOrder row) →
      before.length < options.limit
  passed : ∀ row, Eligible options.optionalTaskName t row → row ∉ retried →
    (∃ earlier ∈ retried, SameKey row earlier ∧ finishedOrder earlier < finishedOrder row) ∨
      ∃ before : List (JobRow π), before.Nodup ∧ before.length = options.limit ∧
        ∀ earlier ∈ before, Eligible options.optionalTaskName t earlier ∧
          finishedOrder earlier < finishedOrder row

section Ranking

variable {lockable : List (JobRow π)}

theorem mem_batchOf : row ∈ batchOf lockable ↔ row ∈ lockable ∧ (row.dedupeKey = none ∨
    ∀ other ∈ lockable, other.taskName = row.taskName → other.dedupeKey = row.dedupeKey →
      finishedOrder row ≤ finishedOrder other) := by
  rw [batchOf, mem_filter, Bool.or_eq_true, firstOfDedupeKey_iff, Option.isNone_iff_eq_none]

theorem batchOf_onePerKey (hids : (lockable.map JobRow.id).Nodup) (hrow : row ∈ batchOf lockable)
    (hother : other ∈ batchOf lockable) (hsame : SameKey row other) : other = row := by
  obtain ⟨hne, htask, hkey⟩ := hsame
  obtain ⟨hmem, hfirst⟩ := mem_batchOf.1 hrow
  obtain ⟨hmem', hfirst'⟩ := mem_batchOf.1 hother
  by_contra hdistinct
  have hid : row.id ≠ other.id := fun h => hdistinct (inj_on_of_nodup_map hids hmem' hmem h.symm)
  have hle := hfirst.resolve_left hne other hmem' htask hkey
  have hle' := hfirst'.resolve_left (hkey ▸ hne) row hmem htask.symm hkey.symm
  exact hid (congrArg (fun order => (ofLex order).2) (le_antisymm hle hle'))

/-- A row that is not in the batch has the first of its key before it. -/
theorem earlier_of_not_mem_batchOf
    (hsorted : lockable.Pairwise fun a b => finishedOrder a < finishedOrder b)
    (hrow : row ∈ lockable) (hnot : row ∉ batchOf lockable) :
    ∃ earlier ∈ batchOf lockable, SameKey row earlier ∧ finishedOrder earlier < finishedOrder row := by
  have hne : row.dedupeKey ≠ none := fun h => hnot (mem_batchOf.2 ⟨hrow, .inl h⟩)
  obtain ⟨first, rest, hgroup⟩ : ∃ first rest, (lockable.filter fun other =>
      other.taskName = row.taskName ∧ other.dedupeKey = row.dedupeKey) = first :: rest :=
    exists_cons_of_ne_nil (ne_nil_of_mem (mem_filter.2 ⟨hrow, by simp⟩))
  have hsub := hsorted.sublist (filter_sublist (p := fun other =>
    decide (other.taskName = row.taskName ∧ other.dedupeKey = row.dedupeKey)))
  rw [hgroup] at hsub
  have hfirst : first ∈ lockable ∧ first.taskName = row.taskName ∧ first.dedupeKey = row.dedupeKey := by
    have hmem : first ∈ first :: rest := mem_cons_self
    rw [← hgroup, mem_filter] at hmem
    exact ⟨hmem.1, of_decide_eq_true hmem.2⟩
  have hleast : ∀ other ∈ lockable, other.taskName = first.taskName →
    other.dedupeKey = first.dedupeKey →
      finishedOrder first ≤ finishedOrder other := by
    intro other hother htask hkey
    have hmem : other ∈ first :: rest := by
      rw [← hgroup, mem_filter]
      exact ⟨hother, decide_eq_true ⟨htask.trans hfirst.2.1, hkey.trans hfirst.2.2⟩⟩
    rcases mem_cons.1 hmem with rfl | hrest
    · exact le_rfl
    · exact (rel_of_pairwise_cons hsub hrest).le
  have hbatch : first ∈ batchOf lockable := mem_batchOf.2 ⟨hfirst.1, .inr hleast⟩
  refine ⟨first, hbatch, ⟨hne, hfirst.2⟩,
    lt_of_le_of_ne (hleast row hrow hfirst.2.1.symm hfirst.2.2.symm) fun heq => ?_⟩
  refine hnot (mem_batchOf.2 ⟨hrow, .inr ?_⟩)
  rw [← heq, ← hfirst.2.1, ← hfirst.2.2]
  exact hleast

theorem batchOf_ne_nil (hne : lockable ≠ [])
    (hsorted : lockable.Pairwise fun a b => finishedOrder a < finishedOrder b) :
    batchOf lockable ≠ [] := by
  obtain ⟨first, rest, rfl⟩ := exists_cons_of_ne_nil hne
  refine ne_nil_of_mem (mem_batchOf.2 ⟨mem_cons_self, .inr fun other hother _ _ => ?_⟩)
  rcases mem_cons.1 hother with rfl | hrest
  · exact le_rfl
  · exact (rel_of_pairwise_cons hsorted hrest).le

end Ranking

/-- A sorted list has before an entry of its front only what stands before it. -/
theorem length_lt_of_before {sorted before : List (JobRow π)} {limit : Nat}
    (hsorted : sorted.Pairwise fun a b => finishedOrder a < finishedOrder b)
    (hrow : row ∈ sorted.take limit)
    (hnodup : before.Nodup)
    (hbefore : ∀ earlier ∈ before, earlier ∈ sorted ∧ finishedOrder earlier < finishedOrder row) :
    before.length < limit := by
  obtain ⟨i, hi, rfl⟩ := mem_take_iff_getElem.1 hrow
  have hsub : before ⊆ sorted.take i := by
    intro earlier hearlier
    obtain ⟨hmem, hlt⟩ := hbefore earlier hearlier
    obtain ⟨j, hj, rfl⟩ := mem_iff_getElem.1 hmem
    refine mem_take_iff_getElem.2 ⟨j, ?_, rfl⟩
    rw [Nat.lt_min]
    refine ⟨?_, hj⟩
    by_contra hle
    rcases Nat.lt_or_eq_of_le (Nat.le_of_not_lt hle) with hgt | heq
    · exact absurd hlt (pairwise_iff_getElem.1 hsorted i j _ hj hgt).not_gt
    · subst heq
      exact lt_irrefl _ hlt
  have hle := (subperm_of_subset hnodup hsub).length_le
  rw [length_take] at hle
  omega

end Rows

section Statement

variable {t t' : Tables π} {m : Moment π}

/-- Every time that a job may be given fits the column. -/
theorem runAtOrNow_ok (now : Int) (runAtOrAfter : Option JobRunAtOrAfter) :
    ∃ runAt, runAtOrNow now (runAtOrAfter.map JobRunAtOrAfter.unixMicroseconds) = .ok runAt := by
  cases runAtOrAfter with
  | none => exact ⟨now, rfl⟩
  | some time =>
      obtain ⟨n, hnonneg, hmax⟩ := time
      rw [maxQueueRunAtOrAfterUnixMicroseconds] at hmax
      obtain ⟨k, rfl⟩ := Int.eq_ofNat_of_zero_le hnonneg
      have hround := roundToFloat8_le_two_mul k
      have hfloat : 0 ≤ float8OfInt8 k ∧ float8OfInt8 k ≤ 2 * k := by
        rw [float8OfInt8_natCast]
        exact ⟨Int.natCast_nonneg _, by exact_mod_cast hround⟩
      have hinterval : bigintTimesMicrosecond k = .ok (float8OfInt8 k) := if_pos ⟨by omega, by omega⟩
      have htime : timestamptz (0 + float8OfInt8 k) = .ok (0 + float8OfInt8 k) := by
        refine if_pos ⟨?_, ?_⟩
        · rw [minTimestamp, postgresEpoch]
          omega
        · rw [endTimestamp, postgresEpoch]
          omega
      refine ⟨0 + float8OfInt8 k, ?_⟩
      rw [Option.map_some, runAtOrNow, timestampPlusMicroseconds, hinterval, ok_bind, htime]
      rfl

theorem activeDedupeKey_eq_some {row : JobRow π} {taskName : TaskName} {key : DedupeKey} :
    row.activeDedupeKey = some (taskName, key) ↔
      row.status.active ∧ row.taskName = taskName ∧ row.dedupeKey = some key := by
  unfold JobRow.activeDedupeKey
  split
  · rename_i hactive
    rw [Option.map_eq_some_iff]
    constructor
    · rintro ⟨key', hkey, heq⟩
      obtain ⟨rfl, rfl⟩ := Prod.mk.inj heq
      exact ⟨hactive, rfl, hkey⟩
    · rintro ⟨-, rfl, hkey⟩
      exact ⟨key, hkey, rfl⟩
  · rename_i hactive
    exact ⟨nofun, fun h => absurd h.1 hactive⟩

/-- The retried rows take keys that no active row and none of the others has. -/
theorem retried_distinct {now runAt : Int}
    {retried : List (JobRow π)} {optionalTaskName : Option TaskName}
    (heligible : ∀ row ∈ retried, Eligible optionalTaskName t row)
    (honePerKey : ∀ row ∈ retried, ∀ other ∈ retried, SameKey row other → other = row) {a b : JobRow π}
    (ha : a ∈ t.jobs) (hb : b ∈ t.jobs) (hid : a.id ≠ b.id)
    (hkeys : ∀ key, a.activeDedupeKey = some key → ∀ key', b.activeDedupeKey = some key' → key ≠ key')
    {key key' : TaskName × DedupeKey}
    (hkey : (if a.id ∈ jobIds retried then retryFailedJob now runAt a else a).activeDedupeKey =
      some key)
    (hkey' : (if b.id ∈ jobIds retried then retryFailedJob now runAt b else b).activeDedupeKey =
      some key') : key ≠ key' := by
  rintro rfl
  obtain ⟨taskName, dedupeKey⟩ := key
  have hrows : ∀ row ∈ retried, row ∈ t.jobs := fun row hrow => (heligible row hrow).1
  have htaken : ∀ {row other : JobRow π}, row ∈ retried → other ∈ t.jobs → row.taskName = taskName →
      row.dedupeKey = some dedupeKey → other.activeDedupeKey ≠ some (taskName, dedupeKey) := by
    intro row other hrow hother htask hdedupe hactive
    obtain ⟨hstatus, htask', hdedupe'⟩ := activeDedupeKey_eq_some.1 hactive
    refine (heligible row hrow).2.2 ⟨other, hother, hstatus, by rw [hdedupe]; nofun, ?_, ?_⟩
    · rw [htask', htask]
    · rw [hdedupe', hdedupe]
  split at hkey
  · rename_i hretried
    have hmem := row_of_target hrows ha hretried
    obtain ⟨-, htask, hdedupe⟩ := activeDedupeKey_eq_some.1 hkey
    split at hkey'
    · rename_i hretried'
      have hmem' := row_of_target hrows hb hretried'
      obtain ⟨-, htask', hdedupe'⟩ := activeDedupeKey_eq_some.1 hkey'
      have hsame : SameKey a b := ⟨by rw [show a.dedupeKey = some dedupeKey from hdedupe]; nofun,
        Eq.trans htask' (Eq.symm htask), Eq.trans hdedupe' (Eq.symm hdedupe)⟩
      exact hid (congrArg JobRow.id (honePerKey a hmem b hmem' hsame)).symm
    · exact htaken hmem hb htask hdedupe hkey'
  · split at hkey'
    · rename_i hretried'
      obtain ⟨-, htask', hdedupe'⟩ := activeDedupeKey_eq_some.1 hkey'
      exact htaken (row_of_target hrows hb hretried') ha htask' hdedupe' hkey
    · exact hkeys _ hkey _ hkey' rfl

theorem retried_update_ok {now runAt : Int}
    {retried : List (JobRow π)} {optionalTaskName : Option TaskName}
    (heligible : ∀ row ∈ retried, Eligible optionalTaskName t row)
    (honePerKey : ∀ row ∈ retried, ∀ other ∈ retried, SameKey row other → other = row) :
    ∃ t', updateJobs t (jobIds retried) (fun row => .ok (retryFailedJob now runAt row)) = .ok t' := by
  cases h : updateJobs t (jobIds retried) (fun row => .ok (retryFailedJob now runAt row)) with
  | ok t' => exact ⟨t', rfl⟩
  | error e =>
      exfalso
      have hrewrites : ∀ row ∈ t.jobs, row.id ∈ jobIds retried →
          Rewrites (fun row => .ok (retryFailedJob now runAt row)) row := by
        intro row hrow _
        refine ⟨fun c => nofun, fun row' hset => ?_⟩
        obtain rfl := Except.ok.inj hset
        exact keeps_retryFailedJob hrow
      obtain ⟨c, rfl⟩ : ∃ c, e = .violation c := by
        rcases bind_eq_error.1 h with hmap | ⟨jobs, -, hstore⟩
        · obtain ⟨row, -, hfail⟩ := mapM_eq_error hmap
          split at hfail <;> cases hfail
        · obtain ⟨c, hc, -⟩ := Tables.store_eq_error hstore
          exact ⟨c, hc⟩
      obtain ⟨rfl, jobs, hjobs, hbroken⟩ := updateJobs_violation hrewrites h
      have hids : t.jobs.Pairwise fun a b => a.id ≠ b.id := pairwise_map.1 (t.constraints .primaryKey)
      have hkeys := pairwise_filterMap.1 (t.constraints .dedupeActive)
      refine hbroken (pairwise_filterMap.2
        (pairwise_of_forall₂ hjobs (Pairwise.and_mem.1 (hids.and hkeys)) ?_))
      rintro a b a' b' ⟨ha, hb, hid, hdistinct⟩ haRow hbRow key hkeyA key' hkeyB
      have hafter : ∀ {row row' : JobRow π}, (if row.id ∈ jobIds retried then
          (.ok (retryFailedJob now runAt row) : Except StatementError (JobRow π)) = .ok row'
            else row' = row) →
          (if row.id ∈ jobIds retried then retryFailedJob now runAt row else row) = row' := by
        intro row row' hset
        split at hset
        · rw [if_pos ‹_›, Except.ok.inj hset]
        · rw [if_neg ‹_›, hset]
      rw [← hafter haRow] at hkeyA
      rw [← hafter hbRow] at hkeyB
      exact retried_distinct heligible honePerKey ha hb hid hdistinct hkeyA hkeyB

/-- What a statement that nobody disturbs takes. -/
def taken (options : RetryOptions) (m : Moment π) (t : Tables π) : List (JobRow π) :=
  batchOf ((eligibleInOrder m t options.optionalTaskName).take options.limit)

variable {options : RetryOptions}

theorem taken_ids (m : Moment π) (t : Tables π) (limit : Nat) (optionalTaskName : Option TaskName) :
    (((eligibleInOrder m t optionalTaskName).take limit).map JobRow.id).Nodup := by
  refine Nodup.sublist ((take_sublist _ _).map JobRow.id) ?_
  rw [eligibleInOrder]
  refine Nodup.sublist (filter_sublist.map JobRow.id) ?_
  exact ((perm_insertionSort _ _).map JobRow.id).nodup_iff.2 (t.constraints .primaryKey)

theorem taken_eligible (hquiet : Quiet m t) {row : JobRow π} (hrow : row ∈ taken options m t) :
    Eligible options.optionalTaskName t row :=
  (mem_eligibleInOrder hquiet).1 (mem_of_mem_take (mem_batchOf.1 hrow).1)

theorem batch_of_taken {now runAt : Int} (hquiet : Quiet m t)
    (hupdate : updateJobs t (jobIds (taken options m t))
      (fun row => .ok (retryFailedJob now runAt row)) = .ok t') :
    Batch options now runAt t t' (taken options m t) := by
  have hsorted := pairwise_eligibleInOrder m t options.optionalTaskName
  have htaken := hsorted.sublist (take_sublist options.limit _)
  obtain ⟨hjobs, hothers⟩ := updateJobs_ok_eq_ok hupdate
  refine ⟨hjobs, hothers, fun row => taken_eligible hquiet,
    fun row hrow other hother hsame => ?_, ?_, ?_, ?_⟩
  · exact batchOf_onePerKey (taken_ids m t _ _) hrow hother hsame
  · exact htaken.sublist filter_sublist
  · intro row hrow before hnodup hbefore
    refine length_lt_of_before hsorted (mem_batchOf.1 hrow).1 hnodup fun earlier hearlier => ?_
    exact (hbefore earlier hearlier).imp_left (mem_eligibleInOrder hquiet).2
  · intro row hrow hnot
    have hmem := (mem_eligibleInOrder hquiet).2 hrow
    by_cases hfront : row ∈ (eligibleInOrder m t options.optionalTaskName).take options.limit
    · exact .inl (earlier_of_not_mem_batchOf htaken hfront hnot)
    · refine .inr ⟨_, (taken_ids m t options.limit options.optionalTaskName).of_map _,
        ?_, fun earlier hearlier => ?_⟩
      · rw [length_take, Nat.min_eq_left]
        by_contra hshort
        exact hfront (by rwa [take_of_length_le (by omega)])
      · have hdrop : row ∈ (eligibleInOrder m t options.optionalTaskName).drop options.limit := by
          rw [← take_append_drop options.limit (eligibleInOrder m t options.optionalTaskName),
            mem_append] at hmem
          exact hmem.resolve_left hfront
        refine ⟨(mem_eligibleInOrder hquiet).1 (mem_of_mem_take hearlier), ?_⟩
        rw [← take_append_drop options.limit (eligibleInOrder m t options.optionalTaskName),
          pairwise_append] at hsorted
        exact hsorted.2.2 earlier hearlier row hdrop

theorem statement_ok (hquiet : Quiet m t) :
    ∃ runAt t', QueueOperations.retryAvailableFailedJobs m options.optionalTaskName
      options.limit (options.runAtOrAfter.map JobRunAtOrAfter.unixMicroseconds) t =
        .ok ((taken options m t).length, t') ∧
    runAtOrNow m.now (options.runAtOrAfter.map JobRunAtOrAfter.unixMicroseconds) = .ok runAt ∧
    Batch options m.now runAt t t' (taken options m t) := by
  obtain ⟨runAt, hrunAt⟩ := runAtOrNow_ok m.now options.runAtOrAfter
  have honePerKey : ∀ row ∈ taken options m t, ∀ other ∈ taken options m t, SameKey row other →
    other = row :=
    fun row hrow other hother hsame => batchOf_onePerKey (taken_ids m t _ _) hrow hother hsame
  obtain ⟨t', hupdate⟩ :=
    @retried_update_ok π t m.now runAt (taken options m t) options.optionalTaskName
    (fun row => taken_eligible hquiet) honePerKey
  refine ⟨runAt, t', ?_, hrunAt, batch_of_taken hquiet hupdate⟩
  rw [QueueOperations.retryAvailableFailedJobs, lockFirstJobs_quiet hquiet, hrunAt]
  simp only [ok_bind, pure_eq_ok]
  change (updateJobs t (jobIds (taken options m t)) _ >>= _) = _
  rw [hupdate, ok_bind, jobIds, length_map]
  rfl

end Statement

section Calls

variable {t t' : Tables π} {m : Moment π} {options : RetryOptions} {tx : Tx π}

theorem attempt_ok {rowsAffected : Nat}
    (h : QueueOperations.retryAvailableFailedJobs m options.optionalTaskName options.limit
    (options.runAtOrAfter.map JobRunAtOrAfter.unixMicroseconds) tx.tables = .ok (rowsAffected, t')) :
    attempt options m tx = (.ok rowsAffected, { tx with tables := t' }) := by
  rw [attempt, Tx.execute]
  simp only [Tx.savepoint]
  rw [h]
  simp [Tx.release]

theorem attempt_error {e : StatementError} (hlive : tx.aborted = false)
    (h : (attempt options m tx).1 = .error e) :
    attempt options m tx = (.error e, tx) := by
  obtain ⟨tables, savepoints, aborted⟩ := tx
  dsimp only at hlive
  subst hlive
  rw [attempt, Tx.execute] at h ⊢
  simp only [Tx.savepoint] at h ⊢
  cases hstatement : QueueOperations.retryAvailableFailedJobs m options.optionalTaskName options.limit
      (options.runAtOrAfter.map JobRunAtOrAfter.unixMicroseconds) tables with
  | ok reply =>
      rw [hstatement] at h
      cases h
  | error e' =>
      rw [hstatement] at h
      obtain rfl := Except.error.inj h
      simp [Tx.rollbackTo, Tx.release]

/-- The tables with what others have committed before the first attempts. -/
def committedByOthers (around : List (Surroundings π)) (t : Tables π) : Tables π :=
  around.foldl (fun t surroundings => surroundings.others t) t

theorem attempts_error {around : List (Surroundings π)}
    {e : RetryError} {tx' : Tx π} (hlive : tx.aborted = false)
    (h : attempts options around tx = (.error e, tx')) :
    ∃ met, met <+: around ∧ tx' = { tx with tables := committedByOthers met tx.tables } := by
  induction around generalizing tx with
  | nil =>
      obtain ⟨-, rfl⟩ := Prod.mk.inj h
      exact ⟨[], prefix_refl [], rfl⟩
  | cons surroundings rest ih =>
      have hmet : ({ tx with tables := surroundings.others tx.tables } : Tx π).aborted = false := hlive
      have hone : [surroundings] <+: surroundings :: rest := ⟨rest, rfl⟩
      rw [attempts] at h
      dsimp only at h
      split at h
      · cases h
      · rename_i tx'' hattempt
        obtain ⟨-, rfl⟩ := Prod.mk.inj (hattempt.symm.trans (attempt_error hmet (by rw [hattempt])))
        split at h
        · obtain ⟨-, rfl⟩ := Prod.mk.inj h
          exact ⟨[surroundings], hone, rfl⟩
        · obtain ⟨met, hmet', rfl⟩ := ih hmet h
          exact ⟨surroundings :: met, cons_prefix_cons.2 ⟨rfl, hmet'⟩, rfl⟩
      · rename_i e' tx'' _ hattempt
        obtain ⟨-, rfl⟩ := Prod.mk.inj (hattempt.symm.trans (attempt_error hmet (by rw [hattempt])))
        obtain ⟨-, rfl⟩ := Prod.mk.inj h
        exact ⟨[surroundings], hone, rfl⟩

theorem quiet_undisturbed (now : Int) (t : Tables π) : Quiet ((undisturbed now).moment t) t :=
  ⟨rfl, fun _ => rfl⟩

theorem call_ok (haccepted : validateRetryAvailableFailedJobsLimit options.limit = .ok ())
    (now : Int) (t : Tables π) :
    ∃ runAt t', retryAvailableFailedJobs options now t =
        (.ok (taken options ((undisturbed now).moment t) t).length, t') ∧
      runAtOrNow now (options.runAtOrAfter.map JobRunAtOrAfter.unixMicroseconds) = .ok runAt ∧
      Batch options now runAt t t' (taken options ((undisturbed now).moment t) t) := by
  obtain ⟨runAt, t', hstatement, hrunAt, hbatch⟩ :=
    @statement_ok π t _ options (quiet_undisturbed now t)
  refine ⟨runAt, t', ?_, hrunAt, hbatch⟩
  have hattempt := @attempt_ok π t' ((undisturbed now).moment t) options ⟨t, [], false⟩ _ hstatement
  rw [retryAvailableFailedJobs, retryAvailableFailedJobsInCurrentTransaction,
    haccepted, List.ofFn_succ, attempts]
  dsimp only [undisturbed, id] at hattempt ⊢
  rw [hattempt]

theorem countP_lt_countP {α : Type} {p q : α → Bool}
    {l : List α} (hle : ∀ x ∈ l, q x → p x) {x : α} (hx : x ∈ l)
    (hp : p x = true) (hq : q x = false) : l.countP q < l.countP p := by
  induction l with
  | nil => cases hx
  | cons y l ih =>
      have hrest : l.countP q ≤ l.countP p := countP_mono_left fun z hz => hle z (mem_cons_of_mem y hz)
      rw [countP_cons, countP_cons]
      rcases mem_cons.1 hx with rfl | hx
      · rw [if_pos hp, if_neg (by rw [hq]; exact Bool.false_ne_true)]
        omega
      · have hlt := ih (fun z hz => hle z (mem_cons_of_mem y hz)) hx
        by_cases hy : q y = true
        · rw [if_pos hy, if_pos (hle y mem_cons_self hy)]
          omega
        · rw [if_neg hy]
          omega

def failedCount (t : Tables π) : Nat := t.jobs.countP fun row => row.status = .failed

theorem failedCount_lt {now runAt : Int} {retried : List (JobRow π)}
    (h : Batch options now runAt t t' retried)
    (hne : retried ≠ []) : failedCount t' < failedCount t := by
  obtain ⟨row, hrow⟩ := exists_mem_of_ne_nil _ hne
  obtain ⟨hmem, hmatches, -⟩ := h.eligible row hrow
  rw [failedCount, failedCount, h.jobs, countP_map]
  refine countP_lt_countP (fun other _ hother => ?_) hmem (decide_eq_true hmatches.1) ?_
  · dsimp only [Function.comp] at hother
    split at hother
    · cases hother
    · exact hother
  · have hretried : row.id ∈ jobIds retried := mem_map_of_mem hrow
    refine decide_eq_false ?_
    dsimp only
    rw [if_pos hretried]
    exact nofun

theorem taken_ne_nil (haccepted : validateRetryAvailableFailedJobsLimit options.limit = .ok ())
    (hquiet : Quiet m t)
    {row : JobRow π} (hrow : Eligible options.optionalTaskName t row) : taken options m t ≠ [] := by
  have hlimit : options.limit ≠ 0 := by
    intro hzero
    rw [validateRetryAvailableFailedJobsLimit, if_pos hzero] at haccepted
    cases haccepted
  refine batchOf_ne_nil ?_ ((pairwise_eligibleInOrder m t _).sublist (take_sublist _ _))
  have hlength := length_pos_of_mem ((mem_eligibleInOrder hquiet).2 hrow)
  rw [← length_pos_iff, length_take]
  omega

/-- Each call retries a job as long as there is one to retry, so the calls come to an end. -/
theorem repeatedly_exhausts
    (haccepted : validateRetryAvailableFailedJobsLimit options.limit = .ok ()) (nows : List Int) :
    ∀ t : Tables π, failedCount t ≤ nows.length ∨ (∀ row, ¬Eligible options.optionalTaskName t row) →
      ∀ row, ¬Eligible options.optionalTaskName (repeatedly options nows t) row := by
  induction nows with
  | nil =>
      intro t h row hrow
      rcases h with hcount | hnone
      · have hpos : 0 < failedCount t := countP_pos_iff.2 ⟨row, hrow.1, decide_eq_true hrow.2.1.1⟩
        rw [length_nil] at hcount
        omega
      · exact hnone row hrow
  | cons now nows ih =>
      intro t h
      obtain ⟨runAt, t', hcall, -, hbatch⟩ := call_ok haccepted now t
      rw [repeatedly, foldl_cons, hcall]
      refine ih t' ?_
      by_cases hsome : ∃ row, Eligible options.optionalTaskName t row
      · obtain ⟨row, hrow⟩ := hsome
        have hlt := failedCount_lt hbatch (taken_ne_nil haccepted (quiet_undisturbed now t) hrow)
        refine .inl ?_
        rcases h with hcount | hnone
        · rw [length_cons] at hcount
          omega
        · exact absurd hrow (hnone row)
      · have hnone : taken options ((undisturbed now).moment t) t = [] := by
          by_contra hne
          obtain ⟨row, hrow⟩ := exists_mem_of_ne_nil _ hne
          exact hsome ⟨row, hbatch.eligible row hrow⟩
        have hjobs : t'.jobs = t.jobs := by
          rw [hbatch.jobs, hnone]
          simp [jobIds]
        refine .inr fun row hrow => hsome ⟨row, ?_⟩
        rw [Eligible, KeyActive, hjobs] at hrow
        exact hrow

/-- What the bulk retry does for one filter, limit and time. -/
structure RespectsDedupe (options : RetryOptions) (π : Type) : Prop where
  batch : ∀ (now : Int) (t : Tables π), ∃ runAt t' retried,
    retryAvailableFailedJobs options now t = (.ok (length retried), t') ∧
      runAtOrNow now (options.runAtOrAfter.map JobRunAtOrAfter.unixMicroseconds) = .ok runAt ∧
      Batch options now runAt t t' retried
  fixpoint : ∀ (nows : List Int) (t : Tables π), failedCount t ≤ nows.length →
    ∀ row ∈ (repeatedly options nows t).jobs, Matches options.optionalTaskName row →
      KeyActive (repeatedly options nows t) row
  restores : ∀ (m : Moment π) (tx : Tx π) e, tx.aborted = false → (attempt options m tx).1 = .error e →
    (attempt options m tx).2 = tx
  conflict : ∀ (around : Fin 5 → Surroundings π) (tx tx' : Tx π) e, tx.aborted = false →
    retryAvailableFailedJobsInCurrentTransaction options around tx = (.error e, tx') →
      ∃ met, met <+: ofFn around ∧ tx' = { tx with tables := committedByOthers met tx.tables }

theorem bulk_retry_respects_dedupe (π : Type) (options : RetryOptions)
    (haccepted : validateRetryAvailableFailedJobsLimit options.limit = .ok ()) :
    RespectsDedupe options π where
  batch now t := by
    obtain ⟨runAt, t', hcall, hrunAt, hbatch⟩ := call_ok haccepted now t
    exact ⟨runAt, t', _, hcall, hrunAt, hbatch⟩
  fixpoint nows t hlength row hrow hmatches := by
    by_contra hactive
    exact repeatedly_exhausts haccepted nows t (.inl hlength) row ⟨hrow, hmatches, hactive⟩
  restores m tx e hlive h := by rw [attempt_error hlive h]
  conflict around tx tx' e hlive h := by
    rw [retryAvailableFailedJobsInCurrentTransaction, haccepted] at h
    exact attempts_error hlive h

theorem bulk_retry_of_one : RespectsDedupe ⟨none, 1, none⟩ Unit :=
  bulk_retry_respects_dedupe Unit ⟨none, 1, none⟩ rfl

end Calls

end Paranoid.BulkRetry
