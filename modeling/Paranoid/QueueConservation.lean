import Mathlib.Data.List.Range
import Paranoid.QueueEnqueues
import Paranoid.Transitions

namespace Paranoid.QueueConservation

open List QueueModel QueueStatements QueueOperations QueueEffects QueueChanges QueueSoundness QueueEnqueues
  Transitions

variable {π : Type}

/-- Every job of the two tables, wherever it is. -/
def contents (t : Tables π) : List (JobContent π) :=
  t.jobs.map JobRow.content ++ t.deadLetters.map DeadLetterRow.content

/-- The statement with numbered payloads: the jobs that it enqueues are numbered
from `n` on. Nothing else carries a payload. -/
def numbered (n : Nat) : Statement π → Statement (Nat × π)
  | .singleEnqueue taskName options id payload => .singleEnqueue taskName options id (n, payload)
  | .batchEnqueue taskName options jobs =>
      .batchEnqueue taskName options ((jobs.zipIdx n).map fun job => (job.1.1, job.2, job.1.2))
  | .dedupeEnqueue taskName options dedupeKey id payload =>
      .dedupeEnqueue taskName options dedupeKey id (n, payload)
  | .claimAvailableJobs taskNames claimLimit workerId =>
      .claimAvailableJobs taskNames claimLimit workerId
  | .markJobStarted id workerId => .markJobStarted id workerId
  | .markJobCompleted id workerId => .markJobCompleted id workerId
  | .touchExecutionHeartbeat id workerId => .touchExecutionHeartbeat id workerId
  | .markJobFailed id workerId errorMessage increment =>
      .markJobFailed id workerId errorMessage increment
  | .scheduleOwnedRunningJobRetry id workerId newRetryCount retryAfter errorMessage =>
      .scheduleOwnedRunningJobRetry id workerId newRetryCount retryAfter errorMessage
  | .moveOwnedRunningJobToDeadLetter id workerId deadLetterId errorMessage increment reason =>
      .moveOwnedRunningJobToDeadLetter id workerId deadLetterId errorMessage increment reason
  | .returnOwnedUnstartedRunningJobToPending id workerId =>
      .returnOwnedUnstartedRunningJobToPending id workerId
  | .returnOwnedStartedRunningJobToPending id workerId =>
      .returnOwnedStartedRunningJobToPending id workerId
  | .returnAvailableOwnedUnstartedRunningJobsToPending workerId =>
      .returnAvailableOwnedUnstartedRunningJobsToPending workerId
  | .returnAvailableOwnedStartedRunningJobsToPending workerId =>
      .returnAvailableOwnedStartedRunningJobsToPending workerId
  | .cancelPendingJob id => .cancelPendingJob id
  | .forceRequeueRunningJobById id => .forceRequeueRunningJobById id
  | .retryFailedJobById id runAt => .retryFailedJobById id runAt
  | .retryAvailableFailedJobs optionalTaskName limit runAt =>
      .retryAvailableFailedJobs optionalTaskName limit runAt
  | .moveFailedJobToDeadLetter id deadLetterId reason =>
      .moveFailedJobToDeadLetter id deadLetterId reason
  | .moveFailedJobsToDeadLetterBatch idMap reason => .moveFailedJobsToDeadLetterBatch idMap reason
  | .requeueDeadLetterJob deadLetterId newJobId runAt =>
      .requeueDeadLetterJob deadLetterId newJobId runAt
  | .deleteDeadLetterJob deadLetterId => .deleteDeadLetterJob deadLetterId
  | .cleanupJobsOlderThanOnce status olderThan batchSize =>
      .cleanupJobsOlderThanOnce status olderThan batchSize
  | .cleanupAvailableDeadLetterJobsOlderThanOnce olderThan batchSize =>
      .cleanupAvailableDeadLetterJobsOlderThanOnce olderThan batchSize
  | .reclaimNeverStartedRunningJobs threshold batchSize =>
      .reclaimNeverStartedRunningJobs threshold batchSize
  | .reclaimExpiredRunningJobsToFailed threshold batchSize =>
      .reclaimExpiredRunningJobsToFailed threshold batchSize
  | .reclaimExpiredRunningJobsToPendingForRetry threshold batchSize =>
      .reclaimExpiredRunningJobsToPendingForRetry threshold batchSize
  | .upsertPauseKey pauseKey => .upsertPauseKey pauseKey
  | .deletePauseKey pauseKey => .deletePauseKey pauseKey

/-- The jobs that a statement asks to enqueue. -/
def asked : Statement π → List (JobContent π)
  | .singleEnqueue taskName options _ payload =>
      [⟨taskName, payload, options.maxRetries, options.timeoutNanos, none⟩]
  | .batchEnqueue taskName options jobs =>
      jobs.map fun job => ⟨taskName, job.2, options.maxRetries, options.timeoutNanos, none⟩
  | .dedupeEnqueue taskName options dedupeKey _ payload =>
      [⟨taskName, payload, options.maxRetries, options.timeoutNanos, some dedupeKey⟩]
  | _ => []

/-- The outcome that an enqueue replies. The replies of other statements are left out. -/
def enqueueOutcome (m : Moment π) (t : Tables π) : Statement π → Option EnqueueOutcome
  | .singleEnqueue taskName options id payload =>
      (singleEnqueue m taskName options id payload t).toOption.map Prod.fst
  | .batchEnqueue taskName options jobs => (batchEnqueue m taskName options jobs t).toOption.map Prod.fst
  | .dedupeEnqueue taskName options dedupeKey id payload =>
      (dedupeEnqueue m taskName options dedupeKey id payload t).toOption.map (·.1.1)
  | _ => none

/-- A cancel, delete or cleanup statement. -/
def deletes (s : Statement π) : Bool :=
  match s.kind with
  | .deletes => true
  | _ => false

/-- An operator's retry of failed jobs. -/
def retriesFailed (s : Statement π) : Bool :=
  match s.kind with
  | .activates => true
  | _ => false

/-- A statement and what it meets: any snapshot and any locks. -/
structure Input (π : Type) where
  moment : Moment (Nat × π)
  statement : Statement π

/-- The tables, with a record of the jobs enqueued so far, by number, and of those that a
deleting statement has taken out. A job is enqueued when the enqueue that was asked for it
replies that it is inserted. -/
structure System (π : Type) where
  tables : Tables (Nat × π)
  enqueued : List (JobContent (Nat × π))
  removed : List (JobContent (Nat × π))

def System.empty : System π := ⟨Tables.empty, [], []⟩

def number (content : JobContent (Nat × π)) : Nat := content.payload.1

def step (i : Input π) (s : System π) : System π × Except StatementError (Option EnqueueOutcome) :=
  let statement := numbered s.enqueued.length i.statement
  let reply := enqueueOutcome i.moment s.tables statement
  match run i.moment statement s.tables with
  | .error e => (s, .error e)
  | .ok tables =>
      ({ tables
         enqueued := s.enqueued ++ if reply = some .inserted then asked statement else []
         removed := if deletes i.statement then
            s.removed ++ (contents s.tables).filter (number · ∉ (contents tables).map number)
          else s.removed }, .ok reply)

/-- The jobs in the tables and those taken out are together the jobs enqueued. -/
structure Accounted (s : System π) : Prop where
  balance : s.enqueued ~ contents s.tables ++ s.removed
  numbers : s.enqueued.map number = range s.enqueued.length

section Kinds

variable {t t' : Tables (Nat × π)}

theorem contents_rewritten (h : Forall₂ Keeps t.jobs t'.jobs) (hdead : t'.deadLetters = t.deadLetters) :
    contents t' = contents t := by
  rw [contents, contents, hdead, forall₂_map_eq h fun _ _ hk => hk.content]

theorem contents_moved (h : Change t t' .moves) : contents t' ~ contents t := by
  obtain ⟨moved, deadLetters, hreplaces, hjobs, hdead⟩ := h
  have hsame : deadLetters.map DeadLetterRow.content = moved.map JobRow.content :=
    forall₂_map_eq hreplaces fun _ _ hr => hr.content
  rw [contents, contents, hdead, map_append, hsame]
  refine .trans ?_ ((hjobs.map JobRow.content).symm.append_right _)
  rw [map_append, append_assoc]
  exact perm_append_comm.append_left _

theorem contents_requeued (h : Change t t' .requeues) : contents t' ~ contents t := by
  obtain ⟨sources, rows, hcontent, hdead, hjobs, -⟩ := h
  have hsame : rows.map JobRow.content = sources.map DeadLetterRow.content :=
    forall₂_map_eq hcontent fun _ _ hr => hr
  rw [contents, contents, hjobs, map_append, hsame, append_assoc]
  refine .append_left _ (.trans ?_ (hdead.map DeadLetterRow.content).symm)
  rw [map_append]
  exact perm_append_comm

theorem asked_numbered (n : Nat) (s : Statement π) :
    (asked (numbered n s)).map number = range' n (asked (numbered n s)).length := by
  cases s with
  | batchEnqueue =>
      simp only [numbered, asked, map_map, length_map, length_zipIdx]
      exact zipIdx_map_snd n _
  | _ => rfl

theorem outcome_of_not_enqueue {m : Moment π} {t : Tables π} {s : Statement π}
    (h : ∀ payloads, s.kind ≠ .enqueues payloads) : enqueueOutcome m t s = none := by
  cases s with
  | singleEnqueue | batchEnqueue | dedupeEnqueue => exact absurd rfl (h _)
  | _ => rfl

theorem batchEnqueue_adds {m : Moment π} {t t' : Tables π} {taskName : TaskName}
    {options : PreparedOptions} {jobs : List (JobId × π)} {outcome : EnqueueOutcome}
    (h : batchEnqueue m taskName options jobs t = .ok (outcome, t')) :
    ∃ rows, Adds t t' rows ∧ rows.map JobRow.content =
      if outcome = .inserted then asked (.batchEnqueue taskName options jobs) else [] := by
  by_cases hjobs : jobs = []
  · rw [batchEnqueue, if_pos hjobs] at h
    obtain ⟨rfl, rfl⟩ := Prod.mk.inj (Except.ok.inj h)
    exact ⟨[], adds_nil t, rfl⟩
  · rcases batchEnqueue_cases hjobs h with ⟨rfl, -, rfl⟩ | ⟨rfl, -, rfl⟩ | ⟨rfl, runAt, -, hadds⟩
    · exact ⟨[], adds_nil _, rfl⟩
    · exact ⟨[], adds_nil _, rfl⟩
    · exact ⟨_, hadds, map_map⟩

theorem dedupeEnqueue_adds {m : Moment π} {t t' : Tables π} {taskName : TaskName}
    {options : PreparedOptions} {dedupeKey : DedupeKey} {id : JobId} {payload : π}
    {reply : EnqueueOutcome × Option JobId}
    (h : dedupeEnqueue m taskName options dedupeKey id payload t = .ok (reply, t')) :
    ∃ rows, Adds t t' rows ∧ rows.map JobRow.content =
      if reply.1 = .inserted then asked (.dedupeEnqueue taskName options dedupeKey id payload) else [] := by
  obtain ⟨outcome, existingId⟩ := reply
  rcases dedupeEnqueue_cases h with ⟨rfl, -, rfl⟩ | ⟨rfl, -, rfl⟩ | ⟨rfl, rfl, -⟩ | ⟨rfl, runAt, -, hadds⟩
  · exact ⟨[], adds_nil _, rfl⟩
  · exact ⟨[], adds_nil _, rfl⟩
  · exact ⟨[], adds_nil _, rfl⟩
  · exact ⟨_, hadds, rfl⟩

theorem eq_ok_of_map_snd {α β ε : Type} {x : Except ε (α × β)} {b : β} (h : x.map Prod.snd = .ok b) :
    ∃ a, x = .ok (a, b) := by
  cases x with
  | error e => cases h
  | ok r => exact ⟨r.1, by rw [← Except.ok.inj h]⟩

/-- An enqueue adds what it was asked for where it replies that this is inserted, and
else nothing. -/
theorem enqueue_adds {m : Moment π} {t t' : Tables π} {s : Statement π} {payloads : List π}
    (hkind : s.kind = .enqueues payloads) (h : run m s t = .ok t') :
    ∃ rows, Adds t t' rows ∧ rows.map JobRow.content =
      if enqueueOutcome m t s = some .inserted then asked s else [] := by
  cases s with
  | singleEnqueue taskName options id payload =>
      obtain ⟨outcome, hok⟩ := eq_ok_of_map_snd h
      have hbatch : batchEnqueue m taskName options [(id, payload)] t = .ok (outcome, t') := hok
      obtain ⟨rows, hadds, hcontent⟩ := batchEnqueue_adds hbatch
      refine ⟨rows, hadds, ?_⟩
      simp only [enqueueOutcome, hok, Except.toOption, Option.map_some, Option.some.injEq]
      exact hcontent
  | batchEnqueue taskName options jobs =>
      obtain ⟨outcome, hok⟩ := eq_ok_of_map_snd h
      obtain ⟨rows, hadds, hcontent⟩ := batchEnqueue_adds hok
      refine ⟨rows, hadds, ?_⟩
      simp only [enqueueOutcome, hok, Except.toOption, Option.map_some, Option.some.injEq]
      exact hcontent
  | dedupeEnqueue taskName options dedupeKey id payload =>
      obtain ⟨reply, hok⟩ := eq_ok_of_map_snd h
      obtain ⟨rows, hadds, hcontent⟩ := dedupeEnqueue_adds hok
      refine ⟨rows, hadds, ?_⟩
      simp only [enqueueOutcome, hok, Except.toOption, Option.map_some, Option.some.injEq]
      exact hcontent
  | _ => cases hkind

theorem deletes_numbered (n : Nat) (s : Statement π) : deletes (numbered n s) = deletes s := by
  cases s <;> rfl

theorem retriesFailed_numbered (n : Nat) (s : Statement π) :
    retriesFailed (numbered n s) = retriesFailed s := by
  cases s <;> rfl

end Kinds

section Step

variable {s : System π} {t' : Tables (Nat × π)}

theorem number_lt (h : Accounted s) {content : JobContent (Nat × π)}
    (hmem : content ∈ contents s.tables) : number content < s.enqueued.length := by
  have henqueued : content ∈ s.enqueued := h.balance.mem_iff.2 (mem_append_left _ hmem)
  have := mem_map_of_mem (f := number) henqueued
  rwa [h.numbers, mem_range] at this

theorem numbers_nodup (h : Accounted s) :
    ((contents s.tables).map number ++ s.removed.map number).Nodup := by
  rw [← map_append, ← (h.balance.map number).nodup_iff, h.numbers]
  exact nodup_range

/-- A statement that neither enqueues nor deletes keeps the accounts as they are. -/
theorem accounted_same (h : Accounted s) (hperm : contents t' ~ contents s.tables) :
    Accounted (⟨t', s.enqueued, s.removed⟩ : System π) :=
  ⟨h.balance.trans (hperm.symm.append_right _), h.numbers⟩

theorem accounted_deletes (h : Accounted s) (hchange : Change s.tables t' .deletes) :
    Accounted (⟨t', s.enqueued,
      s.removed ++ (contents s.tables).filter (number · ∉ (contents t').map number)⟩ : System π) := by
  have hsub : contents t' <+ contents s.tables := (hchange.1.map _).append (hchange.2.map _)
  refine ⟨h.balance.trans ?_, h.numbers⟩
  have hnodup := (nodup_append.1 (numbers_nodup h)).1
  have hsplit := filter_append_perm_of_keys hnodup ((hsub.map number).nodup hnodup)
    fun _ => hsub.mem
  refine (hsplit.append_right _).trans ?_
  rw [append_assoc]
  refine perm_append_comm.trans ?_
  rw [append_assoc]

theorem accounted_enqueues (h : Accounted s) {rows : List (JobRow (Nat × π))}
    {new : List (JobContent (Nat × π))} (hadds : Adds s.tables t' rows)
    (hcontent : rows.map JobRow.content = new)
    (hnumbers : new.map number = range' s.enqueued.length new.length) :
    Accounted (⟨t', s.enqueued ++ new, s.removed⟩ : System π) := by
  constructor
  · rw [contents, hadds.jobs, hadds.deadLetters, map_append, hcontent]
    refine (h.balance.append_right _).trans ?_
    simp only [contents, append_assoc]
    refine .append_left _ ?_
    rw [← append_assoc]
    exact perm_append_comm
  · rw [map_append, h.numbers, hnumbers, length_append, range_eq_range', range_eq_range']
    simpa using range'_append_1 (s := 0)

theorem accounted_step (i : Input π) (h : Accounted s) : Accounted (step i s).1 := by
  dsimp only [step]
  split
  · exact h
  · rename_i t' hrun
    have hchange := (run_sound _).change t' hrun
    have hquiet : (∀ payloads, (numbered s.enqueued.length i.statement).kind ≠ .enqueues payloads) →
        enqueueOutcome i.moment s.tables (numbered s.enqueued.length i.statement) ≠ some .inserted := by
      intro hother
      rw [outcome_of_not_enqueue hother]
      exact nofun
    rw [← deletes_numbered s.enqueued.length]
    cases hkind : (numbered s.enqueued.length i.statement).kind with
    | rewrites | activates =>
        rw [hkind] at hchange
        rw [if_neg (hquiet (by rw [hkind]; exact nofun)), append_nil]
        simp only [deletes, hkind, Bool.false_eq_true, if_false]
        exact accounted_same h (.of_eq (contents_rewritten hchange.1 hchange.2.2))
    | claims =>
        rw [hkind] at hchange
        rw [if_neg (hquiet (by rw [hkind]; exact nofun)), append_nil]
        simp only [deletes, hkind, Bool.false_eq_true, if_false]
        exact accounted_same h (.of_eq (contents_rewritten hchange.1 hchange.2))
    | moves =>
        rw [if_neg (hquiet (by rw [hkind]; exact nofun)), append_nil]
        simp only [deletes, hkind, Bool.false_eq_true, if_false]
        exact accounted_same h (contents_moved (hkind ▸ hchange))
    | requeues =>
        rw [if_neg (hquiet (by rw [hkind]; exact nofun)), append_nil]
        simp only [deletes, hkind, Bool.false_eq_true, if_false]
        exact accounted_same h (contents_requeued (hkind ▸ hchange))
    | deletes =>
        rw [if_neg (hquiet (by rw [hkind]; exact nofun)), append_nil]
        simp only [deletes, hkind, if_true]
        exact accounted_deletes h (hkind ▸ hchange)
    | enqueues payloads =>
        obtain ⟨rows, hadds, hcontent⟩ := enqueue_adds hkind hrun
        simp only [deletes, hkind, Bool.false_eq_true, if_false]
        refine accounted_enqueues h hadds hcontent ?_
        split
        · exact asked_numbered _ i.statement
        · rfl

theorem accounted_run (inputs : List (Input π)) : Accounted (exec step inputs System.empty) :=
  exec_invariant Accounted (fun i _ => accounted_step i) inputs ⟨.nil, rfl⟩

end Step

/-- How many rows of either table carry the numbered job. -/
def copies (n : Nat) (t : Tables (Nat × π)) : Nat :=
  t.jobs.countP (·.payload.1 = n) + t.deadLetters.countP (·.payload.1 = n)

/-- Every job is in one place until it is taken out, as it was enqueued, and the rows
have the shape that the schema demands. -/
structure Conserved (s : System π) : Prop where
  onePlace : ∀ n < s.enqueued.length, copies n s.tables = if n ∈ s.removed.map number then 0 else 1
  jobContent : ∀ row ∈ s.tables.jobs, s.enqueued[row.payload.1]? = some row.content
  deadLetterContent : ∀ row ∈ s.tables.deadLetters, s.enqueued[row.payload.1]? = some row.content
  numericDomains : ∀ row ∈ s.tables.jobs, NumericDomains row.retryCount row.maxRetries row.timeoutNanos
  statusLifecycleShape : ∀ row ∈ s.tables.jobs, row.StatusLifecycleShape
  dedupeActive : ∀ row ∈ s.tables.jobs, ∀ other ∈ s.tables.jobs, row.status.active →
    other.status.active →
    row.taskName = other.taskName → row.dedupeKey = other.dedupeKey → row.dedupeKey ≠ none → row = other

/-- What no statement does, whichever it is. -/
structure SafeStep (i : Input π) (s : System π) : Prop where
  noCheckFails : ∀ c : Constraint, (step i s).2 = .error (.violation c) → c.isCheck = false
  noDedupeFailure : retriesFailed i.statement = false →
    (step i s).2 ≠ .error (.violation .dedupeActive)
  removesNothing : deletes i.statement = false → (step i s).1.removed = s.removed
  originalJob : ∀ row ∈ (step i s).1.tables.deadLetters, row ∈ s.tables.deadLetters ∨
    ∃ job ∈ s.tables.jobs, Replaces job row ∧ job ∉ (step i s).1.tables.jobs

section Accounts

variable {s : System π}

theorem copies_eq_count (n : Nat) (t : Tables (Nat × π)) :
    copies n t = ((contents t).map number).count n := by
  rw [copies, contents, map_append, count_append, map_map, map_map, count_eq_countP, count_eq_countP,
    countP_map, countP_map]
  congr 1

theorem enqueued_getElem? (h : Accounted s) {content : JobContent (Nat × π)}
    (hmem : content ∈ contents s.tables) : s.enqueued[number content]? = some content := by
  have henqueued : content ∈ s.enqueued := h.balance.mem_iff.2 (mem_append_left _ hmem)
  obtain ⟨k, hk, rfl⟩ := getElem_of_mem henqueued
  have hnumber : number s.enqueued[k] = k := by
    rw [← getElem_map number (h := by simpa using hk)]
    simp only [h.numbers, getElem_range]
  rw [hnumber, getElem?_eq_getElem hk]

theorem onePlace_of_accounted (h : Accounted s) {n : Nat} (hn : n < s.enqueued.length) :
    copies n s.tables = if n ∈ s.removed.map number then 0 else 1 := by
  have htotal : ((contents s.tables).map number).count n + (s.removed.map number).count n = 1 := by
    rw [← count_append, ← map_append, ← (h.balance.map number).count_eq, h.numbers]
    exact count_eq_one_of_mem nodup_range (mem_range.2 hn)
  rw [copies_eq_count]
  split
  · have := count_pos_iff.2 ‹n ∈ _›
    omega
  · have := count_eq_zero.2 ‹n ∉ _›
    omega

theorem eq_of_nodup_filterMap {α β : Type} {f : α → Option β} {xs : List α}
    (h : (xs.filterMap f).Nodup) {x y : α} (hx : x ∈ xs) (hy : y ∈ xs) {b : β} (hfx : f x = some b)
    (hfy : f y = some b) : x = y := by
  induction xs with
  | nil => cases hx
  | cons z xs ih =>
      rcases mem_cons.1 hx with rfl | hx' <;> rcases mem_cons.1 hy with rfl | hy'
      · rfl
      · rw [filterMap_cons_some hfx, nodup_cons] at h
        exact absurd (mem_filterMap.2 ⟨y, hy', hfy⟩) h.1
      · rw [filterMap_cons_some hfy, nodup_cons] at h
        exact absurd (mem_filterMap.2 ⟨x, hx', hfx⟩) h.1
      · exact ih ((Sublist.filterMap f (sublist_cons_self z xs)).nodup h) hx' hy'

theorem active_unique {t : Tables π} {row other : JobRow π}
    (hrow : row ∈ t.jobs) (hother : other ∈ t.jobs)
    (hactive : row.status.active) (hactive' : other.status.active)
    (htask : row.taskName = other.taskName)
    (hkey : row.dedupeKey = other.dedupeKey) (hsome : row.dedupeKey ≠ none) : row = other := by
  obtain ⟨key, hkeyed⟩ := Option.ne_none_iff_exists'.1 hsome
  have hnodup : (t.jobs.filterMap JobRow.activeDedupeKey).Nodup := t.constraints .dedupeActive
  have hindex : row.activeDedupeKey = some (row.taskName, key) := by
    simp [JobRow.activeDedupeKey, hactive, hkeyed]
  have hindex' : other.activeDedupeKey = some (row.taskName, key) := by
    simp [JobRow.activeDedupeKey, hactive', htask, ← hkey, hkeyed]
  exact eq_of_nodup_filterMap hnodup hrow hother hindex hindex'

theorem conserved_of_accounted (h : Accounted s) : Conserved s where
  onePlace _ hn := onePlace_of_accounted h hn
  jobContent _ hrow := enqueued_getElem? h (mem_append_left _ (mem_map_of_mem hrow))
  deadLetterContent _ hrow := enqueued_getElem? h (mem_append_right _ (mem_map_of_mem hrow))
  numericDomains := s.tables.constraints .numericDomains
  statusLifecycleShape := s.tables.constraints .statusLifecycleShape
  dedupeActive _ hrow _ hother := active_unique hrow hother

end Accounts

section Safety

variable {t t' : Tables (Nat × π)}

theorem kind_mayViolate_not_check {kind : Kind π} {c : Constraint} (h : kind.mayViolate c) :
    c.isCheck = false := by
  cases kind with
  | rewrites | claims | deletes => exact h.elim
  | activates | enqueues | requeues =>
      cases h
      rfl
  | moves => rcases h with rfl | rfl <;> rfl

theorem safeStep (i : Input π) (s : System π) : SafeStep i s := by
  have hsound := run_sound (m := i.moment) (t := s.tables) (numbered s.enqueued.length i.statement)
  constructor
  · intro c hc
    dsimp only [step] at hc
    split at hc
    · obtain rfl := Except.error.inj hc
      exact kind_mayViolate_not_check (hsound.violation c ‹_›)
    · cases hc
  · intro hretries hc
    dsimp only [step] at hc
    split at hc
    · obtain rfl := Except.error.inj hc
      have hmay := hsound.violation _ ‹_›
      rw [← retriesFailed_numbered s.enqueued.length, retriesFailed] at hretries
      cases hkind : (numbered s.enqueued.length i.statement).kind <;> simp_all [Kind.mayViolate]
    · cases hc
  · intro hdeletes
    dsimp only [step]
    split
    · rfl
    · simp [hdeletes]
  · intro row hrow
    dsimp only [step] at hrow ⊢
    split at hrow
    · exact .inl hrow
    · exact deadLetters_of_change (hsound.change _ ‹_›) hrow

end Safety

/-- In every state that a run of statements reaches, each job for which an enqueue has
replied that it is inserted is in exactly one row of the two tables unless a deleting
statement took it out, with the content that was asked for; and whatever the next
statement is, it fails on no check, and on the index of active dedupe keys only if it is
an operator's retry of failed jobs. -/
theorem queue_jobs_conserved (inputs : List (Input π)) :
    Conserved (exec step inputs System.empty) ∧ ∀ i, SafeStep i (exec step inputs System.empty) :=
  ⟨conserved_of_accounted (accounted_run inputs), fun i => safeStep i _⟩

end Paranoid.QueueConservation
