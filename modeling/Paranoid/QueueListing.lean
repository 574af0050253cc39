import Paranoid.Pagination
import Paranoid.QueueOperations

namespace Paranoid.QueueListing

open QueueModel QueueOperations Pagination

variable {π : Type}

section Options

def defaultQueueListLimit : Nat := 100

def maxQueueListLimit : Nat := 1000

inductive ListError
  | taskNameRequired
  | taskNameTooLong (actual max : Nat)
  | invalidTaskName
  | listLimitIsZero
  | listLimitTooLarge (actual max : Nat)
  | invalidPersistedRetryCount (retryCount : Int)
  | invalidPersistedMaxRetries (maxRetries : Int)
  | invalidPersistedJobTimeout (timeoutNanos : Int)
  deriving DecidableEq

structure ListJobsOptions where
  statuses : List JobStatus
  taskName : Option String
  limit : Option Nat
  cursorId : Option JobId

structure ListDeadLetterJobsOptions where
  taskName : Option String
  limit : Option Nat
  cursorId : Option JobId

def validateTaskName (taskName : String) : Except ListError Unit :=
  if taskName.utf8ByteSize = 0 then .error .taskNameRequired
  else if maxQueueTaskNameBytes < taskName.utf8ByteSize then
    .error (.taskNameTooLong taskName.utf8ByteSize maxQueueTaskNameBytes)
  else
    match taskName.toList with
    | [] => .error .taskNameRequired
    | first :: rest =>
        if !isTaskNameFirstByte first then .error .invalidTaskName
        else if !rest.all isTaskNameTrailingByte then .error .invalidTaskName
        else .ok ()

def validateListLimit (limit : Option Nat) : Except ListError Nat :=
  let limit := limit.getD defaultQueueListLimit
  if limit = 0 then .error .listLimitIsZero
  else if maxQueueListLimit < limit then .error (.listLimitTooLarge limit maxQueueListLimit)
  else .ok limit

/-- The checks that both listings begin with. -/
def validateListing (taskName : Option String) (limit : Option Nat) : Except ListError Nat := do
  taskName.forM validateTaskName
  validateListLimit limit

def statusText : JobStatus → String
  | .pending => "pending"
  | .running => "running"
  | .completed => "completed"
  | .failed => "failed"

def deduplicatedStatusFilterTexts (statuses : List JobStatus) : List String :=
  statuses.foldl (fun deduplicated status =>
    if statusText status ∈ deduplicated then deduplicated else deduplicated ++ [statusText status]) []

theorem validateListing_eq_ok {taskName : Option String} {limit : Option Nat} {size : Nat}
    (h : validateListing taskName limit = .ok size) :
    validateListLimit limit = .ok size ∧ 0 < size := by
  obtain ⟨-, -, h⟩ := Postgres.bind_eq_ok.1 h
  refine ⟨h, ?_⟩
  unfold validateListLimit at h
  dsimp only at h
  split_ifs at h with hzero
  rw [← Except.ok.inj h]
  exact Nat.pos_of_ne_zero hzero

theorem mem_deduplicated {status : JobStatus} {statuses : List JobStatus} :
    statusText status ∈ deduplicatedStatusFilterTexts statuses ↔ status ∈ statuses := by
  have hinj : ∀ a b, statusText a = statusText b → a = b := by
    intro a b
    cases a <;> cases b <;> decide
  have hfold : ∀ seen, statusText status ∈ statuses.foldl (fun deduplicated status =>
      if statusText status ∈ deduplicated then deduplicated else deduplicated ++ [statusText status]) seen ↔
      statusText status ∈ seen ∨ status ∈ statuses := by
    induction statuses with
    | nil => simp
    | cons first rest ih =>
        intro seen
        rw [List.foldl_cons, ih, List.mem_cons]
        by_cases hsame : status = first
        · subst hsame
          split <;> simp_all
        · have hne : statusText status ≠ statusText first := fun h => hsame (hinj _ _ h)
          split <;> simp [hsame, hne]
  rw [deduplicatedStatusFilterTexts, hfold]
  simp

theorem deduplicated_eq_nil {statuses : List JobStatus} :
    deduplicatedStatusFilterTexts statuses = [] ↔ statuses = [] := by
  constructor
  · intro h
    rw [List.eq_nil_iff_forall_not_mem] at h ⊢
    exact fun status hstatus => h _ (mem_deduplicated.2 hstatus)
  · rintro rfl
    rfl

end Options

section Rows

structure Job (π : Type) where
  id : JobId
  taskName : TaskName
  payload : π
  status : JobStatus
  runAtOrAfter : Int
  lastError : Option String
  retryCount : Nat
  maxRetries : Nat
  timeout : JobTimeout
  dedupeKey : Option DedupeKey
  workerOwnerId : Option WorkerOwnerId
  claimedByWorkerAt : Option Int
  executionStartedAt : Option Int
  executionHeartbeatAt : Option Int
  finishedAt : Option Int
  createdAt : Int
  updatedAt : Int

structure DeadLetterJob (π : Type) where
  id : JobId
  originalJobId : JobId
  taskName : TaskName
  payload : π
  lastError : String
  retryCount : Nat
  maxRetries : Nat
  timeout : JobTimeout
  dedupeKey : Option DedupeKey
  reason : DeadLetterReason
  deadLetteredAt : Int
  createdAt : Int
  updatedAt : Int

def retryCountFromPersisted (retryCount : Int) : Except ListError Nat :=
  if 0 ≤ retryCount then .ok retryCount.toNat else .error (.invalidPersistedRetryCount retryCount)

def maxRetriesFromPersisted (maxRetries : Int) : Except ListError Nat :=
  if 0 ≤ maxRetries then .ok maxRetries.toNat else .error (.invalidPersistedMaxRetries maxRetries)

def timeoutFromPersistedNanos (timeoutNanos : Int) : Except ListError JobTimeout :=
  if timeoutNanos = -1 then .ok .noTimeout
  else if timeoutNanos = 0 then .ok .workerDefault
  else if 0 < timeoutNanos then .ok (.expiresAfter timeoutNanos.toNat)
  else .error (.invalidPersistedJobTimeout timeoutNanos)

def queueJobFromRow (row : JobRow π) : Except ListError (Job π) := do
  let retryCount ← retryCountFromPersisted row.retryCount
  let maxRetries ← maxRetriesFromPersisted row.maxRetries
  let timeout ← timeoutFromPersistedNanos row.timeoutNanos
  return ⟨row.id, row.taskName, row.payload, row.status,
    row.runAtOrAfter, row.lastError, retryCount, maxRetries, timeout,
    row.dedupeKey, row.workerId, row.claimedByWorkerAt,
      row.executionStartedAt, row.executionHeartbeatAt, row.finishedAt,
    row.createdAt, row.updatedAt⟩

def queueDeadLetterJobFromRow (row : DeadLetterRow π) : Except ListError (DeadLetterJob π) := do
  let retryCount ← retryCountFromPersisted row.retryCount
  let maxRetries ← maxRetriesFromPersisted row.maxRetries
  let timeout ← timeoutFromPersistedNanos row.timeoutNanos
  return ⟨row.id, row.originalJobId, row.taskName, row.payload,
    row.lastError, retryCount, maxRetries, timeout,
    row.dedupeKey, row.reason, row.deadLetteredAt, row.createdAt, row.updatedAt⟩

/-- The numbers that the checks of the tables admit are those that the rows are read with. -/
theorem numbers_decode {retryCount maxRetries timeoutNanos : Int}
    (h : NumericDomains retryCount maxRetries timeoutNanos) :
    ∃ retries limit timeout, retryCountFromPersisted retryCount = .ok retries ∧
      maxRetriesFromPersisted maxRetries = .ok limit ∧
        timeoutFromPersistedNanos timeoutNanos = .ok timeout := by
  obtain ⟨hretries, hlimit, htimeout⟩ := h
  obtain ⟨timeout, hdecoded⟩ : ∃ timeout, timeoutFromPersistedNanos timeoutNanos = .ok timeout := by
    unfold timeoutFromPersistedNanos
    split_ifs
    · exact ⟨_, rfl⟩
    · exact ⟨_, rfl⟩
    · exact ⟨_, rfl⟩
    · omega
  exact ⟨_, _, timeout, if_pos hretries, if_pos hlimit, hdecoded⟩

theorem queueJobFromRow_ok {row : JobRow π}
    (h : NumericDomains row.retryCount row.maxRetries row.timeoutNanos) :
    ∃ job, queueJobFromRow row = .ok job ∧ job.id = row.id := by
  obtain ⟨retries, limit, timeout, hretries, hlimit, htimeout⟩ := numbers_decode h
  exact ⟨_, by rw [queueJobFromRow, hretries, hlimit, htimeout]; rfl, rfl⟩

theorem queueDeadLetterJobFromRow_ok {row : DeadLetterRow π}
    (h : NumericDomains row.retryCount row.maxRetries row.timeoutNanos) :
    ∃ job, queueDeadLetterJobFromRow row = .ok job ∧ job.id = row.id := by
  obtain ⟨retries, limit, timeout, hretries, hlimit, htimeout⟩ := numbers_decode h
  exact ⟨_, by rw [queueDeadLetterJobFromRow, hretries, hlimit, htimeout]; rfl, rfl⟩

end Rows

section Listings

/-- The filters of the query, with its parameters as they are bound. -/
def listedJob (statusFilters : List String) (taskName : Option String) (row : JobRow π) : Bool :=
  (statusFilters = [] || statusText row.status ∈ statusFilters) && taskName.all (row.taskName.text = ·)

def listedDeadLetter (taskName : Option String) (row : DeadLetterRow π) : Bool :=
  taskName.all (row.taskName.text = ·)

def listJobs (t : Tables π) (options : ListJobsOptions) : Except ListError (Page (Job π) JobId) := do
  let limit ← validateListing options.taskName options.limit
  let statusFilters := deduplicatedStatusFilterTexts options.statuses
  listing JobRow.id Job.id queueJobFromRow limit
    (t.jobs.filter (listedJob statusFilters options.taskName)) options.cursorId

def listDeadLetterJobs (t : Tables π) (options : ListDeadLetterJobsOptions) :
    Except ListError (Page (DeadLetterJob π) JobId) := do
  let limit ← validateListing options.taskName options.limit
  listing DeadLetterRow.id DeadLetterJob.id queueDeadLetterJobFromRow limit
    (t.deadLetters.filter (listedDeadLetter options.taskName)) options.cursorId

/-- A row matches if the filters name its status, or none, and its task, or none. -/
def matchingJobs (t : Tables π) (statuses : List JobStatus) (taskName : Option String) :
    List (JobRow π) :=
  t.jobs.filter fun row =>
    (statuses = [] ∨ row.status ∈ statuses) ∧ ∀ name ∈ taskName, row.taskName.text = name

def matchingDeadLetters (t : Tables π) (taskName : Option String) : List (DeadLetterRow π) :=
  t.deadLetters.filter fun row => ∀ name ∈ taskName, row.taskName.text = name

theorem filter_listedJob (t : Tables π) (statuses : List JobStatus) (taskName : Option String) :
    t.jobs.filter (listedJob (deduplicatedStatusFilterTexts statuses) taskName) =
      matchingJobs t statuses taskName := by
  rw [matchingJobs]
  congr 1
  funext row
  rw [Bool.eq_iff_iff, listedJob]
  simp only [Bool.and_eq_true, Bool.or_eq_true,
    decide_eq_true_eq, deduplicated_eq_nil, mem_deduplicated]
  cases taskName <;> simp

theorem filter_listedDeadLetter (t : Tables π) (taskName : Option String) :
    t.deadLetters.filter (listedDeadLetter taskName) = matchingDeadLetters t taskName := by
  rw [matchingDeadLetters]
  congr 1
  funext row
  rw [Bool.eq_iff_iff, listedDeadLetter]
  cases taskName <;> simp

/-- With filters and a page size that are accepted, the pages of either listing part
the matching rows. -/
structure ListingsPartition (t : Tables π) : Prop where
  jobs : ∀ options : ListJobsOptions,
    (∃ limit, validateListing options.taskName options.limit = .ok limit) →
    Partitions JobRow.id Job.id queueJobFromRow (matchingJobs t options.statuses options.taskName)
      fun cursorId => listJobs t { options with cursorId }
  deadLetters : ∀ options : ListDeadLetterJobsOptions,
    (∃ limit, validateListing options.taskName options.limit = .ok limit) →
    Partitions DeadLetterRow.id DeadLetterJob.id
      queueDeadLetterJobFromRow (matchingDeadLetters t options.taskName)
      fun cursorId => listDeadLetterJobs t { options with cursorId }

theorem listings_partition (t : Tables π) : ListingsPartition t where
  jobs := by
    rintro ⟨statuses, taskName, limit, cursorId⟩ ⟨size, hsize⟩
    dsimp only at hsize ⊢
    have hdecode : Decodes JobRow.id Job.id queueJobFromRow (matchingJobs t statuses taskName) :=
      fun row hrow =>
      queueJobFromRow_ok (t.constraints .numericDomains row (List.mem_of_mem_filter hrow))
    have hkeys : ((matchingJobs t statuses taskName).map JobRow.id).Nodup :=
      (t.constraints .primaryKey).sublist (List.filter_sublist.map _)
    have hparts := listing_partitions hkeys hdecode (validateListing_eq_ok hsize).2
    have hpager : (fun cursorId => listJobs t ⟨statuses, taskName, limit, cursorId⟩) =
        listing JobRow.id Job.id queueJobFromRow size (matchingJobs t statuses taskName) := by
      funext cursorId
      rw [← filter_listedJob, listJobs, hsize]
      rfl
    rw [hpager]
    exact hparts
  deadLetters := by
    rintro ⟨taskName, limit, cursorId⟩ ⟨size, hsize⟩
    dsimp only at hsize ⊢
    have hdecode : Decodes DeadLetterRow.id DeadLetterJob.id
      queueDeadLetterJobFromRow (matchingDeadLetters t taskName) :=
      fun row hrow => queueDeadLetterJobFromRow_ok
        (t.constraints .deadLetterNumericDomains row (List.mem_of_mem_filter hrow))
    have hkeys : ((matchingDeadLetters t taskName).map DeadLetterRow.id).Nodup :=
      (t.constraints .deadLetterPrimaryKey).sublist (List.filter_sublist.map _)
    have hparts := listing_partitions hkeys hdecode (validateListing_eq_ok hsize).2
    have hpager : (fun cursorId => listDeadLetterJobs t ⟨taskName, limit, cursorId⟩) =
        listing DeadLetterRow.id DeadLetterJob.id queueDeadLetterJobFromRow
          size (matchingDeadLetters t taskName) := by
      funext cursorId
      rw [← filter_listedDeadLetter, listDeadLetterJobs, hsize]
      rfl
    rw [hpager]
    exact hparts

def report : TaskName := ⟨"report", by decide⟩

def waiting (id : JobId) : JobRow Unit :=
  enqueuedJob 0 0 report ⟨none, 5, 0, by decide⟩ none id ()

def threeOfEach : Tables Unit :=
  ⟨[3, 1, 2].map waiting, [6, 4, 5].map fun id => failedDeadLetter 0 id .operatorAction (waiting id),
    [], by rintro ⟨⟩ <;> decide⟩

theorem pages_of_three :
    Partitions JobRow.id Job.id queueJobFromRow (matchingJobs threeOfEach [.pending] none)
        (fun cursorId => listJobs threeOfEach ⟨[.pending], none, some 2, cursorId⟩) ∧
      Partitions DeadLetterRow.id DeadLetterJob.id
        queueDeadLetterJobFromRow (matchingDeadLetters threeOfEach (some "report"))
        fun cursorId => listDeadLetterJobs threeOfEach ⟨some "report", some 2, cursorId⟩ :=
  have hpartition := listings_partition threeOfEach
  ⟨hpartition.jobs ⟨[.pending], none, some 2, none⟩ ⟨2, rfl⟩,
    hpartition.deadLetters ⟨some "report", some 2, none⟩ ⟨2, rfl⟩⟩

end Listings

end Paranoid.QueueListing
