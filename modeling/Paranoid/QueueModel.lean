import Paranoid.KeyedRows
import Paranoid.Postgres

namespace Paranoid.QueueModel

open Postgres

def maxQueueTaskNameBytes : Nat := 128

def maxQueueDedupeKeyBytes : Nat := 512

def maxQueueWorkerOwnerIdBytes : Nat := 512

def defaultQueueMaxRetries : Nat := 5

def globalPauseKey : String := "__global__"

def taskPauseKeyPrefix : String := "task:"

/-- The bytes of a sortable id, read as a big-endian number: the order of the ids
is the order of the numbers. -/
abbrev JobId := Nat

inductive JobStatus
  | pending
  | running
  | completed
  | failed
  deriving DecidableEq

inductive DeadLetterReason
  | maxRetriesExceeded
  | permanentError
  | operatorAction
  | executionExpired
  deriving DecidableEq

def isTaskNameFirstByte (c : Char) : Bool := c = '_' || c.isAlphanum

def isTaskNameTrailingByte (c : Char) : Bool := isTaskNameFirstByte c || c = '.' || c = '-'

/-- What `validate_task_name` accepts and the text checks of all three tables demand. -/
def validTaskName (text : String) : Bool :=
  text.utf8ByteSize ≤ maxQueueTaskNameBytes &&
    match text.toList with
    | [] => false
    | first :: rest => isTaskNameFirstByte first && rest.all isTaskNameTrailingByte

def validBoundedText (maxBytes : Nat) (text : String) : Bool :=
  text.utf8ByteSize ≠ 0 && text.utf8ByteSize ≤ maxBytes && '\x00' ∉ text.toList

structure TaskName where
  text : String
  valid : validTaskName text
  deriving DecidableEq

structure DedupeKey where
  text : String
  valid : validBoundedText maxQueueDedupeKeyBytes text
  deriving DecidableEq

structure WorkerOwnerId where
  text : String
  valid : validBoundedText maxQueueWorkerOwnerIdBytes text
  deriving DecidableEq

def pausedTaskKey (taskName : TaskName) : String := taskPauseKeyPrefix ++ taskName.text

/-- A row of the jobs table. No statement looks into the payload, so the tables
are generic in it. -/
structure JobRow (π : Type) where
  id : JobId
  taskName : TaskName
  payload : π
  status : JobStatus
  runAtOrAfter : Int
  lastError : Option String
  retryCount : Int
  maxRetries : Int
  timeoutNanos : Int
  dedupeKey : Option DedupeKey
  workerId : Option WorkerOwnerId
  claimedByWorkerAt : Option Int
  executionStartedAt : Option Int
  executionHeartbeatAt : Option Int
  finishedAt : Option Int
  createdAt : Int
  updatedAt : Int
  deriving DecidableEq

structure DeadLetterRow (π : Type) where
  id : JobId
  originalJobId : JobId
  taskName : TaskName
  payload : π
  lastError : String
  retryCount : Int
  maxRetries : Int
  timeoutNanos : Int
  dedupeKey : Option DedupeKey
  reason : DeadLetterReason
  deadLetteredAt : Int
  createdAt : Int
  updatedAt : Int

variable {π : Type}

/-- What a job keeps from its enqueue until it is removed. -/
structure JobContent (π : Type) where
  taskName : TaskName
  payload : π
  maxRetries : Int
  timeoutNanos : Int
  dedupeKey : Option DedupeKey

def JobRow.content (row : JobRow π) : JobContent π :=
  ⟨row.taskName, row.payload, row.maxRetries, row.timeoutNanos, row.dedupeKey⟩

def DeadLetterRow.content (row : DeadLetterRow π) : JobContent π :=
  ⟨row.taskName, row.payload, row.maxRetries, row.timeoutNanos, row.dedupeKey⟩

def NumericDomains (retryCount maxRetries timeoutNanos : Int) : Prop :=
  0 ≤ retryCount ∧ 0 ≤ maxRetries ∧ -1 ≤ timeoutNanos

instance (retryCount maxRetries timeoutNanos : Int) :
    Decidable (NumericDomains retryCount maxRetries timeoutNanos) :=
  inferInstanceAs (Decidable (_ ∧ _))

theorem numericDomains_five_retries : NumericDomains 0 5 0 := by decide

def JobRow.StatusLifecycleShape (row : JobRow π) : Prop :=
  (row.status = .pending ∧ row.workerId = none ∧ row.claimedByWorkerAt = none ∧
      row.executionStartedAt = none ∧ row.executionHeartbeatAt = none ∧ row.finishedAt = none) ∨
    (row.status = .running ∧ row.workerId ≠ none ∧ row.claimedByWorkerAt ≠ none ∧
      row.executionHeartbeatAt ≠ none ∧ row.finishedAt = none) ∨
    ((row.status = .completed ∨ row.status = .failed) ∧ row.workerId = none ∧
      row.claimedByWorkerAt = none ∧ row.executionStartedAt = none ∧
      row.executionHeartbeatAt = none ∧ row.finishedAt ≠ none)

instance (row : JobRow π) : Decidable row.StatusLifecycleShape :=
  inferInstanceAs (Decidable (_ ∨ _ ∨ _))

def JobStatus.active (status : JobStatus) : Bool := status = .pending || status = .running

/-- The entry of a row in the partial unique index on active dedupe keys. -/
def JobRow.activeDedupeKey (row : JobRow π) : Option (TaskName × DedupeKey) :=
  if row.status.active then row.dedupeKey.map (row.taskName, ·) else none

/-- The constraints that the schema declares on the two tables. The status, reason
and text checks are left out: the types of the columns admit nothing else. -/
inductive Constraint
  | numericDomains
  | statusLifecycleShape
  | deadLetterNumericDomains
  | primaryKey
  | dedupeActive
  | deadLetterPrimaryKey
  | originalJob
  deriving DecidableEq

def Constraint.all : List Constraint :=
  [.numericDomains, .statusLifecycleShape, .deadLetterNumericDomains,
    .primaryKey, .dedupeActive, .deadLetterPrimaryKey, .originalJob]

theorem Constraint.mem_all (c : Constraint) : c ∈ all := by cases c <;> decide

/-- A check of a single row, as opposed to a unique index. -/
def Constraint.isCheck : Constraint → Bool
  | .numericDomains | .statusLifecycleShape | .deadLetterNumericDomains => true
  | _ => false

def Constraint.Holds : Constraint → List (JobRow π) → List (DeadLetterRow π) → Prop
  | .numericDomains, jobs, _ =>
      ∀ row ∈ jobs, NumericDomains row.retryCount row.maxRetries row.timeoutNanos
  | .statusLifecycleShape, jobs, _ => ∀ row ∈ jobs, row.StatusLifecycleShape
  | .deadLetterNumericDomains, _, deadLetters =>
      ∀ row ∈ deadLetters, NumericDomains row.retryCount row.maxRetries row.timeoutNanos
  | .primaryKey, jobs, _ => (jobs.map JobRow.id).Nodup
  | .dedupeActive, jobs, _ => (jobs.filterMap JobRow.activeDedupeKey).Nodup
  | .deadLetterPrimaryKey, _, deadLetters => (deadLetters.map DeadLetterRow.id).Nodup
  | .originalJob, _, deadLetters => (deadLetters.map DeadLetterRow.originalJobId).Nodup

instance (c : Constraint) (jobs : List (JobRow π)) (deadLetters : List (DeadLetterRow π)) :
    Decidable (c.Holds jobs deadLetters) := by
  cases c <;> simp only [Constraint.Holds] <;> infer_instance

/-- The jobs, dead-letter and pause tables with the constraints that the schema
keeps. The pause table is the list of its keys. -/
structure Tables (π : Type) where
  jobs : List (JobRow π)
  deadLetters : List (DeadLetterRow π)
  pauses : List String
  constraints : ∀ c : Constraint, c.Holds jobs deadLetters

inductive StatementError
  | violation (constraint : Constraint)
  | outOfRange (error : SqlError)
  | characterNotInRepertoire
  deriving DecidableEq

def Tables.empty : Tables π where
  jobs := []
  deadLetters := []
  pauses := []
  constraints := by rintro ⟨⟩ <;> simp [Constraint.Holds]

/-- The end of a statement that leaves these rows: the declared constraints are
checked, and a violation fails the statement. -/
def Tables.store (t : Tables π) (jobs : List (JobRow π)) (deadLetters : List (DeadLetterRow π)) :
    Except StatementError (Tables π) :=
  match h : Constraint.all.find? (fun c => ¬c.Holds jobs deadLetters) with
  | some c => .error (.violation c)
  | none => .ok ⟨jobs, deadLetters, t.pauses, fun c => by
      simpa using List.find?_eq_none.1 h c c.mem_all⟩

def Tables.job? (t : Tables π) (id : JobId) : Option (JobRow π) := t.jobs.find? (·.id = id)

def Tables.deadLetter? (t : Tables π) (id : JobId) : Option (DeadLetterRow π) :=
  t.deadLetters.find? (·.id = id)

variable {t t' : Tables π} {jobs : List (JobRow π)} {deadLetters : List (DeadLetterRow π)}

theorem Tables.store_eq_ok (h : t.store jobs deadLetters = .ok t') :
    t'.jobs = jobs ∧ t'.deadLetters = deadLetters ∧ t'.pauses = t.pauses := by
  dsimp only [Tables.store] at h
  split at h
  · cases h
  · obtain rfl := Except.ok.inj h
    exact ⟨rfl, rfl, rfl⟩

/-- A statement fails on a constraint only, and only on one that its rows break. -/
theorem Tables.store_eq_error {e : StatementError} (h : t.store jobs deadLetters = .error e) :
    ∃ c : Constraint, e = .violation c ∧ ¬c.Holds jobs deadLetters := by
  dsimp only [Tables.store] at h
  split at h
  · rename_i c hc
    exact ⟨c, (Except.error.inj h).symm, by simpa using List.find?_some hc⟩
  · cases h

theorem Tables.store_isOk (h : ∀ c : Constraint, c.Holds jobs deadLetters) :
    ∃ t', t.store jobs deadLetters = .ok t' := by
  cases hs : t.store jobs deadLetters with
  | ok t' => exact ⟨t', rfl⟩
  | error e =>
      obtain ⟨c, -, hc⟩ := store_eq_error hs
      exact absurd (h c) hc

section Keyed

variable {ρ : Type} {key : ρ → JobId} {rows : List ρ}

theorem find?_key_eq_some {id : JobId} {row : ρ} (hrows : (rows.map key).Nodup) :
    rows.find? (fun row => decide (key row = id)) = some row ↔ row ∈ rows ∧ key row = id :=
  KeyedRows.lookup_eq_some hrows

theorem find?_key_eq_none {id : JobId} :
    rows.find? (fun row => decide (key row = id)) = none ↔ ∀ row ∈ rows, key row ≠ id :=
  KeyedRows.lookup_eq_none

end Keyed

theorem Tables.job?_eq_some {id : JobId} {row : JobRow π} :
    t.job? id = some row ↔ row ∈ t.jobs ∧ row.id = id :=
  find?_key_eq_some (t.constraints .primaryKey)

theorem Tables.job?_eq_none {id : JobId} : t.job? id = none ↔ ∀ row ∈ t.jobs, row.id ≠ id :=
  find?_key_eq_none

theorem Tables.job?_of_mem {row : JobRow π} (h : row ∈ t.jobs) : t.job? row.id = some row :=
  job?_eq_some.2 ⟨h, rfl⟩

theorem Tables.deadLetter?_eq_some {id : JobId} {row : DeadLetterRow π} :
    t.deadLetter? id = some row ↔ row ∈ t.deadLetters ∧ row.id = id :=
  find?_key_eq_some (t.constraints .deadLetterPrimaryKey)

end Paranoid.QueueModel
