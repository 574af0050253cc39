import Paranoid.QueueOutcomes
import Paranoid.Transitions

namespace Paranoid.QueueEnqueues

open List Postgres QueueModel QueueStatements QueueOperations QueueEffects QueueChanges QueueOutcomes Transitions

variable {π : Type}

section Calls

def maxQueueDedupeInsertAttempts : Nat := 5

structure EnqueueResult where
  jobId : JobId
  deduplicated : Bool
  deriving DecidableEq

/-- `connection` stands for what ends a call without a reply of the statement: a refused
admission, a timeout, a deadlock or a lost connection. -/
inductive EnqueueFailure
  | queuePaused
  | taskPaused
  | unexpectedOutcome (operation outcome : String)
  | jobId (reason : String)
  | database (error : StatementError)
  | connection (reason : String)

def enqueueOutcomeText : EnqueueOutcome → String
  | .inserted => "inserted"
  | .queuePaused => "queue_paused"
  | .taskPaused => "task_paused"
  | .notInserted => "not_inserted"

structure PreparedEnqueue (π : Type) where
  jobId : JobId
  taskName : TaskName
  payload : π
  options : PreparedOptions
  dedupeKey : Option DedupeKey

structure PreparedEnqueueBatch (π : Type) where
  taskName : TaskName
  jobs : List (JobId × π)
  options : PreparedOptions

def queueEnqueueResultFromInsertOutcome (operation : String) (insertedId : Option JobId) :
    EnqueueOutcome → Except EnqueueFailure EnqueueResult
  | .inserted =>
      match insertedId with
      | some jobId => .ok ⟨jobId, false⟩
      | none => .error (.unexpectedOutcome operation "inserted without id")
  | .queuePaused => .error .queuePaused
  | .taskPaused => .error .taskPaused
  | .notInserted => .error (.unexpectedOutcome operation (enqueueOutcomeText .notInserted))

inductive DedupeEnqueueAttemptOutcome
  | applied (result : EnqueueResult)
  | retryAfterInvisibleConflict

def queueDedupeEnqueueResultFromInsertOutcome (operation : String)
    (insertedId existingId : Option JobId) :
    EnqueueOutcome → Except EnqueueFailure DedupeEnqueueAttemptOutcome
  | .inserted => (queueEnqueueResultFromInsertOutcome operation insertedId .inserted).map .applied
  | .notInserted =>
      match existingId with
      | some jobId => .ok (.applied ⟨jobId, true⟩)
      | none => .ok .retryAfterInvisibleConflict
  | .queuePaused => .error .queuePaused
  | .taskPaused => .error .taskPaused

def queueBatchEnqueueResultsFromInsertOutcome (jobs : List (JobId × π)) (insertedCount : Nat) :
    EnqueueOutcome → Except EnqueueFailure (List EnqueueResult)
  | .inserted =>
      if insertedCount = jobs.length then .ok (jobs.map fun job => ⟨job.1, false⟩)
      else .error (.unexpectedOutcome "batch enqueue"
        s!"inserted {insertedCount} rows, expected {jobs.length}")
  | .queuePaused => .error .queuePaused
  | .taskPaused => .error .taskPaused
  | .notInserted => .error (.unexpectedOutcome "batch enqueue" (enqueueOutcomeText .notInserted))

inductive Prepared (π : Type)
  | one (prepared : PreparedEnqueue π)
  | batch (prepared : PreparedEnqueueBatch π)

/-- What the `inserted` of a statement returns. -/
def newRows (t t' : Tables π) : List (JobRow π) := t'.jobs.filter fun row => (t.job? row.id).isNone

def insertedId (t t' : Tables π) : Option JobId := (newRows t t').head?.map JobRow.id

/-- After a statement a call returns, or it goes on with another id. -/
inductive Attempt (π : Type)
  | returned (result : Except EnqueueFailure (List EnqueueResult))
  | again (prepared : PreparedEnqueue π)

def executeBatchEnqueue (m : Moment π) (prepared : PreparedEnqueueBatch π) (t : Tables π) :
    Attempt π × Tables π :=
  if prepared.jobs = [] then (.returned (.ok []), t)
  else
    match batchEnqueue m prepared.taskName prepared.options prepared.jobs t with
    | .error e => (.returned (.error (.database e)), t)
    | .ok (outcome, t') =>
        (.returned (queueBatchEnqueueResultsFromInsertOutcome
          prepared.jobs (newRows t t').length outcome), t')

def executeNonDedupeEnqueue (m : Moment π) (prepared : PreparedEnqueue π) (t : Tables π) :
    Attempt π × Tables π :=
  match singleEnqueue m prepared.taskName prepared.options prepared.jobId prepared.payload t with
  | .error e => (.returned (.error (.database e)), t)
  | .ok (outcome, t') =>
      (.returned ((queueEnqueueResultFromInsertOutcome "enqueue" (insertedId t t') outcome).map
        fun r => [r]), t')

/-- One turn of the loop. The new id is the one that the turn draws if it needs one. -/
def executeDedupeEnqueue (m : Moment π) (prepared : PreparedEnqueue π)
    (dedupeKey : DedupeKey) (attemptIndex : Nat)
    (newId : Except String JobId) (t : Tables π) : Attempt π × Tables π :=
  if attemptIndex < maxQueueDedupeInsertAttempts then
    match dedupeEnqueue m prepared.taskName prepared.options dedupeKey prepared.jobId prepared.payload t with
    | .error e => (.returned (.error (.database e)), t)
    | .ok ((outcome, existingId), t') =>
        match queueDedupeEnqueueResultFromInsertOutcome "dedupe enqueue" (insertedId t t') existingId outcome with
        | .error e => (.returned (.error e), t')
        | .ok (.applied result) => (.returned (.ok [result]), t')
        | .ok .retryAfterInvisibleConflict =>
            if attemptIndex + 1 < maxQueueDedupeInsertAttempts then
              match newId with
              | .error reason => (.returned (.error (.jobId reason)), t')
              | .ok jobId => (.again { prepared with jobId }, t')
            else (.returned (.error (.unexpectedOutcome "dedupe enqueue"
              "not inserted without existing active job")), t')
  else (.returned (.error (.unexpectedOutcome "dedupe enqueue" "retry loop exhausted")), t)

def executeEnqueue (m : Moment π) (prepared : Prepared π)
    (attemptIndex : Nat) (newId : Except String JobId)
    (t : Tables π) : Attempt π × Tables π :=
  match prepared with
  | .batch prepared => executeBatchEnqueue m prepared t
  | .one prepared =>
      match prepared.dedupeKey with
      | none => executeNonDedupeEnqueue m prepared t
      | some dedupeKey => executeDedupeEnqueue m prepared dedupeKey attemptIndex newId t

end Calls

section Specification

def Prepared.jobs : Prepared π → List (JobId × π)
  | .one prepared => [(prepared.jobId, prepared.payload)]
  | .batch prepared => prepared.jobs

def Prepared.taskName : Prepared π → TaskName
  | .one prepared => prepared.taskName
  | .batch prepared => prepared.taskName

def Prepared.options : Prepared π → PreparedOptions
  | .one prepared => prepared.options
  | .batch prepared => prepared.options

def Prepared.dedupeKey : Prepared π → Option DedupeKey
  | .one prepared => prepared.dedupeKey
  | .batch _ => none

/-- The rows that an enqueue is for. -/
def Prepared.rows (prepared : Prepared π) (now runAt : Int) : List (JobRow π) :=
  prepared.jobs.map fun job =>
    enqueuedJob now runAt prepared.taskName prepared.options prepared.dedupeKey job.1 job.2

/-- An active job of the newest rows holds the key, and none that the snapshot shows. -/
def InvisibleConflict (prepared : Prepared π) (m : Moment π) (t : Tables π) : Prop :=
  ∃ dedupeKey, prepared.dedupeKey = some dedupeKey ∧
    (∃ row ∈ t.jobs, activeDedupeMatch prepared.taskName (some dedupeKey) row) ∧
    ∀ row ∈ m.snapshot.jobs, ¬activeDedupeMatch prepared.taskName (some dedupeKey) row

/-- The statement inserted all jobs, each under an id that no row had. -/
structure Inserts (prepared : Prepared π) (m : Moment π) (t : Tables π) (inserted : List (JobRow π))
    (results : List EnqueueResult) : Prop where
  rows : ∃ runAt, inserted = prepared.rows m.now runAt ∧
    (prepared.jobs ≠ [] → runAtOrNow m.now prepared.options.runAtOrAfterUnixMicroseconds = .ok runAt)
  fresh : ∀ row ∈ inserted, t.job? row.id = none
  distinct : (inserted.map JobRow.id).Nodup
  results : results = prepared.jobs.map fun job => ⟨job.1, false⟩

/-- The snapshot showed an active job with the key. -/
structure Finds (prepared : Prepared π) (m : Moment π) (results : List EnqueueResult) : Prop where
  active : ∃ dedupeKey row, prepared.dedupeKey = some dedupeKey ∧ row ∈ m.snapshot.jobs ∧
    activeDedupeMatch prepared.taskName (some dedupeKey) row ∧ results = [⟨row.id, true⟩]

/-- What one statement of a call does to the rows and what the call makes of it. -/
inductive Attempted (prepared : Prepared π) (attemptIndex : Nat) (m : Moment π) (t : Tables π) :
    Attempt π → List (JobRow π) → Prop
  | inserts (inserted : List (JobRow π)) (results : List EnqueueResult) (h : Inserts prepared m t inserted results) :
      Attempted prepared attemptIndex m t (.returned (.ok results)) inserted
  | finds (results : List EnqueueResult) (h : Finds prepared m results) :
      Attempted prepared attemptIndex m t (.returned (.ok results)) []
  | queuePaused (h : queuePaused m = true) : Attempted prepared attemptIndex m t (.returned (.error .queuePaused)) []
  | taskPaused (h : taskPaused m prepared.taskName = true) :
      Attempted prepared attemptIndex m t (.returned (.error .taskPaused)) []
  | conflicts (operation outcome : String) (h : InvisibleConflict prepared m t)
      (hlast : attemptIndex + 1 = maxQueueDedupeInsertAttempts) :
      Attempted prepared attemptIndex m t (.returned (.error (.unexpectedOutcome operation outcome))) []
  | retries (next : PreparedEnqueue π) (h : InvisibleConflict prepared m t)
      (hmore : attemptIndex + 1 < maxQueueDedupeInsertAttempts)
        (htask : next.taskName = prepared.taskName)
      (hkey : next.dedupeKey = prepared.dedupeKey) :
      Attempted prepared attemptIndex m t (.again next) []
  | database (e : StatementError) : Attempted prepared attemptIndex m t (.returned (.error (.database e))) []
  | jobId (reason : String) : Attempted prepared attemptIndex m t (.returned (.error (.jobId reason))) []

end Specification

section Statements

variable {m : Moment π} {t t' : Tables π} {taskName : TaskName}
  {options : PreparedOptions} {rows : List (JobRow π)}

/-- The tables after a statement that only adds rows. -/
structure Adds (t t' : Tables π) (rows : List (JobRow π)) : Prop where
  jobs : t'.jobs = t.jobs ++ rows
  deadLetters : t'.deadLetters = t.deadLetters
  pauses : t'.pauses = t.pauses

theorem adds_nil (t : Tables π) : Adds t t [] := ⟨(append_nil _).symm, rfl, rfl⟩

theorem adds_of_insertJobs (h : insertJobs t rows = .ok t') : Adds t t' rows := by
  obtain ⟨hjobs, hdead, hpauses⟩ := replaceRows_eq_ok h
  rw [append_nil, filter_not_mem_nil DeadLetterRow.id] at hdead
  rw [filter_not_mem_nil JobRow.id] at hjobs
  exact ⟨hjobs, hdead, hpauses⟩

theorem Adds.fresh (h : Adds t t' rows) :
    (∀ row ∈ rows, t.job? row.id = none) ∧ (rows.map JobRow.id).Nodup := by
  have hnodup := t'.constraints .primaryKey
  simp only [Constraint.Holds, h.jobs, map_append, nodup_append] at hnodup
  refine ⟨fun row hrow => ?_, hnodup.2.1⟩
  rw [Tables.job?_eq_none]
  exact fun old hold => hnodup.2.2 _ (mem_map_of_mem hold) _ (mem_map_of_mem hrow)

theorem newRows_of_adds (h : Adds t t' rows) : newRows t t' = rows := by
  have hold : t.jobs.filter (fun row => (t.job? row.id).isNone) = [] := by
    rw [filter_eq_nil_iff]
    intro row hrow
    simp [Tables.job?_of_mem hrow]
  have hnew : rows.filter (fun row => (t.job? row.id).isNone) = rows := by
    rw [filter_eq_self]
    intro row hrow
    simp [h.fresh.1 row hrow]
  rw [newRows, h.jobs, filter_append, hold, hnew, nil_append]

theorem batchEnqueue_cases {jobs : List (JobId × π)} {outcome : EnqueueOutcome} (hjobs : jobs ≠ [])
    (h : batchEnqueue m taskName options jobs t = .ok (outcome, t')) :
    (outcome = .queuePaused ∧ queuePaused m = true ∧ t' = t) ∨
      (outcome = .taskPaused ∧ taskPaused m taskName = true ∧ t' = t) ∨
      outcome = .inserted ∧ ∃ runAt, runAtOrNow m.now options.runAtOrAfterUnixMicroseconds = .ok runAt ∧
        Adds t t' (jobs.map fun job => enqueuedJob m.now runAt taskName options none job.1 job.2) := by
  simp only [batchEnqueue, if_neg hjobs] at h
  split at h
  · rename_i hqueue
    obtain ⟨rfl, rfl⟩ := Prod.mk.inj (Except.ok.inj h)
    exact .inl ⟨rfl, hqueue, rfl⟩
  · split at h
    · rename_i htask
      obtain ⟨rfl, rfl⟩ := Prod.mk.inj (Except.ok.inj h)
      exact .inr (.inl ⟨rfl, htask, rfl⟩)
    · obtain ⟨runAt, hrunAt, h⟩ := bind_eq_ok.1 h
      obtain ⟨updated, hupdated, h⟩ := bind_eq_ok.1 h
      obtain ⟨rfl, rfl⟩ := Prod.mk.inj (Except.ok.inj h)
      exact .inr (.inr ⟨rfl, runAt, hrunAt, adds_of_insertJobs hupdated⟩)

theorem dedupeEnqueue_cases {dedupeKey : DedupeKey}
    {id : JobId} {payload : π} {outcome : EnqueueOutcome}
    {existingId : Option JobId}
    (h : dedupeEnqueue m taskName options dedupeKey id payload t = .ok ((outcome, existingId), t')) :
    (outcome = .queuePaused ∧ queuePaused m = true ∧ t' = t) ∨
      (outcome = .taskPaused ∧ taskPaused m taskName = true ∧ t' = t) ∨
      (outcome = .notInserted ∧ t' = t ∧
        (∃ row ∈ t.jobs, activeDedupeMatch taskName (some dedupeKey) row) ∧
        existingId = (m.snapshot.jobs.find? (activeDedupeMatch taskName (some dedupeKey))).map
          JobRow.id) ∨
      outcome = .inserted ∧ ∃ runAt, runAtOrNow m.now options.runAtOrAfterUnixMicroseconds = .ok runAt ∧
        Adds t t' [enqueuedJob m.now runAt taskName options (some dedupeKey) id payload] := by
  simp only [dedupeEnqueue] at h
  split at h
  · rename_i hqueue
    obtain ⟨hreply, rfl⟩ := Prod.mk.inj (Except.ok.inj h)
    exact .inl ⟨(Prod.mk.inj hreply).1.symm, hqueue, rfl⟩
  · split at h
    · rename_i htask
      obtain ⟨hreply, rfl⟩ := Prod.mk.inj (Except.ok.inj h)
      exact .inr (.inl ⟨(Prod.mk.inj hreply).1.symm, htask, rfl⟩)
    · obtain ⟨runAt, hrunAt, h⟩ := bind_eq_ok.1 h
      split at h
      · rename_i hactive
        obtain ⟨hreply, rfl⟩ := Prod.mk.inj (Except.ok.inj h)
        obtain ⟨houtcome, hexisting⟩ := Prod.mk.inj hreply
        exact .inr (.inr (.inl ⟨houtcome.symm, rfl, any_eq_true.1 hactive, hexisting.symm⟩))
      · obtain ⟨updated, hupdated, h⟩ := bind_eq_ok.1 h
        obtain ⟨hreply, rfl⟩ := Prod.mk.inj (Except.ok.inj h)
        exact .inr (.inr (.inr ⟨(Prod.mk.inj hreply).1.symm,
          runAt, hrunAt, adds_of_insertJobs hupdated⟩))

/-- The outcome of one statement is what its snapshot and the newest rows make it. -/
structure Explained (prepared : Prepared π) (attemptIndex : Nat) (m : Moment π) (t : Tables π)
    (o : Attempt π × Tables π) : Prop where
  adds : Adds t o.2 (newRows t o.2)
  attempted : Attempted prepared attemptIndex m t o.1 (newRows t o.2)

theorem newRows_self (t : Tables π) : newRows t t = [] := newRows_of_adds (adds_nil t)

theorem explained_unchanged {prepared : Prepared π} {attemptIndex : Nat} {attempt : Attempt π}
    (h : Attempted prepared attemptIndex m t attempt []) :
    Explained prepared attemptIndex m t (attempt, t) := by
  constructor
  · rw [newRows_self]
    exact adds_nil t
  · rw [newRows_self]
    exact h

theorem explained_inserts {prepared : Prepared π}
    {attemptIndex : Nat} {runAt : Int} {results : List EnqueueResult}
    (hrunAt : runAtOrNow m.now prepared.options.runAtOrAfterUnixMicroseconds = .ok runAt)
    (hadds : Adds t t' (prepared.rows m.now runAt))
    (hresults : results = prepared.jobs.map fun job => ⟨job.1, false⟩) :
    Explained prepared attemptIndex m t (.returned (.ok results), t') := by
  constructor
  · rw [newRows_of_adds hadds]
    exact hadds
  · rw [newRows_of_adds hadds]
    exact .inserts _ _ ⟨⟨runAt, rfl, fun _ => hrunAt⟩, hadds.fresh.1, hadds.fresh.2, hresults⟩

theorem explained_batch (prepared : PreparedEnqueueBatch π) (attemptIndex : Nat) :
    Explained (.batch prepared) attemptIndex m t (executeBatchEnqueue m prepared t) := by
  unfold executeBatchEnqueue
  split
  · rename_i hempty
    have hinserts : Inserts (.batch prepared) m t [] [] :=
      { rows := ⟨0, by rw [Prepared.rows, Prepared.jobs, hempty, map_nil], fun hjobs => absurd hempty hjobs⟩
        fresh := fun _ h => absurd h not_mem_nil
        distinct := nodup_nil
        results := by rw [Prepared.jobs, hempty, map_nil] }
    exact explained_unchanged (.inserts _ _ hinserts)
  · rename_i hjobs
    cases hs : batchEnqueue m prepared.taskName prepared.options prepared.jobs t with
    | error e => exact explained_unchanged (.database e)
    | ok reply =>
        obtain ⟨outcome, t'⟩ := reply
        rcases batchEnqueue_cases hjobs hs with ⟨rfl, hqueue, rfl⟩ |
          ⟨rfl, htask, rfl⟩ | ⟨rfl, runAt, hrunAt, hadds⟩
        · exact explained_unchanged (.queuePaused hqueue)
        · exact explained_unchanged (.taskPaused htask)
        · dsimp only
          rw [newRows_of_adds hadds, length_map, queueBatchEnqueueResultsFromInsertOutcome, if_pos rfl]
          exact explained_inserts hrunAt hadds rfl

theorem explained_single (prepared : PreparedEnqueue π)
    (attemptIndex : Nat) (hkey : prepared.dedupeKey = none) :
    Explained (.one prepared) attemptIndex m t (executeNonDedupeEnqueue m prepared t) := by
  unfold executeNonDedupeEnqueue
  cases hs : singleEnqueue m prepared.taskName prepared.options prepared.jobId prepared.payload t with
  | error e => exact explained_unchanged (.database e)
  | ok reply =>
      obtain ⟨outcome, t'⟩ := reply
      rcases batchEnqueue_cases (cons_ne_nil _ _) hs with
        ⟨rfl, hqueue, rfl⟩ | ⟨rfl, htask, rfl⟩ | ⟨rfl, runAt, hrunAt, hadds⟩
      · exact explained_unchanged (.queuePaused hqueue)
      · exact explained_unchanged (.taskPaused htask)
      · dsimp only
        rw [insertedId, newRows_of_adds hadds]
        refine explained_inserts hrunAt ?_ rfl
        rw [Prepared.rows, Prepared.dedupeKey, hkey]
        exact hadds

theorem explained_dedupe (prepared : PreparedEnqueue π) {dedupeKey : DedupeKey} {attemptIndex : Nat}
    (newId : Except String JobId) (hkey : prepared.dedupeKey = some dedupeKey)
    (hattempt : attemptIndex < maxQueueDedupeInsertAttempts) :
    Explained (.one prepared) attemptIndex m t
      (executeDedupeEnqueue m prepared dedupeKey attemptIndex newId t) := by
  rw [executeDedupeEnqueue, if_pos hattempt]
  cases hs : dedupeEnqueue m prepared.taskName prepared.options
    dedupeKey prepared.jobId prepared.payload t with
  | error e => exact explained_unchanged (.database e)
  | ok reply =>
      obtain ⟨⟨outcome, existingId⟩, t'⟩ := reply
      rcases dedupeEnqueue_cases hs with
        ⟨rfl, hqueue, rfl⟩ | ⟨rfl, htask, rfl⟩ | ⟨rfl, rfl, hactive, rfl⟩ | ⟨rfl, runAt, hrunAt, hadds⟩
      · exact explained_unchanged (.queuePaused hqueue)
      · exact explained_unchanged (.taskPaused htask)
      · cases hseen : m.snapshot.jobs.find? (activeDedupeMatch prepared.taskName (some dedupeKey)) with
        | some row =>
            have hmatch : activeDedupeMatch prepared.taskName (some dedupeKey) row := by
              simpa using find?_some hseen
            exact explained_unchanged
              (.finds _ ⟨dedupeKey, row, hkey, mem_of_find?_eq_some hseen, hmatch, rfl⟩)
        | none =>
            have hconflict : InvisibleConflict (.one prepared) m t' :=
              ⟨dedupeKey, hkey, hactive, find?_eq_none.1 hseen⟩
            simp only [queueDedupeEnqueueResultFromInsertOutcome, Option.map_none]
            split
            · rename_i hmore
              cases newId with
              | error reason => exact explained_unchanged (.jobId reason)
              | ok jobId => exact explained_unchanged (.retries _ hconflict hmore rfl rfl)
            · exact explained_unchanged (.conflicts _ _ hconflict (by omega))
      · simp only [insertedId, newRows_of_adds hadds]
        refine explained_inserts hrunAt ?_ rfl
        rw [Prepared.rows, Prepared.dedupeKey, hkey]
        exact hadds

theorem explained_executeEnqueue (prepared : Prepared π)
    {attemptIndex : Nat} (newId : Except String JobId)
    (hattempt : attemptIndex < maxQueueDedupeInsertAttempts) :
    Explained prepared attemptIndex m t (executeEnqueue m prepared attemptIndex newId t) := by
  cases prepared with
  | batch prepared => exact explained_batch prepared attemptIndex
  | one prepared =>
      unfold executeEnqueue
      cases hkey : prepared.dedupeKey with
      | none => simpa only [hkey] using explained_single prepared attemptIndex hkey
      | some dedupeKey => simpa only [hkey] using explained_dedupe prepared newId hkey hattempt

end Statements

section System

/-- An enqueue that is under way or has returned, with the statements that it has run:
each with what it met, latest first. -/
structure Call (π : Type) where
  prepared : Prepared π
  reading : Option (Moment π)
  statements : List (Moment π × Tables π)
  inserted : List (JobRow π)
  result : Option (Except EnqueueFailure (List EnqueueResult))

/-- An empty batch returns before any statement. -/
def Call.new (prepared : Prepared π) : Call π where
  prepared := prepared
  reading := none
  statements := []
  inserted := []
  result := if prepared.jobs = [] then some (.ok []) else none

/-- The statement takes its snapshot. -/
def Call.send (now : Int) (view : Tables π) (c : Call π) : Call π :=
  if c.result.isNone && c.reading.isNone then
    { c with reading := some ⟨now, view, fun _ => false, fun _ => false⟩ }
  else c

/-- The statement inserts, and the call reads its reply. -/
def Call.receive (newId : Except String JobId) (view : Tables π) (c : Call π) : Call π :=
  match c.result, c.reading with
  | none, some m =>
      let o := executeEnqueue m c.prepared c.statements.length newId view
      let c := { c with
        reading := none, statements := (m, view) :: c.statements, inserted := newRows view o.2 }
      match o.1 with
      | .returned result => { c with result := some result }
      | .again prepared => { c with prepared := .one prepared }
  | _, _ => c

def Call.fail (reason : String) (_ : Tables π) (c : Call π) : Call π :=
  if c.result.isNone then { c with reading := none, result := some (.error (.connection reason)) } else c

/-- A failed statement leaves a transaction that can only be rolled back. -/
def Call.broken (c : Call π) : Bool :=
  match c.result with
  | some (.error (.database _)) | some (.error (.connection _)) => true
  | _ => false

/-- The enqueues of one transaction, latest first, and whether it was committed in the end. -/
structure Transaction (π : Type) where
  calls : List (Call π)
  committed : Option Bool

def Transaction.rows (x : Transaction π) : List (JobRow π) := x.calls.flatMap Call.inserted

def Transaction.openRows (x : Transaction π) : List (JobRow π) :=
  if x.committed.isNone then x.rows else []

structure System (π : Type) where
  committed : Tables π
  transactions : List (Transaction π)

def System.empty : System π := ⟨Tables.empty, []⟩

def System.openRows (s : System π) : List (JobRow π) := s.transactions.flatMap Transaction.openRows

/-- The indexes hold every row, committed or not. A statement that meets an entry of an
open transaction waits for its end. -/
def fits (t : Tables π) (rows : List (JobRow π)) : Bool :=
  Constraint.all.all fun c => decide (c.Holds (t.jobs ++ rows) t.deadLetters)

/-- What a transaction sees: the committed rows and its own. -/
def System.view (s : System π) (x : Transaction π) : Tables π :=
  match s.committed.store (s.committed.jobs ++ x.openRows) s.committed.deadLetters with
  | .ok t => t
  | .error _ => s.committed

/-- A step of the latest call of an open transaction. -/
def System.onCall (s : System π) (k : Nat) (act : Tables π → Call π → Call π) : System π :=
  match s.transactions[k]? with
  | some ⟨c :: calls, none⟩ =>
      let s' := { s with
        transactions := s.transactions.set k ⟨act (s.view ⟨c :: calls, none⟩) c :: calls, none⟩ }
      if fits s.committed s'.openRows then s' else s
  | _ => s

inductive Event (π : Type)
  | begin
  | enqueue (transaction : Nat) (prepared : Prepared π)
  | send (transaction : Nat) (now : Int)
  | receive (transaction : Nat) (newId : Except String JobId)
  | fail (transaction : Nat) (reason : String)
  | finish (transaction : Nat) (commit : Bool)
  -- any other statement, as its transaction commits
  | other (m : Moment π) (statement : Statement π)

def System.enqueue (s : System π) (k : Nat) (prepared : Prepared π) : System π :=
  match s.transactions[k]? with
  | some ⟨calls, none⟩ =>
      if calls.all fun c => c.result.isSome && !c.broken then
        { s with transactions := s.transactions.set k ⟨Call.new prepared :: calls, none⟩ }
      else s
  | _ => s

def System.finish (s : System π) (k : Nat) (commit : Bool) : System π :=
  match s.transactions[k]? with
  | some ⟨calls, none⟩ =>
      if commit && calls.all fun c => c.result.isSome && !c.broken then
        match s.committed.store (s.committed.jobs ++ calls.flatMap Call.inserted) s.committed.deadLetters with
        | .ok committed => ⟨committed, s.transactions.set k ⟨calls, some true⟩⟩
        | .error _ => s
      else { s with transactions := s.transactions.set k ⟨calls, some false⟩ }
  | _ => s

def step (event : Event π) (s : System π) : System π × Unit :=
  match event with
  | .begin => ({ s with transactions := s.transactions ++ [⟨[], none⟩] }, ())
  | .enqueue k prepared => (s.enqueue k prepared, ())
  | .send k now => (s.onCall k (Call.send now), ())
  | .receive k newId => (s.onCall k (Call.receive newId), ())
  | .fail k reason => (s.onCall k (Call.fail reason), ())
  | .finish k commit => (s.finish k commit, ())
  | .other m statement =>
      match QueueChanges.run m statement s.committed with
      | .ok t => if fits t s.openRows then ({ s with committed := t }, ()) else (s, ())
      | .error _ => (s, ())

end System

section Truth

/-- What a call that returned its results did. -/
def Call.Succeeded (c : Call π) (results : List EnqueueResult) : Prop :=
  (c.prepared.jobs = [] ∧ c.inserted = [] ∧ results = []) ∨
    ∃ m t earlier, c.statements = (m, t) :: earlier ∧
      (Inserts c.prepared m t c.inserted results ∨ Finds c.prepared m results ∧ c.inserted = [])

/-- The results and the errors of a call are true of what its statements met. -/
structure Call.Truthful (c : Call π) : Prop where
  bounded : c.statements.length ≤ maxQueueDedupeInsertAttempts
  unfinished : c.result = none → c.inserted = [] ∧ c.statements.length < maxQueueDedupeInsertAttempts ∧
    ∀ s ∈ c.statements, InvisibleConflict c.prepared s.1 s.2
  succeeded : ∀ results, c.result = some (.ok results) → c.Succeeded results
  failed : ∀ e, c.result = some (.error e) → c.inserted = []
  queuePaused : c.result = some (.error .queuePaused) →
    ∃ m t earlier, c.statements = (m, t) :: earlier ∧ QueueOperations.queuePaused m = true
  taskPaused : c.result = some (.error .taskPaused) →
    ∃ m t earlier, c.statements = (m, t) :: earlier ∧
      QueueOperations.taskPaused m c.prepared.taskName = true
  exhausted : ∀ operation outcome, c.result = some (.error (.unexpectedOutcome operation outcome)) →
    c.statements.length = maxQueueDedupeInsertAttempts ∧
      ∀ s ∈ c.statements, InvisibleConflict c.prepared s.1 s.2

variable {c : Call π} {view : Tables π}

theorem truthful_new (prepared : Prepared π) : (Call.new prepared).Truthful := by
  by_cases hempty : prepared.jobs = []
  · simp only [Call.new, if_pos hempty]
    refine ⟨Nat.zero_le _, nofun, ?_, nofun, nofun, nofun, nofun⟩
    rintro results ⟨⟩
    exact .inl ⟨hempty, rfl, rfl⟩
  · simp only [Call.new, if_neg hempty]
    exact ⟨Nat.zero_le _, fun _ => ⟨rfl, Nat.zero_lt_succ 4, fun _ h => absurd h not_mem_nil⟩,
      nofun, nofun, nofun, nofun, nofun⟩

theorem truthful_send (now : Int) (h : c.Truthful) : (c.send now view).Truthful := by
  unfold Call.send
  split
  · exact ⟨h.bounded, h.unfinished, h.succeeded, h.failed, h.queuePaused, h.taskPaused, h.exhausted⟩
  · exact h

theorem truthful_fail (reason : String) (h : c.Truthful) : (c.fail reason view).Truthful := by
  unfold Call.fail
  split
  · rename_i hresult
    refine ⟨h.bounded, nofun, nofun,
      fun _ _ => (h.unfinished (Option.isNone_iff_eq_none.1 hresult)).1, nofun, nofun, nofun⟩
  · exact h

/-- A conflict is about the task and the key, not about the id that was tried. -/
theorem invisibleConflict_congr {prepared next : Prepared π} {m : Moment π} {t : Tables π}
    (htask : next.taskName = prepared.taskName) (hkey : next.dedupeKey = prepared.dedupeKey)
    (h : InvisibleConflict prepared m t) : InvisibleConflict next m t := by
  unfold InvisibleConflict
  rw [htask, hkey]
  exact h

theorem truthful_receive (newId : Except String JobId) (h : c.Truthful) :
    (c.receive newId view).Truthful := by
  unfold Call.receive
  cases hresult : c.result with
  | some result => exact h
  | none =>
      cases hreading : c.reading with
      | none => exact h
      | some m =>
          obtain ⟨-, hmore, hconflicts⟩ := h.unfinished hresult
          have hattempted :=
            (@explained_executeEnqueue π m view c.prepared c.statements.length newId hmore).attempted
          dsimp only
          generalize executeEnqueue m c.prepared c.statements.length newId view = o at hattempted ⊢
          obtain ⟨attempt, t'⟩ := o
          dsimp only at hattempted ⊢
          generalize newRows view t' = inserted at hattempted ⊢
          have hbounded : ((m, view) :: c.statements).length ≤ maxQueueDedupeInsertAttempts := hmore
          have hall : InvisibleConflict c.prepared m view →
              ∀ s ∈ (m, view) :: c.statements, InvisibleConflict c.prepared s.1 s.2 :=
                fun hconflict s hs => by
            rcases mem_cons.1 hs with rfl | hs
            · exact hconflict
            · exact hconflicts s hs
          cases hattempted with
          | inserts inserted results hinserts =>
              refine ⟨hbounded, nofun, ?_, nofun, nofun, nofun, nofun⟩
              rintro _ ⟨⟩
              exact .inr ⟨m, view, _, rfl, .inl hinserts⟩
          | finds results hfinds =>
              refine ⟨hbounded, nofun, ?_, nofun, nofun, nofun, nofun⟩
              rintro _ ⟨⟩
              exact .inr ⟨m, view, _, rfl, .inr ⟨hfinds, rfl⟩⟩
          | queuePaused hqueue =>
              exact ⟨hbounded, nofun, nofun, fun _ _ => rfl,
                fun _ => ⟨m, view, _, rfl, hqueue⟩, nofun, nofun⟩
          | taskPaused htask =>
              exact ⟨hbounded, nofun, nofun, fun _ _ => rfl,
                nofun, fun _ => ⟨m, view, _, rfl, htask⟩, nofun⟩
          | conflicts operation outcome hconflict hlast =>
              exact ⟨hbounded, nofun, nofun, fun _ _ => rfl,
                nofun, nofun, fun _ _ _ => ⟨hlast, hall hconflict⟩⟩
          | retries next hconflict hless htask hkey =>
              refine ⟨hbounded, fun _ => ⟨rfl, hless, fun s hs => ?_⟩,
                nofun, nofun, nofun, nofun, nofun⟩
              exact invisibleConflict_congr htask hkey (hall hconflict s hs)
          | database e => exact ⟨hbounded, nofun, nofun, fun _ _ => rfl, nofun, nofun, nofun⟩
          | jobId reason => exact ⟨hbounded, nofun, nofun, fun _ _ => rfl, nofun, nofun, nofun⟩

end Truth

section Runs

variable {s : System π}

theorem holds_perm {c : Constraint} {jobs jobs' : List (JobRow π)}
    {deadLetters : List (DeadLetterRow π)}
    (hperm : jobs ~ jobs') (h : c.Holds jobs deadLetters) : c.Holds jobs' deadLetters := by
  cases c with
  | numericDomains | statusLifecycleShape => exact fun row hrow => h row (hperm.mem_iff.2 hrow)
  | primaryKey => exact (hperm.map JobRow.id).nodup_iff.1 h
  | dedupeActive => exact (hperm.filterMap JobRow.activeDedupeKey).nodup_iff.1 h
  | deadLetterNumericDomains | deadLetterPrimaryKey | originalJob => exact h

theorem holds_sublist {c : Constraint} {jobs jobs' : List (JobRow π)}
    {deadLetters : List (DeadLetterRow π)}
    (hsub : jobs' <+ jobs) (h : c.Holds jobs deadLetters) : c.Holds jobs' deadLetters := by
  cases c with
  | numericDomains | statusLifecycleShape => exact fun row hrow => h row (hsub.mem hrow)
  | primaryKey => exact (hsub.map JobRow.id).nodup h
  | dedupeActive => exact (hsub.filterMap JobRow.activeDedupeKey).nodup h
  | deadLetterNumericDomains | deadLetterPrimaryKey | originalJob => exact h

theorem fits_iff {t : Tables π} {rows : List (JobRow π)} :
    fits t rows = true ↔ ∀ c : Constraint, c.Holds (t.jobs ++ rows) t.deadLetters := by
  simp only [fits, all_eq_true, decide_eq_true_eq]
  exact ⟨fun h c => h c c.mem_all, fun h c _ => h c⟩

/-- Every call tells the truth, and the rows of the open transactions have their place
beside the committed ones. -/
structure Inv (s : System π) : Prop where
  truthful : ∀ x ∈ s.transactions, ∀ c ∈ x.calls, c.Truthful
  fits : fits s.committed s.openRows = true

theorem getElem?_split {α : Type} {xs : List α} {k : Nat} {x : α} (h : xs[k]? = some x) :
    ∃ before after, xs = before ++ x :: after ∧ ∀ x', xs.set k x' = before ++ x' :: after := by
  obtain ⟨hk, rfl⟩ := List.getElem?_eq_some_iff.1 h
  refine ⟨xs.take k, xs.drop (k + 1), ?_,
    fun x' => set_eq_take_append_cons_drop .. |>.trans (if_pos hk)⟩
  rw [← drop_eq_getElem_cons hk, take_append_drop]

/-- The open rows of one transaction among those of all. -/
theorem openRows_set {k : Nat} {x : Transaction π}
    (h : s.transactions[k]? = some x) (x' : Transaction π) :
    ∃ before after, s.openRows = before ++ x.openRows ++ after ∧
      (s.transactions.set k x').flatMap Transaction.openRows = before ++ x'.openRows ++ after := by
  obtain ⟨before, after, heq, hset⟩ := getElem?_split h
  refine ⟨before.flatMap Transaction.openRows, after.flatMap Transaction.openRows, ?_, ?_⟩
  · rw [System.openRows, heq]
    simp
  · rw [hset]
    simp

theorem inv_onCall {k : Nat} {act : Tables π → Call π → Call π}
    (hact : ∀ view c, c.Truthful → (act view c).Truthful)
    (h : Inv s) : Inv (s.onCall k act) := by
  unfold System.onCall
  split
  · rename_i c calls hx
    dsimp only
    split
    · rename_i hfits
      refine ⟨fun x hx' => ?_, hfits⟩
      rcases mem_or_eq_of_mem_set hx' with hx' | rfl
      · exact h.truthful x hx'
      · have hcalls := h.truthful _ (mem_of_getElem? hx)
        intro c' hc'
        rcases mem_cons.1 hc' with rfl | hc'
        · exact hact _ c (hcalls c mem_cons_self)
        · exact hcalls c' (mem_cons_of_mem c hc')
    · exact h
  · exact h

theorem openRows_committed (calls : List (Call π)) (committed : Bool) :
    Transaction.openRows ⟨calls, some committed⟩ = [] := rfl

theorem openRows_open (calls : List (Call π)) :
    Transaction.openRows ⟨calls, none⟩ = calls.flatMap Call.inserted := rfl

theorem inv_enqueue {k : Nat} (prepared : Prepared π) (h : Inv s) : Inv (s.enqueue k prepared) := by
  unfold System.enqueue
  split
  · rename_i calls hx
    split
    · constructor
      · intro x hx'
        rcases mem_or_eq_of_mem_set hx' with hx' | rfl
        · exact h.truthful x hx'
        · intro c hc
          rcases mem_cons.1 hc with rfl | hc
          · exact truthful_new prepared
          · exact h.truthful _ (mem_of_getElem? hx) c hc
      · obtain ⟨before, after, hopen, hset⟩ := openRows_set hx ⟨Call.new prepared :: calls, none⟩
        have hsame : (s.transactions.set k ⟨Call.new prepared :: calls, none⟩).flatMap
          Transaction.openRows =
            s.openRows := by
          rw [hset, hopen]
          rfl
        rw [System.openRows, hsame]
        exact h.fits
    · exact h
  · exact h

/-- A commit stores all rows of its transaction. -/
theorem store_commit {k : Nat} {calls : List (Call π)}
    (h : Inv s) (hx : s.transactions[k]? = some ⟨calls, none⟩) :
    ∃ t, s.committed.store (s.committed.jobs ++
      calls.flatMap Call.inserted) s.committed.deadLetters = .ok t := by
  obtain ⟨before, after, hopen, -⟩ := openRows_set hx ⟨calls, none⟩
  refine Tables.store_isOk fun c => holds_sublist ?_ (fits_iff.1 h.fits c)
  rw [hopen, openRows_open]
  exact (Sublist.refl _).append ((sublist_append_right _ _).trans (sublist_append_left _ _))

theorem inv_finish {k : Nat} {commit : Bool} (h : Inv s) : Inv (s.finish k commit) := by
  unfold System.finish
  split
  · rename_i calls hx
    have htruthful : ∀ committed : Bool, ∀ x ∈ s.transactions.set k ⟨calls, some committed⟩,
        ∀ c ∈ x.calls, c.Truthful := by
      intro committed x hx'
      rcases mem_or_eq_of_mem_set hx' with hx' | rfl
      · exact h.truthful x hx'
      · exact h.truthful ⟨calls, none⟩ (mem_of_getElem? hx)
    split
    · obtain ⟨t, ht⟩ := store_commit h hx
      rw [ht]
      refine ⟨htruthful true, fits_iff.2 fun c => ?_⟩
      obtain ⟨hjobs, hdead, -⟩ := Tables.store_eq_ok ht
      obtain ⟨before, after, hopen, hset⟩ := openRows_set hx ⟨calls, some true⟩
      have hholds := fits_iff.1 h.fits c
      rw [hopen, openRows_open] at hholds
      dsimp only
      rw [System.openRows, hset, openRows_committed, hjobs, hdead, append_nil]
      refine holds_perm ?_ hholds
      rw [append_assoc, append_assoc]
      refine Perm.append_left _ ?_
      rw [← append_assoc, ← append_assoc]
      exact perm_append_comm.append_right after
    · refine ⟨htruthful false, fits_iff.2 fun c => ?_⟩
      obtain ⟨before, after, hopen, hset⟩ := openRows_set hx ⟨calls, some false⟩
      have hholds := fits_iff.1 h.fits c
      rw [hopen] at hholds
      dsimp only
      rw [System.openRows, hset, openRows_committed, append_nil]
      refine holds_sublist ?_ hholds
      exact (Sublist.refl _).append ((sublist_append_left _ _).append (Sublist.refl _))
  · exact h

theorem inv_step (event : Event π) (h : Inv s) : Inv (step event s).1 := by
  cases event with
  | begin =>
      refine ⟨fun x hx => ?_, ?_⟩
      · rcases mem_append.1 hx with hx | hx
        · exact h.truthful x hx
        · obtain rfl := mem_singleton.1 hx
          exact fun c hc => absurd hc not_mem_nil
      · have hsame : (s.transactions ++
          [(⟨[], none⟩ : Transaction π)]).flatMap Transaction.openRows = s.openRows := by
          rw [flatMap_append]
          exact append_nil _
        rw [step, System.openRows, hsame]
        exact h.fits
  | enqueue k prepared => exact inv_enqueue prepared h
  | send k now => exact inv_onCall (fun view c => truthful_send now) h
  | receive k newId => exact inv_onCall (fun view c => truthful_receive newId) h
  | fail k reason => exact inv_onCall (fun view c => truthful_fail reason) h
  | finish k commit => exact inv_finish h
  | other m statement =>
      simp only [step]
      split
      · split
        · rename_i hfits
          exact ⟨h.truthful, hfits⟩
        · exact h
      · exact h

theorem inv_empty : Inv (System.empty : System π) :=
  ⟨fun _ h => absurd h not_mem_nil,
    fits_iff.2 fun c => by cases c <;> simp [Constraint.Holds, System.empty,
    System.openRows, Tables.empty]⟩

theorem inv_exec (events : List (Event π)) : Inv (exec step events System.empty) := by
  induction events using reverseRecOn with
  | nil => exact inv_empty
  | append_singleton events event ih =>
      rw [exec_append]
      exact inv_step event ih

/-- A call tells the truth about its rows, a commit makes exactly them visible to others,
and a rollback none. -/
structure EnqueuesTruthful (s : System π) : Prop where
  truthful : ∀ x ∈ s.transactions, ∀ c ∈ x.calls, c.Truthful
  commits : ∀ k calls, s.transactions[k]? = some ⟨calls, none⟩ →
    (∀ c ∈ calls, c.result.isSome ∧ c.broken = false) →
    Adds s.committed (s.finish k true).committed (calls.flatMap Call.inserted)
  rollsBack : ∀ k, (s.finish k false).committed = s.committed

theorem enqueues_truthful (events : List (Event π)) :
    EnqueuesTruthful (exec step events System.empty) := by
  have h := inv_exec events
  refine ⟨h.truthful, fun k calls hx hcalls => ?_, fun k => ?_⟩
  · obtain ⟨t, ht⟩ := store_commit h hx
    have hall : (calls.all fun c => c.result.isSome && !c.broken) = true := by
      simpa using hcalls
    rw [System.finish, hx]
    simp only [Bool.true_and, hall, if_true, ht]
    obtain ⟨hjobs, hdead, hpauses⟩ := Tables.store_eq_ok ht
    exact ⟨hjobs, hdead, hpauses⟩
  · unfold System.finish
    split <;> rfl

/-- Two enqueues of one key read before either has inserted: the later one conflicts with a
job that it does not see, reads again and finds it. -/
example :
    let prepared (jobId : JobId) : Prepared Unit :=
      .one ⟨jobId, ⟨"report", by decide⟩, (), ⟨none, 5, 0, by decide⟩, some ⟨"daily", by decide⟩⟩
    let s := exec step [.begin, .begin, .enqueue 0 (prepared 1),
      .enqueue 1 (prepared 2), .send 0 10, .send 1 11,
      .receive 0 (.ok 3), .finish 0 true, .receive 1 (.ok 4),
        .send 1 12, .receive 1 (.ok 5)] System.empty
    s.transactions.map (fun x => x.calls.filterMap fun c => c.result.bind Except.toOption) =
      [[[⟨1, false⟩]], [[⟨1, true⟩]]] := by
  decide +kernel

end Runs

end Paranoid.QueueEnqueues
