import Mathlib.Data.List.Sort
import Mathlib.Logic.Function.Basic
import Paranoid.KvAtomic
import Paranoid.PaddedDecimal

namespace Paranoid.TopicModel

open KvAtomic PaddedDecimal Postgres

variable {κ D : Type} [DecidableEq κ]

inductive TopicError
  | topicSequenceOverflow
  | invalidTopicEventSequenceSuffix (keySuffix : String)
  | kv (error : KvError)
  deriving DecidableEq

def topicSequenceKeySuffix (sequence : Nat) : String := String.ofList (padded 20 sequence)

def parseTopicSequenceKeySuffix (keySuffix : String) : Except TopicError Nat :=
  if keySuffix.toList.length ≠ 20 ∨ !keySuffix.toList.all Char.isDigit ∨ i64Max < value keySuffix.toList then
    throw (.invalidTopicEventSequenceSuffix keySuffix)
  else return value keySuffix.toList

/-- An event as its row has it, under the key suffix of its sequence. -/
structure EventRow (D : Type) where
  sequence : Nat
  publishedAt : Int
  data : D
  expiresAt : Option Int

def EventRow.keySuffix (row : EventRow D) : String := topicSequenceKeySuffix row.sequence

def EventRow.isLive (now : Int) (row : EventRow D) : Bool := row.expiresAt.all (now < ·)

structure TopicEvent (D : Type) where
  sequence : Nat
  publishedAt : Int
  data : D

def EventRow.event (row : EventRow D) : TopicEvent D := ⟨row.sequence, row.publishedAt, row.data⟩

def scannedTopicEventsToPublicEvents (rows : List (EventRow D)) :
    Except TopicError (List (TopicEvent D)) :=
  rows.mapM fun row =>
    do return ⟨← parseTopicSequenceKeySuffix row.keySuffix, row.publishedAt, row.data⟩

/-- The scan of the live event rows after the suffix of a sequence, in key order. -/
def fetchEventsAfter (now : Int) (pollLimit : Nat) (rows : List (EventRow D)) (afterSequence : Nat) :
    Except TopicError (List (TopicEvent D)) :=
  scannedTopicEventsToPublicEvents
    (((rows.filter fun row =>
      topicSequenceKeySuffix afterSequence < row.keySuffix && row.isLive now).insertionSort
      fun a b => a.keySuffix ≤ b.keySuffix).take pollLimit)

/-- A sequence that a transaction took, and the event that it then stored under it. -/
structure Allocation (D : Type) where
  sequence : Nat
  row : Option (EventRow D)

/-- The rows of a topic: its sequence, its events and the cursors of its subscriptions. -/
structure Store (κ D : Type) where
  sequence : Option Nat
  events : List (EventRow D)
  cursors : κ → Option Nat

/-- Where a transaction is in a call of the topic or of a subscription. -/
inductive Phase (κ : Type)
  | idle
  | allocated (sequence : Nat) (publishedAt : Int)
  | cursorFetched (subscription : κ) (cursor : Nat)
  | eventsFetched (subscription : κ) (newCursor : Nat)
  | failed

/-- A transaction in progress: the rows that it has written, and holds locked. -/
structure Transaction (κ D : Type) where
  phase : Phase κ
  allocations : List (Allocation D)
  cursors : κ → Option Nat

def Transaction.idle : Transaction κ D := ⟨.idle, [], fun _ => none⟩

def Transaction.sequence (tx : Transaction κ D) : Option Nat := tx.allocations.getLast?.map (·.sequence)

def Transaction.events (tx : Transaction κ D) : List (EventRow D) := tx.allocations.filterMap (·.row)

/-- A scan that was returned to a subscriber. -/
structure Read (κ D : Type) where
  subscription : κ
  now : Int
  afterSequence : Nat
  events : List (TopicEvent D)

structure Batch (D : Type) where
  now : Int
  afterSequence : Nat
  events : List (TopicEvent D)

/-- The cursor after a batch. -/
def Batch.last (batch : Batch D) : Nat :=
  (batch.events.getLast?.map (·.sequence)).getD batch.afterSequence

/-- Where a polling loop is: `polling` is the top of its loop, and `checked` is after the
check of its leadership there. -/
inductive PollPhase (D : Type)
  | stopped
  | claiming
  | polling (cursor : Option Nat)
  | checked (cursor : Option Nat)
  | fetched (batch : Batch D)
  | handling (batch : Batch D)
  | handled (batch : Batch D)
  | advanced (newCursor : Nat)

/-- A polling loop. The cursor from which its run began, and the batches that the run has
passed to its handler, are ghost state. -/
structure Poller (D : Type) where
  phase : PollPhase D
  leadershipLost : Bool
  start : Option Nat
  delivered : List (Batch D)

/-- A topic with its transactions and the polling loops of its subscriptions. The
sequences taken by committed transactions, the reads, and the batches that a handler
accepted or failed on, are ghost state. -/
structure System (κ D : Type) where
  store : Store κ D
  sequenceHolder : Option Nat
  cursorHolder : κ → Option Nat
  transactions : Nat → Transaction κ D
  pollers : κ → Nat → Poller D
  guard : κ → Option (Nat × Int)
  allocations : List (Allocation D)
  reads : List (Read κ D)
  accepted : κ → List (Batch D)
  failed : κ → List (Batch D)

def Poller.stopped : Poller D := ⟨.stopped, false, none, []⟩

def System.start : System κ D where
  store := ⟨none, [], fun _ => none⟩
  sequenceHolder := none
  cursorHolder _ := none
  transactions _ := .idle
  pollers _ _ := .stopped
  guard _ := none
  allocations := []
  reads := []
  accepted _ := []
  failed _ := []

def nextSequence (current : Option Nat) : Except TopicError Nat :=
  if i64Max ≤ (current.getD 0 : Nat) then throw .topicSequenceOverflow else return current.getD 0 + 1

/-- The cursor that an advance leaves, where there was `current`. -/
def advancedCursor (current : Option Nat) (sequence : Nat) : Nat :=
  match current with
  | none => sequence
  | some currentSequence => if sequence ≤ currentSequence then currentSequence else sequence

/-- A row that no other transaction has locked. -/
def free (holder : Option Nat) (tx : Nat) : Bool := holder.all (· = tx)

section Steps

variable (ttl : Ttl) (pollLimit : κ → Nat) (claimMicroseconds : Int) (s : System κ D)

def System.put (i : Nat) (tx : Transaction κ D) : System κ D :=
  { s with transactions := Function.update s.transactions i tx }

def System.enter (i : Nat) (phase : Phase κ) : System κ D := s.put i { s.transactions i with phase }

abbrev Result (κ D : Type) : Type := System κ D × Except TopicError Unit

section Transactions

variable (i : Nat)

/-- The committed rows and the transaction's own. -/
def System.visible : List (EventRow D) := s.store.events ++ (s.transactions i).events

/-- The first half of a publish: the sequence row stays locked until the transaction ends. -/
def allocate (now : Int) : Result κ D :=
  let tx := s.transactions i
  if !free s.sequenceHolder i then (s, .ok ())
  else
    let s := { s with sequenceHolder := some i }
    match nextSequence (tx.sequence.or s.store.sequence) with
    | .error e => (s, .error e)
    | .ok sequence =>
        let taken : Allocation D := ⟨sequence, none⟩
        (s.put i { tx with
          phase := .allocated sequence now, allocations := tx.allocations ++ [taken] }, .ok ())

/-- The second half: the event under its sequence. -/
def storeEvent (sequence : Nat) (publishedAt now : Int) (data : D) : Result κ D :=
  let tx := s.transactions i
  match setValueAndTtl now data ttl with
  | .error e => (s.enter i .failed, .error (.kv e))
  | .ok row =>
      let stored : Allocation D := ⟨sequence, some ⟨sequence, publishedAt, data, row.expiresAt⟩⟩
      (s.put i { tx with phase := .idle, allocations := tx.allocations.dropLast ++ [stored] }, .ok ())

def fetchCursor (subscription : κ) : Nat :=
  (((s.transactions i).cursors subscription).or (s.store.cursors subscription)).getD 0

def fetchEvents (subscription : κ) (cursor : Nat) (now : Int) : Result κ D :=
  match fetchEventsAfter now (pollLimit subscription) (s.visible i) cursor with
  | .error e => (s.enter i .idle, .error e)
  | .ok events =>
      let read : Read κ D := ⟨subscription, now, cursor, events⟩
      let s := { s with reads := s.reads ++ [read] }
      match events.getLast? with
      | none => (s.enter i .idle, .ok ())
      | some last => (s.enter i (.eventsFetched subscription last.sequence), .ok ())

def advanceCursorIfNeeded (subscription : κ) (sequence : Nat) : Result κ D :=
  let tx := s.transactions i
  if !free (s.cursorHolder subscription) i then (s, .ok ())
  else
    let cursor := advancedCursor ((tx.cursors subscription).or (s.store.cursors subscription)) sequence
    let s := { s with cursorHolder := Function.update s.cursorHolder subscription (some i) }
    (s.put i { tx with
      phase := .idle, cursors := Function.update tx.cursors subscription (some cursor) }, .ok ())

/-- The locks of a transaction go with it. -/
def release : System κ D :=
  let sequenceHolder := if s.sequenceHolder = some i then none else s.sequenceHolder
  let cursorHolder := fun k => if s.cursorHolder k = some i then none else s.cursorHolder k
  { s with sequenceHolder, cursorHolder }.put i .idle

def commit : System κ D :=
  let tx := s.transactions i
  let store := ⟨tx.sequence.or s.store.sequence, s.visible i,
    fun k => (tx.cursors k).or (s.store.cursors k)⟩
  release { s with store, allocations := s.allocations ++ tx.allocations } i

end Transactions

section Polling

variable (k : κ) (p : Nat)

def System.setPoller (poller : Poller D) : System κ D :=
  { s with pollers := Function.update s.pollers k (Function.update (s.pollers k) p poller) }

def System.pollerEnter (phase : PollPhase D) : System κ D :=
  s.setPoller k p { s.pollers k p with phase }

/-- The end of a run. The guard is released where it still is the loop's own, unless the
process is gone. -/
def endRun (released : Bool) : System κ D :=
  let guard := if released && (s.guard k).any (·.1 = p) then Function.update s.guard k none else s.guard
  { s with guard }.pollerEnter k p .stopped

def setGuard (now : Int) : System κ D :=
  { s with guard := Function.update s.guard k (some (p, now + claimMicroseconds)) }

inductive PollAction
  | start
  | claim (now : Int)
  | renew (now : Int)
  | loseLeadership
  | check
  | retry
  | fetchCursor
  | fetchEvents (now : Int)
  | handle
  | handlerReturns (accepts : Bool)
  | advanceCursor
  | next
  | stop (released : Bool)

/-- Reads and writes of a loop are transactions of their own. A poll that fails and may be
retried goes back to the top of the loop, with the cursor that it had. -/
def poll (action : PollAction) : Result κ D :=
  let poller := s.pollers k p
  match action, poller.phase with
  | .start, .stopped => (s.setPoller k p { Poller.stopped with phase := .claiming }, .ok ())
  | .claim now, .claiming =>
      if (s.guard k).all (·.2 ≤ now) then
        ((setGuard claimMicroseconds s k p now).pollerEnter k p (.polling none), .ok ())
      else (s, .ok ())
  | .renew now, _ =>
      if (s.guard k).any fun held => held.1 = p ∧ now < held.2 then (setGuard claimMicroseconds s k p now, .ok ())
      else (s, .ok ())
  | .loseLeadership, _ => (s.setPoller k p { poller with leadershipLost := true }, .ok ())
  | .check, .polling cursor =>
      if poller.leadershipLost then (endRun s k p true, .ok ()) else (s.pollerEnter k p (.checked cursor), .ok ())
  | .retry, .checked cursor => (s.pollerEnter k p (.polling cursor), .ok ())
  | .fetchCursor, .checked none =>
      let cursor := (s.store.cursors k).getD 0
      (s.setPoller k p { poller with phase := .checked (some cursor), start := some cursor }, .ok ())
  | .fetchEvents now, .checked (some cursor) =>
      match fetchEventsAfter now (pollLimit k) s.store.events cursor with
      | .error e => (endRun s k p true, .error e)
      | .ok events =>
          let read : Read κ D := ⟨k, now, cursor, events⟩
          let s := { s with reads := s.reads ++ [read] }
          if events.isEmpty then (s.pollerEnter k p (.polling (some cursor)), .ok ())
          else (s.pollerEnter k p (.fetched ⟨now, cursor, events⟩), .ok ())
  | .handle, .fetched batch =>
      if poller.leadershipLost then (endRun s k p true, .ok ())
      else (s.setPoller k p { poller with
        phase := .handling batch, delivered := poller.delivered ++ [batch] }, .ok ())
  | .handlerReturns accepts, .handling batch =>
      if accepts then
        let s := { s with accepted := Function.update s.accepted k (s.accepted k ++ [batch]) }
        if poller.leadershipLost then (endRun s k p true, .ok ())
        else (s.pollerEnter k p (.handled batch), .ok ())
      else (endRun { s with failed := Function.update s.failed k (s.failed k ++ [batch]) }
        k p true, .ok ())
  | .advanceCursor, .handled batch =>
      if (s.cursorHolder k).isNone then
        let cursor := advancedCursor (s.store.cursors k) batch.last
        let store := { s.store with cursors := Function.update s.store.cursors k (some cursor) }
        ({ s with store }.pollerEnter k p (.advanced batch.last), .ok ())
      else (s, .ok ())
  | .next, .advanced cursor =>
      if poller.leadershipLost then (endRun s k p true, .ok ()) else (s.pollerEnter k p (.polling (some cursor)), .ok ())
  | .stop released, _ => (endRun s k p released, .ok ())
  | _, _ => (s, .ok ())

end Polling

end Steps

inductive Input (κ D : Type)
  | allocate (tx : Nat) (now : Int)
  | storeEvent (tx : Nat) (now : Int) (data : D)
  | dropPublish (tx : Nat)
  | fetchCursor (tx : Nat) (subscription : κ)
  | fetchEvents (tx : Nat) (now : Int)
  | advanceCursor (tx : Nat)
  | commit (tx : Nat)
  | rollback (tx : Nat)
  | poll (subscription : κ) (poller : Nat) (action : PollAction)

/-- A publish may be given up between its statements, where its event does not encode or
its caller drops it; the transaction is then still the caller's to end. -/
def step (ttl : Ttl) (pollLimit : κ → Nat) (claimMicroseconds : Int)
    (input : Input κ D) (s : System κ D) : Result κ D :=
  match input with
  | .allocate i now =>
      match (s.transactions i).phase with
      | .idle => allocate s i now
      | _ => (s, .ok ())
  | .storeEvent i now data =>
      match (s.transactions i).phase with
      | .allocated sequence publishedAt => storeEvent ttl s i sequence publishedAt now data
      | _ => (s, .ok ())
  | .dropPublish i =>
      match (s.transactions i).phase with
      | .allocated _ _ => (s.enter i .idle, .ok ())
      | _ => (s, .ok ())
  | .fetchCursor i subscription =>
      match (s.transactions i).phase with
      | .idle => (s.enter i (.cursorFetched subscription (fetchCursor s i subscription)), .ok ())
      | _ => (s, .ok ())
  | .fetchEvents i now =>
      match (s.transactions i).phase with
      | .cursorFetched subscription cursor => fetchEvents pollLimit s i subscription cursor now
      | _ => (s, .ok ())
  | .advanceCursor i =>
      match (s.transactions i).phase with
      | .eventsFetched subscription sequence => advanceCursorIfNeeded s i subscription sequence
      | _ => (s, .ok ())
  | .commit i =>
      match (s.transactions i).phase with
      | .failed => (s, .ok ())
      | _ => (commit s i, .ok ())
  | .rollback i => (release s i, .ok ())
  | .poll k p action => poll pollLimit claimMicroseconds s k p action

end Paranoid.TopicModel
