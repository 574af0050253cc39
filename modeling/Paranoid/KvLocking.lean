import Mathlib.Logic.Function.Basic
import Paranoid.KvStore
import Paranoid.Transitions

namespace Paranoid.KvLocking

open KvAtomic

variable {O A V E : Type} [Inhabited V]

/-- A row version chain: an update continues it, an insert starts another. -/
structure Stored (V : Type) where
  incarnation : Nat
  row : Row V

/-- The operations of transactions on one key. A mutation outside of its caller's
transaction fails the transaction that it has for itself. -/
inductive Operation (A V E : Type)
  | mutateKeyAtomically (decideMutation : Int → Option V → Except E (A × AtomicMutation V)) (inCurrentTransaction : Bool)
  | setBytes (value : V) (ttl : Ttl)
  | setBytesIfNotExists (value : V) (ttl : Ttl)
  | deleteKey
  | deleteExpiredKeysOnce

/-- What an operation returns with `Ok`: a mutation its callback's answer, a cleanup how
many rows it has deleted. -/
inductive Reply (A : Type)
  | mutated (answer : A)
  | set
  | setIfNotExists (didSet : Bool)
  | deleted
  | cleanedUp (count : Nat)
  | committed
  deriving DecidableEq

/-- What an operation that has returned `Ok` did to the row. -/
structure Write (O A V : Type) where
  op : O
  reply : Reply A
  now : Int
  delay : Nat
  seen : Option V
  before : Option (Row V)
  after : Option (Row V)

def Write.call (w : Write O A V) : O × Reply A := (w.op, w.reply)

/-- Where a transaction is: a statement under way keeps its timestamp and its snapshot
of the row, and the mutation that has locked the row what its callback is shown. -/
inductive Phase (O V : Type)
  | idle
  | statement (op : O) (attempts : Nat) (now : Int) (snapshot : Option (Stored V))
  | retrying (op : O) (attempts : Nat)
  | locked (op : O) (insertedAbsentPlaceholder : Bool) (seen : Option V) (now : Int)
  | failed

/-- The call that a session has under way. -/
def Phase.op : Phase O V → Option O
  | .statement op .. | .retrying op _ | .locked op .. => some op
  | .idle | .failed => none

/-- `written` is ghost state, as is the log of the system: the writes that wait for
the commit, and those of the commits. -/
structure Session (O A V : Type) where
  phase : Phase O V
  written : List (Write O A V)

/-- The row as committed, and the transaction that has it locked or has changed it,
with the row as that transaction left it. The unique index gives an absent row the
same single owner. -/
structure System (O A V : Type) where
  committed : Option (Stored V)
  holder : Option (Nat × Option (Stored V))
  nextIncarnation : Nat
  sessions : Nat → Session O A V
  log : List (Write O A V)

def rowOf (cell : Option (Stored V)) : Option (Row V) := cell.map (·.row)

def System.start (committed : Option (Stored V)) : System O A V :=
  ⟨committed, none, 0, fun _ => ⟨.idle, []⟩, []⟩

section Rows

variable (s : System O A V) (i : Nat)

/-- Another transaction in progress has the row. -/
def System.blocked : Bool := s.holder.any (·.1 ≠ i)

/-- The row as the transaction's own statements find it. -/
def System.cell : Option (Stored V) :=
  match s.holder with
  | some (j, working) => if j = i then working else s.committed
  | none => s.committed

def System.put (session : Session O A V) : System O A V :=
  { s with sessions := Function.update s.sessions i session }

def System.enter (phase : Phase O V) : System O A V := s.put i { s.sessions i with phase }

/-- The transaction holds the row, with these contents. -/
def System.hold (working : Option (Stored V)) (phase : Phase O V) (written : List (Write O A V)) :
    System O A V :=
  { s with holder := some (i, working) }.put i ⟨phase, written⟩

/-- The row version that a write leaves: the next of its chain, or the first of one. -/
def System.version (row : Row V) : Stored V :=
  match s.cell i with
  | some stored => { stored with row }
  | none => ⟨s.nextIncarnation, row⟩

end Rows

/-- What a step returns: nothing while an operation goes on, then its result. -/
abbrev Output (A E : Type) : Type := Option (Except E (Reply A))

variable (operation : O → Operation A V E) (lift : KvError → E)

/-- A failed statement leaves nothing to its transaction but the rollback. -/
def fail (s : System O A V) (i : Nat) (e : KvError) : System O A V × Output A E :=
  (s.enter i .failed, some (.error (lift e)))

def refusedPhase (inCurrentTransaction : Bool) : Phase O V :=
  if inCurrentTransaction then .idle else .failed

section Statements

variable (s : System O A V) (i : Nat) (op : O) (now : Int) (snapshot : Option (Stored V))

/-- The lock of `locked_existing` is on the newest version of the row that the snapshot
shows. Where there is none left, the insert meets the row that is there, if any. -/
def lockKeyForAtomicMutation (inCurrentTransaction : Bool) (attempts : Nat) :
    System O A V × Output A E :=
  match KvStatements.kvTimestampMicros now with
  | .error e => fail lift s i (.database e)
  | .ok _ =>
      let placeholder : Stored V := ⟨s.nextIncarnation, ⟨default, some now⟩⟩
      match s.cell i with
      | none =>
          ({ s with nextIncarnation := s.nextIncarnation + 1 }.hold i (some placeholder)
            (.locked op true (liveValue now (some placeholder.row)) now) (s.sessions i).written, none)
      | some stored =>
          if snapshot.any (·.incarnation = stored.incarnation) then
            (s.hold i (some stored) (.locked op false (liveValue now (some stored.row)) now)
              (s.sessions i).written, none)
          else if attempts ≤ 1 then
            (s.enter i (refusedPhase inCurrentTransaction),
              some (.error (lift .atomicMutationCouldNotLockKey)))
          else (s.enter i (.retrying op (attempts - 1)), none)

/-- A write of the row, which stays locked. -/
def write (reply : Reply A) (after : Option (Row V)) : System O A V × Output A E :=
  let written : Write O A V := ⟨op, reply, now, 0, none, rowOf (s.cell i), after⟩
  ({ s with nextIncarnation := s.nextIncarnation + 1 }.hold i (after.map (s.version i)) .idle
    ((s.sessions i).written ++ [written]), some (.ok reply))

def setBytes (value : V) (ttl : Ttl) : System O A V × Output A E :=
  match setValueAndTtl now value ttl with
  | .error e => fail lift s i e
  | .ok row => write s i op now .set (some row)

/-- The row is locked also where it has not expired. -/
def setBytesIfNotExists (value : V) (ttl : Ttl) : System O A V × Output A E :=
  match setValueAndTtl now value ttl with
  | .error e => fail lift s i e
  | .ok row =>
      if (liveValue now (rowOf (s.cell i))).isNone then write s i op now (.setIfNotExists true) (some row)
      else (s.hold i (s.cell i) .idle (s.sessions i).written, some (.ok (.setIfNotExists false)))

/-- The condition is checked in the snapshot, and again once the row is locked. -/
def deleteWhere (condition : Row V → Bool) (reply : Reply A) (otherwise : Except E (Reply A)) :
    System O A V × Output A E :=
  match s.cell i with
  | none => (s.enter i .idle, some otherwise)
  | some stored =>
      if snapshot.any (·.incarnation = stored.incarnation) then
        if condition stored.row then write s i op now reply none
        else (s.hold i (some stored) .idle (s.sessions i).written, some otherwise)
      else (s.enter i .idle, some otherwise)

/-- A statement that reaches the row. Where another transaction has it, a statement
waits, and a cleanup skips the row. -/
def proceed (attempts : Nat) : System O A V × Output A E :=
  match operation op with
  | .mutateKeyAtomically _ inCurrentTransaction =>
      if s.blocked i then (s, none)
      else lockKeyForAtomicMutation lift s i op now snapshot inCurrentTransaction attempts
  | .setBytes value ttl => if s.blocked i then (s, none) else setBytes lift s i op now value ttl
  | .setBytesIfNotExists value ttl =>
      if s.blocked i then (s, none) else setBytesIfNotExists lift s i op now value ttl
  | .deleteKey =>
      if !snapshot.any (·.row.isLive now) then (s.enter i .idle, some (.error (lift .keyNotFound)))
      else if s.blocked i then (s, none)
      else deleteWhere s i op now snapshot (·.isLive now) .deleted (.error (lift .keyNotFound))
  | .deleteExpiredKeysOnce =>
      if !snapshot.any (!·.row.isLive now) || s.blocked i then (s.enter i .idle, some (.ok (.cleanedUp 0)))
      else deleteWhere s i op now snapshot (!·.isLive now) (.cleanedUp 1) (.ok (.cleanedUp 0))

end Statements

/-- The callback of a mutation that has locked the row, and the write that it decides on. -/
def applyAtomicMutation (s : System O A V) (i : Nat) (op : O)
    (insertedAbsentPlaceholder : Bool) (seen : Option V) (now : Int)
    (delay : Nat) : System O A V × Output A E :=
  match operation op, s.cell i with
  | .mutateKeyAtomically decideMutation inCurrentTransaction, some stored =>
      let undone : Option (Stored V) := if insertedAbsentPlaceholder then none else some stored
      let commitTo (answer : A) (after : Option (Stored V)) : System O A V × Output A E :=
        let written : Write O A V := ⟨op, .mutated answer, now, delay, seen, rowOf undone, rowOf after⟩
        (s.hold i after .idle ((s.sessions i).written ++ [written]), some (.ok (.mutated answer)))
      match decideMutation now seen with
      | .error e =>
          (s.hold i (if inCurrentTransaction then undone else some stored)
            (refusedPhase inCurrentTransaction)
            (s.sessions i).written, some (.error e))
      | .ok (answer, .keepExisting) => commitTo answer undone
      | .ok (answer, .setValue value ttl) =>
          match setValueAndTtl (now + delay) value ttl with
          | .error e => fail lift s i e
          | .ok row => commitTo answer (some { stored with row })
      | .ok (answer, .setValuePreservingExpiration value) =>
          if seen.isNone then
            (s.hold i undone (refusedPhase inCurrentTransaction) (s.sessions i).written,
              some (.error (lift .keyNotFound)))
          else commitTo answer (some { stored with row := { stored.row with value } })
      | .ok (answer, .delete) => commitTo answer none
  | _, _ => (s, none)

inductive Input (O : Type)
  | call (session : Nat) (op : O) (now : Int)
  | retry (session : Nat) (now : Int)
  | proceed (session : Nat)
  | decide (session : Nat) (delay : Nat)
  | commit (session : Nat)
  | rollback (session : Nat)

/-- The row is free again, as the transaction left it or as it was. -/
def release (s : System O A V) (i : Nat) (committed : Option (Stored V))
    (log : List (Write O A V)) : System O A V :=
  { s with committed, log, holder := if s.blocked i then s.holder else none }.put i ⟨.idle, []⟩

def step (input : Input O) (s : System O A V) : System O A V × Output A E :=
  match input with
  | .call i op now =>
      match (s.sessions i).phase with
      | .idle => (s.enter i (.statement op KvStore.lockAttempts now (s.cell i)), none)
      | _ => (s, none)
  | .retry i now =>
      match (s.sessions i).phase with
      | .retrying op attempts => (s.enter i (.statement op attempts now (s.cell i)), none)
      | _ => (s, none)
  | .proceed i =>
      match (s.sessions i).phase with
      | .statement op attempts now snapshot => proceed operation lift s i op now snapshot attempts
      | _ => (s, none)
  | .decide i delay =>
      match (s.sessions i).phase with
      | .locked op placeholder seen now =>
          applyAtomicMutation operation lift s i op placeholder seen now delay
      | _ => (s, none)
  | .commit i =>
      match (s.sessions i).phase with
      | .idle => (release s i (s.cell i) (s.log ++ (s.sessions i).written), some (.ok .committed))
      | _ => (s, none)
  | .rollback i => (release s i s.committed s.log, none)

/-- What an observer of the run knows: the call that each session has under way, those
that have returned `Ok` in its transaction, with their replies, and the calls of the
transactions that have committed, in the order of the commits. -/
structure Observed (O A : Type) where
  underWay : Nat → Option O
  pending : Nat → List (O × Reply A)
  committed : List (O × Reply A)

def Observed.start : Observed O A := ⟨fun _ => none, fun _ => [], []⟩

section Observe

variable (o : Observed O A) (i : Nat)

/-- The transaction of a session has ended. -/
def Observed.ended (committed : List (O × Reply A)) : Observed O A :=
  ⟨Function.update o.underWay i none, Function.update o.pending i [], committed⟩

/-- The call of a session returns, if its output is a result. -/
def Observed.returned : Output A E → Observed O A
  | none => o
  | some (.error _) => { o with underWay := Function.update o.underWay i none }
  | some (.ok reply) =>
      { o with
        underWay := Function.update o.underWay i none
        pending := Function.update o.pending i
          (o.pending i ++ ((o.underWay i).map fun op => (op, reply)).toList) }

end Observe

/-- A session's call is under way until it returns; a session makes one call at a time. -/
def observe (entry : Input O × Output A E) (o : Observed O A) : Observed O A :=
  match entry with
  | (.call i op _, _) =>
      { o with underWay := Function.update o.underWay i (some ((o.underWay i).getD op)) }
  | (.retry i _, output) | (.proceed i, output) | (.decide i _, output) => o.returned i output
  | (.commit i, some (.ok _)) => o.ended i (o.committed ++ o.pending i)
  | (.commit _, _) => o
  | (.rollback i, _) => o.ended i o.committed

/-- The calls of committed transactions that returned `Ok`, with their replies. -/
def committedCalls (entries : List (Input O × Output A E)) : List (O × Reply A) :=
  (entries.foldl (fun o entry => observe entry o) .start).committed

/-- The reply says that the row was written, or kept by a mutation that had it locked. -/
def Reply.wrote : Reply A → Bool
  | .setIfNotExists didSet => didSet
  | .cleanedUp count => count ≠ 0
  | .committed => false
  | _ => true

/-- The calls that wrote, by their replies. -/
def wrote (calls : List (O × Reply A)) : List (O × Reply A) := calls.filter (·.2.wrote)

end Paranoid.KvLocking
