import Mathlib.Data.Fintype.Basic
import Mathlib.Data.Fintype.Pi
import Mathlib.Logic.Function.Basic
import Paranoid.ProtocolOperations
import Paranoid.Savepoints

namespace Paranoid.ProtocolModel

open ProtocolOperations Savepoints

def supportedEpoch : Int := 1

def supportedFingerprint : String := "paranoid.protocol.pre9-state.v1"

inductive ProtocolError
  | incompatible (activeEpoch supportedEpoch : Int) (reason : String)
  | state (reason : String)
  deriving DecidableEq

inductive Isolation
  | readUncommitted
  | readCommitted
  | repeatableRead
  | serializable
  deriving DecidableEq

structure ControlRecord where
  singleton : Int
  epoch : Int
  fingerprint : String
  deriving DecidableEq

/-- The rows of a protocol table, or nothing where the relation is absent or has another
shape. -/
abbrev Relation : Type := Option (List ControlRecord)

def validateControlRecord (isolation : Isolation) (record : ControlRecord) :
    Except ProtocolError Unit := do
  if record.singleton ≠ 1 ∨ record.epoch < 1 ∨ record.fingerprint.utf8ByteSize = 0 ∨
      256 < record.fingerprint.utf8ByteSize then
    throw (.state "protocol control record is outside its declared domain")
  if isolation ≠ .readCommitted then
    throw (.state "protocol admission requires a READ COMMITTED transaction")
  if record.epoch ≠ supportedEpoch ∨ record.fingerprint ≠ supportedFingerprint then
    throw (.incompatible record.epoch supportedEpoch
      (if record.epoch = supportedEpoch then "fingerprint mismatch" else "unsupported epoch"))

def validateRows (isolation : Isolation) : Relation → Except ProtocolError Unit
  | none => throw (.state "protocol relation is absent or has an incompatible shape")
  | some [record] => validateControlRecord isolation record
  | some _ => throw (.state "expected exactly one protocol control record")

/-- What a transaction holds of the protocol tables since the start of a frame. A flag
for an admission that succeeded stands beside its lock. -/
structure Holdings (κ : Type) where
  shared : κ → Bool
  exclusive : κ → Bool
  writes : κ → Option Relation
  admitted : κ → Bool

section Holdings

variable {κ : Type} [DecidableEq κ]

def Holdings.none : Holdings κ := ⟨fun _ => false, fun _ => false, fun _ => .none, fun _ => false⟩

def Holdings.absorb (outer inner : Holdings κ) : Holdings κ where
  shared p := outer.shared p || inner.shared p
  exclusive p := outer.exclusive p || inner.exclusive p
  writes p := (inner.writes p).or (outer.writes p)
  admitted p := outer.admitted p || inner.admitted p

def Holdings.share (p : κ) (admitted : Bool) (held : Holdings κ) : Holdings κ :=
  { held with
    shared := Function.update held.shared p true
    admitted := Function.update held.admitted p (held.admitted p || admitted) }

def Holdings.lock (p : κ) (held : Holdings κ) : Holdings κ :=
  { held with exclusive := Function.update held.exclusive p true }

def Holdings.write (p : κ) (relation : Relation) (held : Holdings κ) : Holdings κ :=
  { held with writes := Function.update held.writes p (some relation) }

/-- A lock of any mode; a write holds one as well. -/
def Holdings.Any (p : κ) (held : Holdings κ) : Prop :=
  held.shared p = true ∨ held.exclusive p = true ∨ (held.writes p).isSome = true

instance (p : κ) : DecidablePred (Holdings.Any p) := fun _ => inferInstanceAs (Decidable (_ ∨ _ ∨ _))

instance {α : Type} (P : α → Prop) [DecidablePred P] (frames : Frames α) : Decidable (Holds P frames) :=
  inferInstanceAs (Decidable (∃ frame ∈ frames, P frame.data))

end Holdings

/-- A connection with the transaction object on it. There are no frames outside of a
transaction block. -/
structure Session (κ : Type) where
  live : Bool
  frames : Frames (Holdings κ)
  aborted : Bool
  isolation : Isolation
  admittedProtocols : κ → Bool
  body : Body κ

structure System (ι κ : Type) where
  relation : κ → Relation
  sessions : ι → Session κ

section Sessions

variable {κ : Type} (session : Session κ)

def Session.closed : Session κ := ⟨false, [], false, .readCommitted, fun _ => false, .done⟩

/-- `BEGIN ISOLATION LEVEL READ COMMITTED READ WRITE`. -/
def Session.begun : Session κ := ⟨true, start .none, false, .readCommitted, fun _ => false, .done⟩

def Session.idle : Bool :=
  match session.body with
  | .done => session.live
  | _ => false

/-- An error aborts the innermost savepoint, or the whole transaction, with its locks. -/
def Session.failed (body : Body κ) : Session κ :=
  { session with
    frames := abort .none session.frames, aborted := session.aborted || !session.frames.isEmpty, body }

def Session.savepoint (name : String) : Option (Session κ) :=
  if session.aborted || session.frames.isEmpty then .none
  else some { session with frames := Savepoints.savepoint .none name session.frames }

def Session.rollbackTo (name : String) : Option (Session κ) :=
  (Savepoints.rollbackTo .none name session.frames).map fun frames =>
  { session with frames, aborted := false }

def Session.release (name : String) : Option (Session κ) :=
  if session.aborted then .none
  else (Savepoints.release Holdings.absorb name .none session.frames).map fun frames =>
    { session with frames }

/-- The outcome of a command that the server may have refused. -/
def Session.orFailed (answer : Bool) (result : Option (Session κ)) (next : Body κ) : Session κ :=
  match answer, result with
  | true, some session => { session with body := next }
  | _, _ => session.failed .done

/-- `sqlx_transaction` forgets the admissions. -/
def Session.forgetting : Session κ := { session with admittedProtocols := fun _ => false }

/-- The rows that a statement of the session sees. A snapshot of the transaction is
taken at levels that admission refuses. -/
def Session.visible (committed : κ → Relation) (protocol : κ) : Relation :=
  (session.frames.findSome? fun frame => frame.data.writes protocol).getD (committed protocol)

section Commands

variable {session} {after : Session κ} {name : String}

theorem savepoint_eq_some (h : session.savepoint name = some after) :
    session.aborted = false ∧
      after = { session with frames := Savepoints.savepoint .none name session.frames } := by
  unfold Session.savepoint at h
  split at h
  · cases h
  · rename_i hrunning
    rw [Bool.or_eq_true, not_or, Bool.not_eq_true] at hrunning
    exact ⟨hrunning.1, (Option.some.inj h).symm⟩

theorem rollbackTo_eq_some (h : session.rollbackTo name = some after) :
    ∃ frames, Savepoints.rollbackTo .none name session.frames = some frames ∧
      after = { session with frames, aborted := false } := by
  obtain ⟨frames, hframes, rfl⟩ := Option.map_eq_some_iff.1 h
  exact ⟨frames, hframes, rfl⟩

theorem release_eq_some (h : session.release name = some after) :
    ∃ frames, Savepoints.release Holdings.absorb name .none session.frames = some frames ∧
      after = { session with frames } := by
  unfold Session.release at h
  split at h
  · cases h
  · obtain ⟨frames, hframes, rfl⟩ := Option.map_eq_some_iff.1 h
    exact ⟨frames, hframes, rfl⟩

end Commands

variable [DecidableEq κ]

def Session.takeShared (protocol : κ) (admitted : Bool) : Session κ :=
  { session with frames := update (Holdings.share protocol admitted) session.frames }

def Session.takeExclusive (protocol : κ) : Session κ :=
  { session with frames := update (Holdings.lock protocol) session.frames }

def Session.takeWrite (protocol : κ) (relation : Relation) : Session κ :=
  { session with frames := update (Holdings.write protocol relation) session.frames }

end Sessions

section Steps

variable {ι κ : Type} [Fintype ι] [DecidableEq ι] [DecidableEq κ] (s : System ι κ) (i : ι)

def System.put (session : Session κ) : System ι κ :=
  { s with sessions := Function.update s.sessions i session }

/-- No other session's lock conflicts with one that only an exclusive lock conflicts with. -/
def System.Sharable (protocol : κ) : Prop :=
  ∀ j, j ≠ i → ¬Holds (fun held => held.exclusive protocol = true) (s.sessions j).frames

def System.Free (protocol : κ) : Prop :=
  ∀ j, j ≠ i → ¬Holds (Holdings.Any protocol) (s.sessions j).frames

instance (protocol : κ) : Decidable (s.Sharable i protocol) := inferInstanceAs (Decidable (∀ _, _ → _))

instance (protocol : κ) : Decidable (s.Free i protocol) := inferInstanceAs (Decidable (∀ _, _ → _))

/-- The writes of the session take effect, unless it has been aborted. -/
def System.publish (session : Session κ) : System ι κ :=
  if session.aborted then s else { s with relation := fun p => session.visible s.relation p }

/-- A statement on a component table. -/
structure Sent (ι κ : Type) where
  session : ι
  protocol : κ
  executed : Bool
  deriving DecidableEq

abbrev Result (ι κ : Type) : Type := System ι κ × List (Sent ι κ)

/-- Outside of a transaction block the lock is gone when the query is over. The query
waits for a conflicting lock. -/
def protocolAdmit (protocol : κ) (answer : Bool) (next : Body κ) : System ι κ :=
  let session := s.sessions i
  if session.admittedProtocols protocol then s.put i { session with body := next }
  else if session.aborted || !answer then s.put i (session.failed .done)
  else if s.Sharable i protocol then
    match session.visible s.relation protocol with
    | .none => s.put i (session.failed .done)
    | some rows =>
        match validateRows session.isolation (some rows) with
        | .error _ => s.put i { session.takeShared protocol false with body := .done }
        | .ok () => s.put i { session.takeShared protocol true with
            admittedProtocols := Function.update session.admittedProtocols protocol true, body := next }
  else s

/-- In a transaction that an error has aborted the server refuses every statement. -/
def statement (answer : Bool) (next onError : Body κ) : System ι κ :=
  let session := s.sessions i
  if session.aborted then s.put i { session with body := onError }
  else if answer then s.put i { session with body := next }
  else s.put i (session.failed onError)

/-- The operation under way goes on. Where it sends nothing, the answer picks the branch. -/
def advance (answer : Bool) : Result ι κ :=
  let session := s.sessions i
  match session.body with
  | .done => (s, [])
  | .admission protocol next => (protocolAdmit s i protocol answer next, [])
  | .component protocol next onError =>
      (statement s i answer next onError, [⟨i, protocol, !session.aborted⟩])
  | .other next onError => (statement s i answer next onError, [])
  | .savepoint name next => (s.put i (session.orFailed answer (session.savepoint name) next), [])
  | .rollbackTo name next => (s.put i (session.orFailed answer (session.rollbackTo name) next), [])
  | .release name next => (s.put i (session.orFailed answer (session.release name) next), [])
  | .choose first second => (s.put i { session with body := if answer then first else second }, [])

/-- What a caller's own SQL may do to the transaction and to the protocol tables. -/
inductive RawSql (κ : Type)
  | savepoint (name : String)
  | rollbackTo (name : String)
  | release (name : String)
  | commit
  | rollback
  | begin (isolation : Isolation)
  | setIsolation (isolation : Isolation)
  | lockShared (protocol : κ)
  | lockExclusive (protocol : κ)
  | write (protocol : κ) (relation : Relation)
  | other

def raw (answer : Bool) (sql : RawSql κ) : System ι κ :=
  let session := (s.sessions i).forgetting
  let failed := s.put i (session.failed .done)
  match sql with
  | .savepoint name => s.put i (session.orFailed answer (session.savepoint name) .done)
  | .rollbackTo name => s.put i (session.orFailed answer (session.rollbackTo name) .done)
  | .release name => s.put i (session.orFailed answer (session.release name) .done)
  | .commit => (s.publish session).put i { session with frames := [], aborted := false }
  | .rollback => s.put i { session with frames := [], aborted := false }
  | .begin isolation =>
      if session.frames.isEmpty then s.put i { session with frames := start .none, aborted := false, isolation }
      else s.put i session
  | .setIsolation isolation =>
      if session.aborted || !answer then failed else s.put i { session with isolation }
  | .lockShared protocol =>
      if session.aborted || !answer then failed
      else if s.Sharable i protocol then s.put i (session.takeShared protocol false)
      else s
  | .lockExclusive protocol =>
      if session.aborted || !answer then failed
      else if s.Free i protocol then s.put i (session.takeExclusive protocol)
      else s
  | .write protocol relation =>
      if session.aborted || !answer then failed
      else if s.Sharable i protocol then
        if session.frames.isEmpty then
          { s.put i session with relation := Function.update s.relation protocol relation }
        else s.put i (session.takeWrite protocol relation)
      else s
  | .other => if answer then s.put i session else failed

inductive Input (ι κ : Type)
  | begin (i : ι)
  | finish (i : ι) (commit : Bool)
  | call (i : ι) (protocol : κ) (operation : Operation)
  | advance (i : ι) (answer : Bool)
  | cancel (i : ι)
  | raw (i : ι) (answer : Bool) (sql : RawSql κ)

/-- The handle of the transaction is borrowed while an operation is under way, which may
be dropped at any of its steps. -/
def step (input : Input ι κ) (s : System ι κ) : Result ι κ :=
  match input with
  | .begin i => (if (s.sessions i).live then s else s.put i .begun, [])
  | .finish i commit =>
      (if (s.sessions i).idle then (if commit then s.publish (s.sessions i) else s).put
        i .closed else s, [])
  | .call i protocol operation =>
      (if (s.sessions i).idle then s.put i
        { s.sessions i with body := operation.body protocol } else s, [])
  | .advance i answer => advance s i answer
  | .cancel i => (s.put i { s.sessions i with body := .done }, [])
  | .raw i answer sql => (if (s.sessions i).idle then raw s i answer sql else s, [])

/-- The session that takes the step. -/
def Input.session : Input ι κ → ι
  | .begin i | .finish i _ | .call i _ _ | .advance i _ | .cancel i | .raw i _ _ => i

def System.initial (relation : κ → Relation) : System ι κ := ⟨relation, fun _ => .closed⟩

end Steps

section Put

variable {ι κ : Type} {s : System ι κ} {i : ι} {session : Session κ}

@[simp] theorem publish_sessions : (s.publish session).sessions = s.sessions := by
  unfold System.publish
  split <;> rfl

variable [DecidableEq ι]

@[simp] theorem put_sessions_self : (s.put i session).sessions i = session := Function.update_self _ _ _

theorem put_sessions_ne {j : ι} (h : j ≠ i) : (s.put i session).sessions j = s.sessions j :=
  Function.update_of_ne h _ _

@[simp] theorem put_relation : (s.put i session).relation = s.relation := rfl

theorem put_forall {P : Session κ → Prop} (h : ∀ k, P (s.sessions k)) (hsession : P session) (k : ι) :
    P ((s.put i session).sessions k) := by
  by_cases hk : k = i
  · subst hk
    rwa [put_sessions_self]
  · rw [put_sessions_ne hk]
    exact h k

end Put

end Paranoid.ProtocolModel
