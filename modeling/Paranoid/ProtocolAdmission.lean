import Paranoid.ProtocolSessions
import Paranoid.Transitions

namespace Paranoid.ProtocolAdmission

open ProtocolModel ProtocolOperations ProtocolSessions Savepoints Transitions

variable {ι κ : Type}

section Changes

/-- A row with the epoch and the fingerprint of this release, and no other. -/
def Supported (relation : Relation) : Prop :=
  ∃ record, relation = some [record] ∧ record.epoch = supportedEpoch ∧
    record.fingerprint = supportedFingerprint

theorem supported_of_validateRows {isolation : Isolation} {relation : Relation}
    (h : validateRows isolation relation = .ok ()) : Supported relation := by
  unfold validateRows at h
  split at h
  · cases h
  · rename_i record
    refine ⟨record, rfl, ?_⟩
    unfold validateControlRecord at h
    simp only [bind, Except.bind, throw, throwThe, MonadExceptOf.throw, pure, Except.pure] at h
    split at h
    · cases h
    · split at h
      · cases h
      · split at h
        · cases h
        · rename_i hsame
          rw [not_or, not_not, not_not] at hsame
          exact hsame
  · cases h

variable [DecidableEq κ]

/-- What one step can do to the frames of the session that takes it. -/
inductive FrameChange (s : System ι κ) (input : Input ι κ) : Frames (Holdings κ) → Prop
  | kept : FrameChange s input (s.sessions input.session).frames
  | left : FrameChange s input []
  | started : FrameChange s input (start .none)
  | aborted : FrameChange s input (abort .none (s.sessions input.session).frames)
  | opened (name : String) : FrameChange s input (savepoint .none name (s.sessions input.session).frames)
  | returned {name : String} {frames : Frames (Holdings κ)}
      (h : rollbackTo .none name (s.sessions input.session).frames = some frames) :
      FrameChange s input frames
  | released {name : String} {frames : Frames (Holdings κ)}
      (h : release Holdings.absorb name .none (s.sessions input.session).frames = some frames) :
      FrameChange s input frames
  | shared {p : κ} {admitted : Bool} (hsharable : s.Sharable input.session p)
      (hadmitted : admitted = true → Supported ((s.sessions input.session).visible s.relation p)) :
      FrameChange s input (update (Holdings.share p admitted) (s.sessions input.session).frames)
  | locked {p : κ} (hfree : s.Free input.session p) :
      FrameChange s input (update (Holdings.lock p) (s.sessions input.session).frames)
  | wrote {p : κ} {relation : Relation} {answer : Bool} (hsharable : s.Sharable input.session p)
      (hinput : input = .raw input.session answer (.write p relation)) :
      FrameChange s input (update (Holdings.write p relation) (s.sessions input.session).frames)

theorem change_orFailed {s : System ι κ} {input : Input ι κ} {session : Session κ} {next : Body κ}
    (hsession : session.frames = (s.sessions input.session).frames)
    (answer : Bool) {result : Option (Session κ)}
    (hresult : ∀ after, result = some after → FrameChange s input after.frames) :
    FrameChange s input (session.orFailed answer result next).frames := by
  unfold Session.orFailed
  split
  · rename_i after
    exact hresult after rfl
  · rw [Session.failed, hsession]
    exact .aborted

variable [DecidableEq ι]

/-- The other sessions are as they were. -/
def Turn (s : System ι κ) (input : Input ι κ) (after : System ι κ) : Prop :=
  ∃ session : Session κ, FrameChange s input session.frames ∧
    after.sessions = Function.update s.sessions input.session session

variable {s : System ι κ} {input : Input ι κ} {session : Session κ}

theorem turn_kept : Turn s input s := ⟨_, .kept, (Function.update_eq_self _ _).symm⟩

theorem turn_put (h : FrameChange s input session.frames) :
    Turn s input (s.put input.session session) :=
  ⟨session, h, rfl⟩

theorem turn_statement (answer : Bool) (next onError : Body κ) :
    Turn s input (statement s input.session answer next onError) := by
  unfold statement
  dsimp only
  split
  · exact turn_put .kept
  · split
    · exact turn_put .kept
    · exact turn_put .aborted

theorem turn_savepoint (hsession : session.frames = (s.sessions input.session).frames)
    (answer : Bool) (name : String)
    (next : Body κ) : Turn s input
    (s.put input.session (session.orFailed answer (session.savepoint name) next)) := by
  refine turn_put (change_orFailed hsession answer fun after hafter => ?_)
  obtain ⟨-, rfl⟩ := savepoint_eq_some hafter
  rw [hsession]
  exact .opened name

theorem turn_rollbackTo (hsession : session.frames = (s.sessions input.session).frames)
    (answer : Bool) (name : String)
    (next : Body κ) : Turn s input
    (s.put input.session (session.orFailed answer (session.rollbackTo name) next)) := by
  refine turn_put (change_orFailed hsession answer fun after hafter => ?_)
  obtain ⟨frames, hframes, rfl⟩ := rollbackTo_eq_some hafter
  rw [hsession] at hframes
  exact .returned hframes

theorem turn_release (hsession : session.frames = (s.sessions input.session).frames)
    (answer : Bool) (name : String)
    (next : Body κ) : Turn s input
    (s.put input.session (session.orFailed answer (session.release name) next)) := by
  refine turn_put (change_orFailed hsession answer fun after hafter => ?_)
  obtain ⟨frames, hframes, rfl⟩ := release_eq_some hafter
  rw [hsession] at hframes
  exact .released hframes

variable [Fintype ι]

theorem turn_admit (p : κ) (answer : Bool) (next : Body κ) :
    Turn s input (protocolAdmit s input.session p answer next) := by
  unfold protocolAdmit
  dsimp only
  split
  · exact turn_put .kept
  · split
    · exact turn_put .aborted
    · split
      · rename_i hsharable
        split
        · exact turn_put .aborted
        · rename_i rows hrows
          split
          · exact turn_put (.shared hsharable nofun)
          · rename_i hvalid
            refine turn_put (.shared hsharable fun _ => ?_)
            rw [hrows]
            exact supported_of_validateRows hvalid
      · exact turn_kept

theorem turn_advance (answer : Bool) : Turn s input (advance s input.session answer).1 := by
  unfold advance
  dsimp only
  split
  · exact turn_kept
  · exact turn_admit _ answer _
  · exact turn_statement answer _ _
  · exact turn_statement answer _ _
  · exact turn_savepoint rfl answer _ _
  · exact turn_rollbackTo rfl answer _ _
  · exact turn_release rfl answer _ _
  · exact turn_put .kept

theorem turn_raw (answer : Bool) (sql : RawSql κ) (hinput : input = .raw input.session answer sql) :
    Turn s input (raw s input.session answer sql) := by
  have hforgetting : (s.sessions input.session).forgetting.frames =
    (s.sessions input.session).frames := rfl
  unfold raw
  dsimp only
  cases sql with
  | savepoint name =>
      dsimp only
      exact turn_savepoint hforgetting answer name .done
  | rollbackTo name =>
      dsimp only
      exact turn_rollbackTo hforgetting answer name .done
  | release name =>
      dsimp only
      exact turn_release hforgetting answer name .done
  | commit => exact ⟨_, .left, by rw [System.put, publish_sessions]⟩
  | rollback => exact turn_put .left
  | begin isolation =>
      dsimp only
      split
      · exact turn_put .started
      · exact turn_put .kept
  | setIsolation isolation =>
      dsimp only
      split
      · exact turn_put .aborted
      · exact turn_put .kept
  | lockShared p =>
      dsimp only
      split
      · exact turn_put .aborted
      · split
        · rename_i hsharable
          exact turn_put (.shared hsharable nofun)
        · exact turn_kept
  | lockExclusive p =>
      dsimp only
      split
      · exact turn_put .aborted
      · split
        · rename_i hfree
          exact turn_put (.locked hfree)
        · exact turn_kept
  | write p relation =>
      dsimp only
      split
      · exact turn_put .aborted
      · split
        · rename_i hsharable
          split
          · exact ⟨(s.sessions input.session).forgetting, .kept, rfl⟩
          · exact turn_put (.wrote hsharable hinput)
        · exact turn_kept
  | other =>
      dsimp only
      split
      · exact turn_put .kept
      · exact turn_put .aborted

theorem turn_step (input : Input ι κ) (s : System ι κ) : Turn s input (step input s).1 := by
  unfold step
  cases input with
  | begin i =>
      dsimp only
      split
      · exact turn_kept
      · exact ⟨.begun, .started, rfl⟩
  | finish i commit =>
      dsimp only
      split
      · refine ⟨.closed, .left, ?_⟩
        split
        · rw [System.put, publish_sessions]
          rfl
        · rfl
      · exact turn_kept
  | call i p operation =>
      dsimp only
      split
      · exact ⟨{ s.sessions i with body := operation.body p }, .kept, rfl⟩
      · exact turn_kept
  | advance i answer => exact turn_advance answer
  | cancel i => exact ⟨{ s.sessions i with body := .done }, .kept, rfl⟩
  | raw i answer sql =>
      dsimp only
      split
      · exact turn_raw answer sql rfl
      · exact turn_kept

end Changes

section Gains

theorem sharable_of_free {s : System ι κ} {i : ι} {p : κ} (h : s.Free i p) : s.Sharable i p :=
  fun j hj hexclusive =>
  h j hj (hexclusive.imp fun _ hframe => ⟨hframe.1, .inr (.inl hframe.2)⟩)

variable [DecidableEq κ] {s : System ι κ} {input : Input ι κ} {P : Holdings κ → Prop} {Q : Prop}

/-- A frame comes to satisfy `P` in a step only where `Q` does. -/
structure OnlyGained (s : System ι κ) (input : Input ι κ) (P : Holdings κ → Prop) (Q : Prop) :
    Prop where
  none : ¬P .none
  absorb : ∀ a b, P (a.absorb b) → P a ∨ P b
  share : ∀ p admitted held, s.Sharable input.session p →
    (admitted = true → Supported ((s.sessions input.session).visible s.relation p)) →
    P (held.share p admitted) → P held ∨ Q
  lock : ∀ p held, s.Free input.session p → P (held.lock p) → P held ∨ Q
  write : ∀ p relation held answer, s.Sharable input.session p →
    input = .raw input.session answer (.write p relation) → P (held.write p relation) → P held ∨ Q

theorem OnlyGained.holds_of_change (h : OnlyGained s input P Q) {frames : Frames (Holdings κ)}
    (hchange : FrameChange s input frames) (hP : Holds P frames) :
    Holds P (s.sessions input.session).frames ∨ Q := by
  cases hchange with
  | kept => exact .inl hP
  | left => exact absurd hP holds_nil
  | started => exact absurd hP (holds_start h.none)
  | aborted => exact .inl (holds_of_abort h.none hP)
  | opened name => exact .inl ((holds_savepoint h.none).1 hP)
  | returned hback => exact .inl (holds_of_rollbackTo h.none hback hP)
  | released hrelease => exact .inl ((holds_of_release h.absorb hrelease hP).resolve_left h.none)
  | shared hsharable hadmitted =>
      exact holds_of_update (fun held => h.share _ _ held hsharable hadmitted) hP
  | locked hfree => exact holds_of_update (fun held => h.lock _ held hfree) hP
  | wrote hsharable hinput => exact holds_of_update (fun held => h.write _ _ held _ hsharable hinput) hP

/-- The run form: every session satisfies `P` where it did, and the one that took the
step also where `Q` holds. -/
theorem OnlyGained.holds_step [DecidableEq ι] [Fintype ι] (h : OnlyGained s input P Q) {k : ι}
    (hP : Holds P ((step input s).1.sessions k).frames) :
    Holds P (s.sessions k).frames ∨ k = input.session ∧ Q := by
  obtain ⟨session, hchange, hsessions⟩ := turn_step input s
  rw [hsessions] at hP
  by_cases hk : k = input.session
  · subst hk
    rw [Function.update_self] at hP
    exact (h.holds_of_change hchange hP).imp_right fun hQ => ⟨rfl, hQ⟩
  · rw [Function.update_of_ne hk] at hP
    exact .inl hP

theorem exclusive_gained (p : κ) :
    OnlyGained s input (fun held => held.exclusive p = true) (s.Free input.session p) where
  none := nofun
  absorb a b h := by simpa [Holdings.absorb] using h
  share q admitted held _ _ h := .inl h
  lock q held hfree h := by
    by_cases hq : p = q
    · subst hq
      exact .inr hfree
    · exact .inl (by simpa [Holdings.lock, hq] using h)
  write q relation held answer _ _ h := .inl h

theorem any_gained (p : κ) : OnlyGained s input (Holdings.Any p) (s.Sharable input.session p) where
  none := by simp [Holdings.Any, Holdings.none]
  absorb a b h := by
    simp only [Holdings.Any, Holdings.absorb, Bool.or_eq_true, Option.isSome_or] at h ⊢
    tauto
  share q admitted held hsharable _ h := by
    by_cases hq : p = q
    · subst hq
      exact .inr hsharable
    · exact .inl (by simpa [Holdings.Any, Holdings.share, hq] using h)
  lock q held hfree h := by
    by_cases hq : p = q
    · subst hq
      exact .inr (sharable_of_free hfree)
    · exact .inl (by simpa [Holdings.Any, Holdings.lock, hq] using h)
  write q relation held answer hsharable _ h := by
    by_cases hq : p = q
    · subst hq
      exact .inr hsharable
    · exact .inl (by simpa [Holdings.Any, Holdings.write, hq] using h)

/-- The mark of an admission and its lock come and go together. -/
theorem unlocked_gained (p : κ) :
    OnlyGained s input (fun held => held.admitted p = true ∧ held.shared p = false) False where
  none h := nomatch h.1
  absorb a b h := by
    simp only [Holdings.absorb, Bool.or_eq_true, Bool.or_eq_false_iff] at h ⊢
    tauto
  share q admitted held _ _ h := by
    by_cases hq : p = q
    · subst hq
      simp [Holdings.share] at h
    · exact .inl (by simpa [Holdings.share, hq] using h)
  lock q held _ h := .inl h
  write q relation held answer _ _ h := .inl h

theorem admitted_gained (p : κ) :
    OnlyGained s input (fun held => held.admitted p = true)
      (Supported ((s.sessions input.session).visible s.relation p)) where
  none := nofun
  absorb a b h := by simpa [Holdings.absorb] using h
  share q admitted held _ hadmitted h := by
    by_cases hq : p = q
    · subst hq
      simp only [Holdings.share, Function.update_self, Bool.or_eq_true] at h
      exact h.imp_right hadmitted
    · exact .inl (by simpa [Holdings.share, hq] using h)
  lock q held _ h := .inl h
  write q relation held answer _ _ h := .inl h

/-- The input writes a supported row into the protocol table. -/
def WritesSupported (p : κ) (input : Input ι κ) : Prop :=
  ∃ answer relation, input = .raw input.session answer (.write p relation) ∧ Supported relation

theorem supportedWrite_gained (p : κ) :
    OnlyGained s input (fun held => ∃ relation, held.writes p = some relation ∧ Supported relation)
      (WritesSupported p input) where
  none := nofun
  absorb a b h := by
    obtain ⟨relation, hwrites, hsupported⟩ := h
    rcases Option.or_eq_some_iff.1 hwrites with hb | ⟨-, ha⟩
    · exact .inr ⟨relation, hb, hsupported⟩
    · exact .inl ⟨relation, ha, hsupported⟩
  share q admitted held _ _ h := .inl h
  lock q held _ h := .inl h
  write q relation held answer _ hinput h := by
    by_cases hq : p = q
    · subst hq
      obtain ⟨written, hwrites, hsupported⟩ := h
      simp only [Holdings.write, Function.update_self, Option.some.injEq] at hwrites
      subst hwrites
      exact .inr ⟨answer, relation, hinput, hsupported⟩
    · exact .inl (by simpa [Holdings.write, hq] using h)

end Gains

section Runs

variable {s : System ι κ} {input : Input ι κ} {p : κ}

/-- An `ACCESS EXCLUSIVE` lock shuts out every other lock on the protocol table, and an
admission is marked only beside its lock. -/
structure Exclusion (s : System ι κ) : Prop where
  locks : ∀ {i j} p, i ≠ j → Holds (fun held => held.exclusive p = true) (s.sessions i).frames →
    ¬Holds (Holdings.Any p) (s.sessions j).frames
  marks : ∀ k p, ¬Holds (fun held => held.admitted p = true ∧ held.shared p = false)
    (s.sessions k).frames

theorem exclusion_initial (relation : κ → Relation) : Exclusion (.initial relation : System ι κ) :=
  ⟨fun _ _ _ => holds_nil, fun _ _ => holds_nil⟩

theorem Exclusion.any_of_admitted (h : Exclusion s) {k : ι}
    (hadmitted : Holds (fun held => held.admitted p = true) (s.sessions k).frames) :
    Holds (Holdings.Any p) (s.sessions k).frames := by
  obtain ⟨frame, hmem, hframe⟩ := hadmitted
  refine ⟨frame, hmem, .inl ?_⟩
  by_contra hshared
  exact h.marks k p ⟨frame, hmem, hframe, Bool.not_eq_true _ ▸ hshared⟩

theorem publish_relation (session : Session κ) (p : κ) :
    (s.publish session).relation p = s.relation p ∨
    (s.publish session).relation p = session.visible s.relation p := by
  unfold System.publish
  split
  · exact .inl rfl
  · exact .inr rfl

/-- No session can be admitted: nothing that is committed, or that a transaction under way
would commit, is supported. -/
structure Shut (p : κ) (s : System ι κ) : Prop where
  relation : ¬Supported (s.relation p)
  writes : ∀ k, ¬Holds (fun held => ∃ relation,
    held.writes p = some relation ∧ Supported relation) (s.sessions k).frames
  admitted : ∀ k, ¬Holds (fun held => held.admitted p = true) (s.sessions k).frames

theorem Shut.visible (h : Shut p s) (k : ι) : ¬Supported ((s.sessions k).visible s.relation p) := by
  unfold Session.visible
  cases hwrite : (s.sessions k).frames.findSome? fun frame => frame.data.writes p with
  | none => exact h.relation
  | some relation =>
      obtain ⟨frame, hmem, hframe⟩ := List.exists_of_findSome?_eq_some hwrite
      exact fun hsupported => h.writes k ⟨frame, hmem, relation, hframe, hsupported⟩

/-- A transaction that holds an `ACCESS EXCLUSIVE` lock on the protocol table commits
something else than one supported row. -/
structure ChangesEpoch (p : κ) (input : Input ι κ) (s : System ι κ) : Prop where
  commits : input = .finish input.session true ∨ ∃ answer, input = .raw input.session answer .commit
  idle : (s.sessions input.session).idle = true
  running : (s.sessions input.session).aborted = false
  exclusive : Holds (fun held => held.exclusive p = true) (s.sessions input.session).frames
  unsupported : ¬Supported ((s.sessions input.session).visible s.relation p)

variable [DecidableEq ι] [Fintype ι] [DecidableEq κ]

theorem exclusion_step (input : Input ι κ) (h : Exclusion s) : Exclusion (step input s).1 where
  locks {i j} p hij hexclusive hany := by
    have hi := (exclusive_gained p).holds_step hexclusive
    have hj := (any_gained p).holds_step hany
    rcases hi with hi | ⟨rfl, hfree⟩
    · rcases hj with hj | ⟨rfl, hsharable⟩
      · exact h.locks p hij hi hj
      · exact hsharable i hij hi
    · rcases hj with hj | ⟨rfl, -⟩
      · exact hfree j hij.symm hj
      · exact hij rfl
  marks k p hmark := by
    rcases (unlocked_gained p).holds_step hmark with hmark | ⟨-, hfalse⟩
    · exact h.marks k p hmark
    · exact hfalse

theorem advance_relation (i : ι) (answer : Bool) : (advance s i answer).1.relation = s.relation := by
  unfold advance
  dsimp only
  split
  · rfl
  · unfold protocolAdmit
    dsimp only
    split
    · rfl
    · split
      · rfl
      · split
        · split
          · rfl
          · split <;> rfl
        · rfl
  · unfold statement
    dsimp only
    split
    · rfl
    · split <;> rfl
  · unfold statement
    dsimp only
    split
    · rfl
    · split <;> rfl
  all_goals rfl

theorem raw_relation (i : ι) (answer : Bool) (sql : RawSql κ) (p : κ) :
    (raw s i answer sql).relation p = s.relation p ∨
      (raw s i answer sql).relation p = (s.sessions i).visible s.relation p ∨
      sql = .write p ((raw s i answer sql).relation p) := by
  unfold raw
  dsimp only
  cases sql with
  | savepoint name | rollbackTo name | release name | rollback => exact .inl rfl
  | commit =>
      rcases publish_relation (s.sessions i).forgetting p with h | h
      · exact .inl h
      · exact .inr (.inl h)
  | begin isolation =>
      dsimp only
      split <;> exact .inl rfl
  | setIsolation isolation =>
      dsimp only
      split <;> exact .inl rfl
  | lockShared q =>
      dsimp only
      split
      · exact .inl rfl
      · split <;> exact .inl rfl
  | lockExclusive q =>
      dsimp only
      split
      · exact .inl rfl
      · split <;> exact .inl rfl
  | write q relation =>
      dsimp only
      split
      · exact .inl rfl
      · split
        · split
          · by_cases hp : p = q
            · subst hp
              exact .inr (.inr (by simp))
            · exact .inl (by simp [hp])
          · exact .inl rfl
        · exact .inl rfl
  | other =>
      dsimp only
      split <;> exact .inl rfl

/-- The committed rows change where a transaction commits, or a statement outside of one
writes them. -/
theorem relation_step (input : Input ι κ) (s : System ι κ) (p : κ) :
    (step input s).1.relation p = s.relation p ∨
      (step input s).1.relation p = (s.sessions input.session).visible s.relation p ∨
      ∃ answer, input = .raw input.session answer (.write p ((step input s).1.relation p)) := by
  unfold step
  cases input with
  | begin i =>
      dsimp only
      split <;> exact .inl rfl
  | finish i commit =>
      dsimp only
      split
      · split
        · exact (publish_relation (s.sessions i) p).imp_right .inl
        · exact .inl rfl
      · exact .inl rfl
  | call i q operation =>
      dsimp only
      split <;> exact .inl rfl
  | advance i answer =>
      dsimp only
      rw [advance_relation]
      exact .inl rfl
  | cancel i => exact .inl rfl
  | raw i answer sql =>
      dsimp only
      split
      · rcases raw_relation i answer sql p with h | h | h
        · exact .inl h
        · exact .inr (.inl h)
        · exact .inr (.inr ⟨answer, congrArg (Input.raw i answer) h⟩)
      · exact .inl rfl

theorem shut_step (h : Shut p s) (hinput : ¬WritesSupported p input) : Shut p (step input s).1 where
  relation hsupported := by
    rcases relation_step input s p with hkept | hvisible | ⟨answer, hwritten⟩
    · rw [hkept] at hsupported
      exact h.relation hsupported
    · rw [hvisible] at hsupported
      exact h.visible input.session hsupported
    · exact hinput ⟨answer, _, hwritten, hsupported⟩
  writes k hwrite := by
    rcases (supportedWrite_gained p).holds_step hwrite with hwrite | ⟨-, hwrite⟩
    · exact h.writes k hwrite
    · exact hinput hwrite
  admitted k hadmitted := by
    rcases (admitted_gained p).holds_step hadmitted with hadmitted | ⟨-, hsupported⟩
    · exact h.admitted k hadmitted
    · exact h.visible input.session hsupported

theorem ChangesEpoch.committed (h : ChangesEpoch p input s) :
    ((step input s).1.sessions input.session).frames = [] ∧
      (step input s).1.relation p = (s.sessions input.session).visible s.relation p := by
  have hidle := h.idle
  have hrunning := h.running
  rcases h.commits with hinput | ⟨answer, hinput⟩
  · generalize input.session = i at hinput hidle hrunning ⊢
    subst hinput
    simp [step, hidle, System.publish, hrunning, Session.closed]
  · generalize input.session = i at hinput hidle hrunning ⊢
    subst hinput
    simp [step, hidle, raw, System.publish, Session.forgetting, hrunning]
    rfl

theorem shut_of_changesEpoch (hexclusion : Exclusion s) (h : ChangesEpoch p input s) :
    Shut p (step input s).1 := by
  obtain ⟨hframes, hrelation⟩ := h.committed
  obtain ⟨session, -, hsessions⟩ := turn_step input s
  have hothers : ∀ k ≠ input.session, (step input s).1.sessions k = s.sessions k := fun k hk => by
    rw [hsessions, Function.update_of_ne hk]
  -- The other sessions hold nothing on the protocol table, and this one is over.
  have hnothing : ∀ k, ¬Holds (Holdings.Any p) ((step input s).1.sessions k).frames := by
    intro k
    by_cases hk : k = input.session
    · subst hk
      rw [hframes]
      exact holds_nil
    · rw [hothers k hk]
      exact hexclusion.locks p (Ne.symm hk) h.exclusive
  refine ⟨hrelation ▸ h.unsupported, ?_, ?_⟩
  · rintro k ⟨frame, hmem, relation, hwrites, -⟩
    exact hnothing k ⟨frame, hmem, .inr (.inr (by rw [hwrites]; rfl))⟩
  · intro k hadmitted
    exact hnothing k ((exclusion_step input hexclusion).any_of_admitted hadmitted)

theorem advance_sent {i : ι} {answer : Bool} {sent : Sent ι κ} (h : sent ∈ (advance s i answer).2) :
    ∃ next onError, (s.sessions i).body = .component sent.protocol next onError ∧ sent.session = i ∧
      sent.executed = !(s.sessions i).aborted := by
  unfold advance at h
  dsimp only at h
  split at h
  case h_3 p next onError hbody =>
    rw [List.mem_singleton] at h
    subst h
    exact ⟨next, onError, hbody, rfl, rfl⟩
  all_goals cases h

/-- The step lemma for what the server executes. -/
theorem admitted_of_executed (hsound : ∀ k, Sound (s.sessions k))
    {sent : Sent ι κ} (hsent : sent ∈ (step input s).2)
    (hexecuted : sent.executed = true) :
    Holds (Admitted sent.protocol) (s.sessions sent.session).frames := by
  cases input with
  | advance i answer =>
      obtain ⟨next, onError, hbody, rfl, hrunning⟩ := advance_sent hsent
      obtain ⟨opened, known, inner, outer, hw⟩ := hsound sent.session
      have hguarded := hw.guarded
      rw [hbody] at hguarded
      rw [hexecuted, Bool.true_eq, Bool.not_eq_true'] at hrunning
      have hheld := hw.held sent.protocol (hw.remembered _ hguarded.1)
      rw [hw.frames, holds_append]
      refine .inr (hheld.resolve_right fun haborted => ?_)
      rw [hrunning] at haborted
      cases haborted.1
  | _ => cases hsent

theorem run_sound {relation : κ → Relation} {inputs : List (Input ι κ)}
    (hguard : Meets InBlock step inputs (.initial relation)) (k : ι) :
    Sound ((exec step inputs (.initial relation)).sessions k) := by
  have hinitial : ∀ k, Sound ((.initial relation : System ι κ).sessions k) := fun _ =>
    sound_of_forgotten (fun _ => rfl) rfl
  have hstep : ∀ (input : Input ι κ) (s : System ι κ), InBlock input s → (∀ k, Sound (s.sessions k)) →
      ∀ k, Sound ((step input s).1.sessions k) := fun _ _ hblock h => sound_step hblock h
  exact exec_preserves hstep hguard hinitial k

theorem run_exclusion (relation : κ → Relation) (inputs : List (Input ι κ)) :
    Exclusion (exec step inputs (.initial relation)) :=
  exec_invariant Exclusion (fun input _ h => exclusion_step input h) inputs (exclusion_initial relation)

theorem run_shut {inputs : List (Input ι κ)}
    (hinputs : ∀ input ∈ inputs, ¬WritesSupported p input) (h : Shut p s) :
    Shut p (exec step inputs s) :=
  exec_preserves (fun _ _ hinput h => shut_step h hinput) (meets_of_forall hinputs s) h

theorem protocol_admission (relation : κ → Relation) (inputs : List (Input ι κ))
    (hguard : Meets InBlock step inputs (.initial relation)) :
    (∀ before input, before ++ [input] <+: inputs →
      ∀ sent ∈ (step input (exec step before (.initial relation))).2, sent.executed = true →
        Holds (Admitted sent.protocol)
          ((exec step before (.initial relation)).sessions sent.session).frames) ∧
    (∀ p before commit between input, before ++ commit :: between ++ [input] <+: inputs →
      ChangesEpoch p commit (exec step before (.initial relation)) →
        (∀ later ∈ between, ¬WritesSupported p later) →
      ∀ sent ∈ (step input (exec step (before ++ commit :: between) (.initial relation))).2, sent.executed = true →
        sent.protocol ≠ p) := by
  have hexecuted : ∀ before input, before ++ [input] <+: inputs →
      ∀ sent ∈ (step input (exec step before (.initial relation))).2, sent.executed = true →
        Holds (Admitted sent.protocol)
          ((exec step before (.initial relation)).sessions sent.session).frames := by
    rintro before input ⟨after, rfl⟩ sent hsent
    rw [List.append_assoc, meets_append] at hguard
    exact admitted_of_executed (run_sound hguard.1) hsent
  refine ⟨hexecuted, ?_⟩
  intro p before commit between input hrun hcommit hbetween sent hsent hdone hp
  have hheld := hexecuted _ _ hrun sent hsent hdone
  have hshut : Shut p (exec step (before ++ commit :: between) (.initial relation)) := by
    rw [exec_append, exec_cons]
    exact run_shut hbetween (shut_of_changesEpoch (run_exclusion relation before) hcommit)
  rw [hp] at hheld
  exact hshut.admitted sent.session (hheld.imp fun _ hframe => ⟨hframe.1, hframe.2.1⟩)

/-- One row with the epoch and the fingerprint of this release. -/
def installed : Unit → Relation := fun _ => some [⟨1, supportedEpoch, supportedFingerprint⟩]

def nextRelease : Relation := some [⟨1, 2, supportedFingerprint⟩]

/-- The second session moves to the next epoch. -/
def upgrade : List (Input (Fin 2) Unit) :=
  [.begin 1, .raw 1 true (.lockExclusive ()), .raw 1 true (.write () nextRelease)]

def readOnce : List (Input (Fin 2) Unit) := [.begin 0, .call 0 () (.kv .getBytes), .advance 0 true]

def beforeUpgrade : List (Input (Fin 2) Unit) :=
  readOnce ++ [.advance 0 true, .finish 0 true] ++ upgrade

theorem upgrade_changesEpoch :
    ChangesEpoch () (.finish 1 true) (exec step beforeUpgrade (.initial installed)) where
  commits := .inl rfl
  idle := by decide +kernel
  running := by decide +kernel
  exclusive := by decide +kernel
  unsupported := by
    have hvisible : ((exec step beforeUpgrade (.initial installed)).sessions 1).visible
        (exec step beforeUpgrade (.initial installed)).relation () = nextRelease := by decide +kernel
    rintro ⟨record, hrecord, hepoch, -⟩
    have hnext : nextRelease = some [record] := hvisible.symm.trans hrecord
    cases hnext
    cases hepoch

theorem readOnce_writes : ∀ later ∈ readOnce, ¬WritesSupported () later := by
  rintro later hlater ⟨answer, relation, hinput, -⟩
  rw [hinput] at hlater
  simp [readOnce] at hlater

theorem protocol_admission_upgrade :
    Holds (Admitted ()) ((exec step readOnce (.initial installed)).sessions 0).frames ∧
      ¬∃ sent ∈ (step (.advance 0 true)
        (exec step (beforeUpgrade ++ .finish 1 true :: readOnce) (.initial installed))).2,
        sent.executed = true ∧ sent.protocol = () := by
  have h := protocol_admission installed
    (beforeUpgrade ++ .finish 1 true :: readOnce ++ [.advance 0 true])
    (by decide +kernel)
  refine ⟨h.1 readOnce (.advance 0 true) ⟨_, rfl⟩ ⟨0, (), true⟩ (by decide +kernel) rfl, ?_⟩
  rintro ⟨sent, hsent, hexecuted, hprotocol⟩
  exact h.2 () beforeUpgrade (.finish 1 true) readOnce
    (.advance 0 true) (List.prefix_refl _) upgrade_changesEpoch
    readOnce_writes sent hsent hexecuted hprotocol

/-- Outside of a transaction block the lock of the admission is gone with its query, and
what is sent after an error has no lock either. Where the supported row is written back
after the epoch has changed, statements are executed again. -/
theorem sent_without_lock :
    let outside := exec step
      ([.begin 0, .raw 0 true .commit, .call 0 () (.kv .getBytes), .advance 0 true] ++ upgrade ++
      [.finish 1 true]) (.initial installed)
    let afterError := exec step
      (readOnce ++ [.advance 0 false, .call 0 () (.kv .getBytes), .advance 0 true])
      (.initial installed)
    let changed := exec step (upgrade ++ [.finish 1 true]) (.initial installed)
    let restored := exec step
      ([.begin 1, .raw 1 true (.write () (installed ())), .finish 1 true] ++ readOnce) changed
    (outside.relation () = nextRelease ∧ (step (.advance 0 true) outside).2 = [⟨0, (), true⟩] ∧
      ¬Holds (Admitted ()) (outside.sessions 0).frames) ∧
    ((step (.advance 0 true) afterError).2 = [⟨0, (), false⟩] ∧
      ¬Holds (Admitted ()) (afterError.sessions 0).frames) ∧
    changed.relation () = nextRelease ∧ (step (.advance 0 true) restored).2 = [⟨0, (), true⟩] := by
  decide +kernel

end Runs

end Paranoid.ProtocolAdmission
