import Paranoid.TopicModel

namespace Paranoid.TopicSteps

open KvAtomic TopicModel

variable {κ D : Type} {s s' : System κ D} {i : Nat}

/-- The persisted cursor of a subscription. -/
def persistedCursor (s : System κ D) (k : κ) : Nat := (s.store.cursors k).getD 0

/-- The cursor from which a loop will read. -/
def PollPhase.source : PollPhase D → Option Nat
  | .polling cursor | .checked cursor => cursor
  | _ => none

section Store

theorem allocate_store (s : System κ D) (i : Nat) (now : Int) :
    (allocate s i now).1.store = s.store := by
  rw [allocate]
  split
  · rfl
  · dsimp only
    split <;> rfl

theorem storeEvent_store (ttl : Ttl) (s : System κ D)
    (i sequence : Nat) (publishedAt now : Int) (data : D) :
    (storeEvent ttl s i sequence publishedAt now data).1.store = s.store := by
  rw [storeEvent]
  split <;> rfl

theorem fetchEvents_store (pollLimit : κ → Nat) (s : System κ D)
    (i : Nat) (k : κ) (cursor : Nat) (now : Int) :
    (fetchEvents pollLimit s i k cursor now).1.store = s.store := by
  rw [fetchEvents]
  split
  · rfl
  · dsimp only
    split <;> rfl

theorem advance_store [DecidableEq κ] (s : System κ D) (i : Nat) (k : κ) (sequence : Nat) :
    (advanceCursorIfNeeded s i k sequence).1.store = s.store := by
  rw [advanceCursorIfNeeded]
  split <;> rfl

/-- A transaction writes to the store when it commits. -/
theorem step_store [DecidableEq κ] (ttl : Ttl) (pollLimit : κ → Nat)
    (claimMicroseconds : Int) (input : Input κ D) (s : System κ D)
    (hcommit : ∀ i, input ≠ .commit i) (hpoll : ∀ k p action, input ≠ .poll k p action) :
    (step ttl pollLimit claimMicroseconds input s).1.store = s.store := by
  rw [step.eq_def]
  cases input with
  | allocate i now =>
      dsimp only
      split
      · exact allocate_store s i now
      · rfl
  | storeEvent i now data =>
      dsimp only
      split
      · exact storeEvent_store ttl s i _ _ now data
      · rfl
  | dropPublish i =>
      dsimp only
      split <;> rfl
  | fetchCursor i subscription =>
      dsimp only
      split <;> rfl
  | fetchEvents i now =>
      dsimp only
      split
      · exact fetchEvents_store pollLimit s i _ _ now
      · rfl
  | advanceCursor i =>
      dsimp only
      split
      · exact advance_store s i _ _
      · rfl
  | commit i => exact absurd rfl (hcommit i)
  | rollback i => rfl
  | poll k p action => exact absurd rfl (hpoll k p action)

end Store

/-- A transaction's operation takes at most a lock outside of it, and returns what it read
from the cursor that it had fetched. -/
structure Local (s s' : System κ D) (i : Nat) : Prop where
  pollers : s'.pollers = s.pollers
  accepted : s'.accepted = s.accepted
  failed : s'.failed = s.failed
  others : ∀ j, j ≠ i → s'.transactions j = s.transactions j
  fetched : ∀ k c, (s'.transactions i).phase = .cursorFetched k c →
    (s.transactions i).phase = .cursorFetched k c ∨ fetchCursor s i k = c
  reads : ∀ read ∈ s'.reads, read ∈ s.reads ∨
    (s.transactions i).phase = .cursorFetched read.subscription read.afterSequence

theorem put_self (s : System κ D) (i : Nat) (tx : Transaction κ D) :
    (s.put i tx).transactions i = tx := by
  rw [System.put]
  exact Function.update_self ..

theorem put_other (s : System κ D) {i j : Nat} (h : j ≠ i) (tx : Transaction κ D) :
    (s.put i tx).transactions j = s.transactions j := by
  rw [System.put]
  exact Function.update_of_ne h ..

theorem local_refl (s : System κ D) (i : Nat) : Local s s i :=
  ⟨rfl, rfl, rfl, fun _ _ => rfl, fun _ _ h => .inl h, fun _ h => .inl h⟩

theorem Local.put (h : Local s s' i) {tx : Transaction κ D}
    (hfetched : ∀ k c, tx.phase = .cursorFetched k c → fetchCursor s i k = c) :
    Local s (s'.put i tx) i := by
  refine ⟨h.pollers, h.accepted, h.failed, fun j hj => ?_, fun k c hc => .inr ?_, h.reads⟩
  · rw [put_other s' hj]
    exact h.others j hj
  · rw [put_self] at hc
    exact hfetched k c hc

theorem local_enter (s : System κ D) (i : Nat) {phase : Phase κ}
    (hfetched : ∀ k c, phase = .cursorFetched k c → fetchCursor s i k = c) :
    Local s (s.enter i phase) i :=
  (local_refl s i).put hfetched

theorem local_allocate (s : System κ D) (i : Nat) (now : Int) : Local s (allocate s i now).1 i := by
  have hlocked : Local s { s with sequenceHolder := some i } i :=
    ⟨rfl, rfl, rfl, fun _ _ => rfl, fun _ _ h => .inl h, fun _ h => .inl h⟩
  rw [allocate]
  split
  · exact local_refl s i
  · dsimp only
    split
    · exact hlocked
    · exact hlocked.put nofun

theorem local_storeEvent (ttl : Ttl) (s : System κ D)
    (i sequence : Nat) (publishedAt now : Int) (data : D) :
    Local s (storeEvent ttl s i sequence publishedAt now data).1 i := by
  rw [storeEvent]
  split
  · exact local_enter s i nofun
  · exact (local_refl s i).put nofun

theorem local_fetchEvents (pollLimit : κ → Nat) {k : κ} {cursor : Nat} (now : Int)
    (hphase : (s.transactions i).phase = .cursorFetched k cursor) :
    Local s (fetchEvents pollLimit s i k cursor now).1 i := by
  rw [fetchEvents]
  split
  · exact local_enter s i nofun
  · rename_i events _
    have hread : Local s { s with reads := s.reads ++ [⟨k, now, cursor, events⟩] } i := by
      refine ⟨rfl, rfl, rfl, fun _ _ => rfl, fun _ _ h => .inl h, fun read h => ?_⟩
      rcases List.mem_append.1 h with h | h
      · exact .inl h
      · obtain rfl := List.mem_singleton.1 h
        exact .inr hphase
    dsimp only
    split
    · exact hread.put nofun
    · exact hread.put nofun

section Steps

variable [DecidableEq κ] {ttl : Ttl} {pollLimit : κ → Nat} {claimMicroseconds : Int}

theorem local_advance (s : System κ D) (i : Nat) (k : κ) (sequence : Nat) :
    Local s (advanceCursorIfNeeded s i k sequence).1 i := by
  rw [advanceCursorIfNeeded]
  split
  · exact local_refl s i
  · have hlocked : Local s { s with cursorHolder := Function.update s.cursorHolder k (some i) } i :=
      ⟨rfl, rfl, rfl, fun _ _ => rfl, fun _ _ h => .inl h, fun _ h => .inl h⟩
    exact hlocked.put nofun

omit [DecidableEq κ] in
theorem local_release (h : Local s s' i) : Local s (release s' i) i := by
  have hreleased : Local s { s' with
      sequenceHolder := if s'.sequenceHolder = some i then none else s'.sequenceHolder,
      cursorHolder := fun k => if s'.cursorHolder k = some i then none else s'.cursorHolder k } i :=
    ⟨h.pollers, h.accepted, h.failed, h.others, h.fetched, h.reads⟩
  exact hreleased.put nofun

omit [DecidableEq κ] in
theorem local_commit (s : System κ D) (i : Nat) : Local s (commit s i) i :=
  local_release ⟨rfl, rfl, rfl, fun _ _ => rfl, fun _ _ h => .inl h, fun _ h => .inl h⟩

/-- An input is one of a transaction, or one of a polling loop. -/
theorem step_cases (input : Input κ D) (s : System κ D) :
    (∃ i, Local s (step ttl pollLimit claimMicroseconds input s).1 i) ∨
      ∃ k p action, input = .poll k p action := by
  cases input with
  | poll k p action => exact .inr ⟨k, p, action, rfl⟩
  | allocate i now =>
      refine .inl ⟨i, ?_⟩
      rw [step]
      split
      · exact local_allocate s i now
      · exact local_refl s i
  | storeEvent i now data =>
      refine .inl ⟨i, ?_⟩
      rw [step]
      split
      · exact local_storeEvent ttl s i _ _ now data
      · exact local_refl s i
  | dropPublish i =>
      refine .inl ⟨i, ?_⟩
      rw [step]
      split
      · exact local_enter s i nofun
      · exact local_refl s i
  | fetchCursor i subscription =>
      refine .inl ⟨i, ?_⟩
      rw [step]
      split
      · refine local_enter s i fun k c h => ?_
        obtain ⟨rfl, rfl⟩ := Phase.cursorFetched.inj h
        rfl
      · exact local_refl s i
  | fetchEvents i now =>
      refine .inl ⟨i, ?_⟩
      rw [step]
      split
      · rename_i hphase
        exact local_fetchEvents pollLimit now hphase
      · exact local_refl s i
  | advanceCursor i =>
      refine .inl ⟨i, ?_⟩
      rw [step]
      split
      · exact local_advance s i _ _
      · exact local_refl s i
  | commit i =>
      refine .inl ⟨i, ?_⟩
      rw [step]
      split
      · exact local_refl s i
      · exact local_commit s i
  | rollback i => exact .inl ⟨i, local_release (local_refl s i)⟩

section Polling

variable {k : κ} {p : Nat}

theorem setPoller_self (s : System κ D) (k : κ) (p : Nat) (poller : Poller D) :
    (s.setPoller k p poller).pollers k p = poller := by
  rw [System.setPoller]
  dsimp only
  rw [Function.update_self, Function.update_self]

theorem setPoller_other (s : System κ D) {k k' : κ}
    {p p' : Nat} (h : ¬(k' = k ∧ p' = p)) (poller : Poller D) :
    (s.setPoller k p poller).pollers k' p' = s.pollers k' p' := by
  rw [System.setPoller]
  dsimp only
  by_cases hk : k' = k
  · subst hk
    rw [Function.update_self, Function.update_of_ne fun hp => h ⟨rfl, hp⟩]
  · rw [Function.update_of_ne hk]

theorem poll_transactions (s : System κ D) (action : PollAction) :
    (poll pollLimit claimMicroseconds s k p action).1.transactions = s.transactions := by
  rw [poll.eq_def]
  dsimp only
  split <;> (repeat' split) <;> rfl

theorem poll_others (s : System κ D) (action : PollAction)
    {k' : κ} {p' : Nat} (h : ¬(k' = k ∧ p' = p)) :
    (poll pollLimit claimMicroseconds s k p action).1.pollers k' p' = s.pollers k' p' := by
  rw [poll.eq_def]
  dsimp only
  split <;> (repeat' split) <;> first | rfl | exact setPoller_other _ h _

theorem poll_reads (s : System κ D) (action : PollAction) {read : Read κ D}
    (h : read ∈ (poll pollLimit claimMicroseconds s k p action).1.reads) : read ∈ s.reads ∨
      read.subscription = k ∧ PollPhase.source (s.pollers k p).phase = some read.afterSequence := by
  rw [poll.eq_def] at h
  dsimp only at h
  split at h
  case h_8 now cursor hphase =>
    split at h
    · exact .inl h
    · rename_i events _
      have hread : read ∈ s.reads ++ [⟨k, now, cursor, events⟩] := by
        split at h <;> exact h
      rcases List.mem_append.1 hread with hold | hnew
      · exact .inl hold
      · obtain rfl := List.mem_singleton.1 hnew
        rw [hphase]
        exact .inr ⟨rfl, rfl⟩
  all_goals
    left
    (repeat' split at h) <;> exact h

theorem pollerEnter_self (s : System κ D) (k : κ) (p : Nat) (phase : PollPhase D) :
    (s.pollerEnter k p phase).pollers k p = { s.pollers k p with phase } := setPoller_self s k p _

theorem endRun_self (s : System κ D) (k : κ) (p : Nat) (released : Bool) :
    (endRun s k p released).pollers k p = { s.pollers k p with phase := .stopped } := by
  rw [endRun]
  exact pollerEnter_self ..

/-- A loop reads from the persisted cursor, or from the one to which it has advanced it. -/
theorem poll_source (s : System κ D) (action : PollAction) {c : Nat}
    (h : PollPhase.source ((poll pollLimit claimMicroseconds s k p action).1.pollers k p).phase =
      some c) :
    PollPhase.source (s.pollers k p).phase = some c ∨
      persistedCursor s k = c ∨ (s.pollers k p).phase = .advanced c := by
  rw [poll.eq_def] at h
  dsimp only at h
  split at h
  case h_5 cursor hphase =>
    rw [hphase]
    split at h
    · rw [endRun_self] at h
      cases h
    · rw [pollerEnter_self] at h
      exact .inl h
  case h_6 cursor hphase =>
    rw [hphase]
    rw [pollerEnter_self] at h
    exact .inl h
  case h_7 hphase =>
    rw [setPoller_self] at h
    exact .inr (.inl (Option.some.inj h))
  case h_8 now cursor hphase =>
    rw [hphase]
    split at h
    · rw [endRun_self] at h
      cases h
    · split at h
      · rw [pollerEnter_self] at h
        exact .inl h
      · rw [pollerEnter_self] at h
        cases h
  case h_12 cursor hphase =>
    split at h
    · rw [endRun_self] at h
      cases h
    · rw [pollerEnter_self] at h
      rw [hphase, ← Option.some.inj h]
      exact .inr (.inr rfl)
  -- the other steps keep the phase, or leave one from which nothing is read
  all_goals
    (repeat' split at h) <;> first
      | exact .inl h
      | rw [setPoller_self] at h; first | exact .inl h | cases h
      | rw [pollerEnter_self] at h; cases h
      | rw [endRun_self] at h; cases h

/-- A run begins from the persisted cursor, where it has none of its own yet. -/
theorem poll_start (s : System κ D) (action : PollAction) {c : Nat}
    (h : ((poll pollLimit claimMicroseconds s k p action).1.pollers k p).start = some c) :
    (s.pollers k p).start = some c ∨
      action = .fetchCursor ∧ (s.pollers k p).phase = .checked none ∧ persistedCursor s k = c := by
  rw [poll.eq_def] at h
  dsimp only at h
  split at h
  case h_1 =>
    rw [setPoller_self] at h
    cases h
  case h_7 hphase =>
    rw [setPoller_self] at h
    exact .inr ⟨rfl, hphase, Option.some.inj h⟩
  all_goals
    left
    (repeat' split at h) <;> first
      | exact h
      | rw [setPoller_self] at h; exact h
      | rw [pollerEnter_self] at h; exact h
      | rw [endRun_self] at h; exact h

end Polling

section Runs

variable (ttl : Ttl) (pollLimit : κ → Nat) (claimMicroseconds : Int)
  (input : Input κ D) (s : System κ D) {k : κ} {p c : Nat}

theorem fetched_step
    (h : ((step ttl pollLimit claimMicroseconds input s).1.transactions i).phase = .cursorFetched k c) :
    (s.transactions i).phase = .cursorFetched k c ∨ fetchCursor s i k = c := by
  rcases step_cases input s with ⟨j, hlocal⟩ | ⟨k', p', action, rfl⟩
  · by_cases hj : i = j
    · subst hj
      exact hlocal.fetched k c h
    · rw [hlocal.others i hj] at h
      exact .inl h
  · rw [step, poll_transactions] at h
    exact .inl h

theorem source_step
    (h : PollPhase.source ((step ttl pollLimit claimMicroseconds input s).1.pollers k p).phase =
      some c) :
    PollPhase.source (s.pollers k p).phase = some c ∨
      persistedCursor s k = c ∨ (s.pollers k p).phase = .advanced c := by
  rcases step_cases input s with ⟨j, hlocal⟩ | ⟨k', p', action, rfl⟩
  · rw [hlocal.pollers] at h
    exact .inl h
  · by_cases hkp : k = k' ∧ p = p'
    · obtain ⟨rfl, rfl⟩ := hkp
      exact poll_source s action h
    · rw [step, poll_others s action hkp] at h
      exact .inl h

theorem start_step (h : ((step ttl pollLimit claimMicroseconds input s).1.pollers k p).start = some c) :
    (s.pollers k p).start = some c ∨
      input = .poll k p .fetchCursor ∧ (s.pollers k p).phase = .checked none ∧
        persistedCursor s k = c := by
  rcases step_cases input s with ⟨j, hlocal⟩ | ⟨k', p', action, rfl⟩
  · rw [hlocal.pollers] at h
    exact .inl h
  · by_cases hkp : k = k' ∧ p = p'
    · obtain ⟨rfl, rfl⟩ := hkp
      exact (poll_start s action h).imp_right fun ⟨haction, hfetch⟩ => ⟨haction ▸ rfl, hfetch⟩
    · rw [step, poll_others s action hkp] at h
      exact .inl h

theorem read_step {read : Read κ D}
    (h : read ∈ (step ttl pollLimit claimMicroseconds input s).1.reads) :
    read ∈ s.reads ∨ (∃ i,
      (s.transactions i).phase = .cursorFetched read.subscription read.afterSequence) ∨
      ∃ p, PollPhase.source (s.pollers read.subscription p).phase = some read.afterSequence := by
  rcases step_cases input s with ⟨i, hlocal⟩ | ⟨k, p, action, rfl⟩
  · exact (hlocal.reads read h).imp_right fun hphase => .inl ⟨i, hphase⟩
  · rcases poll_reads s action h with hold | ⟨rfl, hsource⟩
    · exact .inl hold
    · exact .inr (.inr ⟨p, hsource⟩)

end Runs

end Steps

end Paranoid.TopicSteps
