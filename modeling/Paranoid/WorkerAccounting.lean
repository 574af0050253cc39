import Paranoid.WorkerLoop

namespace Paranoid.WorkerAccounting

open List QueueModel QueueStatements QueueOperations Transitions
open WorkerLoop (LoopState WorkerConfig WorkerRunLoopSummary Joined Exit)
open QueueWorker (Execution Event Finalization)
open QueueExecution (act_heartbeat)
open QueueFailure (ProcessedJobOutcome)

variable {π : Type}

section Books

def counter (summary : WorkerRunLoopSummary) : ProcessedJobOutcome → Nat
  | .succeeded => summary.succeededCount
  | .retried => summary.retriedCount
  | .failed => summary.failedCount
  | .deadLettered => summary.deadLetteredCount
  | .lostOwnership => summary.lostOwnershipCount

def finalOutcome (deadLetterEnabled : Bool) : Finalization → ProcessedJobOutcome
  | .complete => .succeeded
  | .scheduleRetry .. => .retried
  | .moveToDeadLetterOrFail .. => if deadLetterEnabled then .deadLettered else .failed

/-- The end of a job that a statement in a phase of its task brings. A final transition
ends the job once it is applied, and a lost job ends when its task learns of the loss. -/
def endOf (deadLetterEnabled acknowledged : Bool) :
    QueueWorker.Phase → TransitionOutcome → Option ProcessedJobOutcome
  | .finalizing finalization, .applied => some (finalOutcome deadLetterEnabled finalization)
  | .finalizing _, .notFound | .finalizing _, .stateMismatch | .starting, .notFound | .starting, .stateMismatch =>
      if acknowledged then some .lostOwnership else none
  | _, _ => none

def jobEnd (e : Execution π) (t : Tables π) (event : Event π) : Option ProcessedJobOutcome :=
  match event with
  | .statement m deadLetterId acknowledged =>
      (e.act t (.statement m deadLetterId acknowledged)).2.2.bind
        (endOf e.deadLetterEnabled acknowledged e.phase)
  | _ => none

/-- The loop with what its tasks have done. `endings` goes with the tasks in flight,
`ended` lists the ends of all jobs of the run, and `returned` counts the tasks that
left the run without an end of their job. -/
structure Books (π : Type) where
  loop : LoopState π
  endings : List (Option ProcessedJobOutcome)
  ended : List ProcessedJobOutcome
  returned : Nat

def Books.start (t : Tables π) : Books π := ⟨LoopState.start t, [], [], 0⟩

/-- A task reports an outcome only if its job has ended so. -/
def Books.yields (b : Books π) (index : Nat) : Joined → Bool
  | .processed outcome => b.endings[index]? = some (some outcome)
  | _ => true

variable (config : WorkerConfig)

def Books.next (b : Books π) (input : WorkerLoop.Input π) : Books π :=
  let loop := b.loop.next config input
  match input with
  | .claim _ _ =>
      { b with
        loop, endings := b.endings ++ replicate (loop.inFlight.length - b.loop.inFlight.length) none }
  | .joined index result =>
      if b.yields index result then
        if loop.inFlight.length < b.loop.inFlight.length then
          { b with
            loop
            endings := b.endings.eraseIdx index
            returned := if b.endings[index]? = some none then b.returned + 1 else b.returned }
        else { b with loop }
      else b
  | .task index event =>
      match b.loop.inFlight[index]?.bind fun e => jobEnd e b.loop.tables event with
      | none => { b with loop }
      | some outcome =>
          { b with loop, endings := b.endings.set index (some outcome), ended := b.ended ++ [outcome] }
  | _ => { b with loop }

def step (input : WorkerLoop.Input π) (b : Books π) : Books π × Unit := (b.next config input, ())

end Books

section Balance

variable {config : WorkerConfig} {b : Books π}

/-- Every end of a job is counted once, and the claims are those of the jobs that ended
and of those that were returned. -/
structure Balanced (b : Books π) : Prop where
  counts : ∀ summary, b.loop.phase = .returned (.ok summary) →
    ∀ outcome, counter summary outcome = b.ended.count outcome
  claims : ∀ summary, b.loop.phase = .returned (.ok summary) →
    summary.claimedCount = summary.processed + b.returned

/-- When the grace period elapses, the jobs that have ended are those counted before
the drain, and none ends while the tasks are aborted then. -/
def EndsCounted (input : WorkerLoop.Input π) (b : Books π) : Prop :=
  match input with
  | .gracePeriodElapsed => ∀ summary, b.loop.drain = some summary → summary.processed = b.ended.length
  | .task index event =>
      ∀ summary errors, b.loop.phase = .aborting (.gracePeriodElapsed summary) errors →
      b.loop.inFlight[index]?.bind (fun e => jobEnd e b.loop.tables event) = none
  | _ => True

/-- What holds of the counts, and from which phase on. -/
def Claims (b : Books π) : Prop :=
  b.loop.summary.claimedCount = b.ended.length + b.returned + b.endings.count none

def Counted (b : Books π) : Prop :=
  ∀ outcome, b.ended.count outcome = counter b.loop.summary outcome + b.endings.count (some outcome)

/-- The summary from before the drain lags behind. -/
def Drains (b : Books π) : Prop :=
  ∀ summary, b.loop.drain = some summary → summary.claimedCount = b.loop.summary.claimedCount ∧
    ∀ outcome, counter summary outcome ≤ b.ended.count outcome

structure Closed (b : Books π) (summary : WorkerRunLoopSummary) : Prop where
  drain : b.loop.drain = none
  claimed : summary.claimedCount = b.loop.summary.claimedCount
  counts : ∀ outcome, counter summary outcome = b.ended.count outcome

def Exits (b : Books π) : Exit → Prop
  | .runtimeError _ => Drains b
  | .gracePeriodElapsed summary => Closed b summary
  | .drained => b.loop.drain = none ∧ Counted b

def InPhase (b : Books π) : WorkerLoop.Phase → Prop
  | .startup => b.loop.drain = none ∧ b.loop.inFlight = [] ∧ b.ended = [] ∧ b.returned = 0 ∧ Counted b
  | .claiming | .backingOff | .selecting => b.loop.drain = none ∧ Counted b
  | .draining => Drains b ∧ Counted b
  | .aborting exit _ => exit ≠ .drained ∧ Exits b exit
  | .cleaning exit _ _ => b.loop.inFlight = [] ∧ Exits b exit
  | .returned (.ok summary) => b.loop.inFlight = [] ∧
      (∀ outcome, counter summary outcome = b.ended.count outcome) ∧
        summary.claimedCount = summary.processed + b.returned
  | .returned (.error _) => True

def Over (e : Execution π) : Prop := e.phase = .requeueing ∨ e.phase = .finished

structure Inv (b : Books π) : Prop where
  lengths : b.endings.length = b.loop.inFlight.length
  ended : ∀ (index : Nat) e outcome, b.loop.inFlight[index]? = some e →
    b.endings[index]? = some (some outcome) → Over e
  claims : (∀ result, b.loop.phase ≠ .returned result) → Claims b
  phase : InPhase b b.loop.phase

theorem over_act {e : Execution π} {t : Tables π} {event : Event π} (h : Over e) :
    Over (e.act t event).1 := by
  cases event with
  | heartbeat m =>
      rw [act_heartbeat]
      exact h
  | abort => exact .inr rfl
  | dropContext => exact h
  | statement m deadLetterId acknowledged =>
      rcases h with h | h
      · simp only [Execution.act, Execution.issue, h]
        split
        · exact .inl h
        · exact .inr rfl
        · exact .inr rfl
      · simp only [Execution.act, Execution.issue, h]
        exact .inr h
  | begin handlerRegistered => rcases h with h | h <;> simp [Execution.act, h, Over]
  | handlerDone outcome retryAfter => rcases h with h | h <;> simp [Execution.act, h, Over]

theorem jobEnd_over {e : Execution π} {t : Tables π} {event : Event π} (h : Over e) :
    jobEnd e t event = none := by
  cases event with
  | statement m deadLetterId acknowledged =>
      simp only [jobEnd]
      cases (e.act t (.statement m deadLetterId acknowledged)).2.2 with
      | none => rfl
      | some outcome => rcases h with h | h <;> simp [endOf, h]
  | _ => rfl

theorem over_of_endOf {deadLetterEnabled acknowledged : Bool}
    {phase : QueueWorker.Phase} {outcome : TransitionOutcome}
    {ending : ProcessedJobOutcome}
    (h : endOf deadLetterEnabled acknowledged phase outcome = some ending) :
    phase.afterReply (if acknowledged then some outcome else none) = .requeueing ∨
      phase.afterReply (if acknowledged then some outcome else none) = .finished := by
  unfold endOf at h
  split at h
  · cases acknowledged
    · exact .inl rfl
    · exact .inr rfl
  all_goals first
    | cases acknowledged with
      | false => cases h
      | true => exact .inr rfl
    | cases h

theorem over_of_jobEnd {e : Execution π} {t : Tables π}
    {event : Event π} {outcome : ProcessedJobOutcome}
    (h : jobEnd e t event = some outcome) : Over (e.act t event).1 := by
  cases event with
  | statement m deadLetterId acknowledged =>
      simp only [jobEnd] at h
      simp only [Execution.act] at h ⊢
      split at h
      · cases h
      · cases h
      · exact over_of_endOf h
  | _ => cases h

theorem recordClaimedCount_eq_ok {count : Nat} {summary summary' : WorkerRunLoopSummary}
    (h : WorkerLoop.recordClaimedCount count summary = .ok summary') :
    summary' = { summary with claimedCount := summary.claimedCount + count } := by
  unfold WorkerLoop.recordClaimedCount at h
  split_ifs at h
  exact (Except.ok.inj h).symm

theorem countProcessed_eq_ok {counter counter' : Nat}
    (h : WorkerLoop.countProcessed counter = .ok counter') :
    counter' = counter + 1 := by
  unfold WorkerLoop.countProcessed at h
  split_ifs at h
  exact (Except.ok.inj h).symm

theorem recordProcessedJobOutcome_eq_ok {outcome : ProcessedJobOutcome}
    {summary summary' : WorkerRunLoopSummary}
    (h : WorkerLoop.recordProcessedJobOutcome outcome summary = .ok summary') :
    summary'.claimedCount = summary.claimedCount ∧
      ∀ other, counter summary' other = counter summary other + if outcome = other then 1 else 0 := by
  cases outcome
  all_goals
    obtain ⟨n, hcount, h⟩ := Postgres.bind_eq_ok.1 h
    obtain rfl := Except.ok.inj h
    obtain rfl := countProcessed_eq_ok hcount
    exact ⟨rfl, fun other => by cases other <;> rfl⟩

theorem length_eq_counts (ended : List ProcessedJobOutcome) : ended.length = ended.count .succeeded +
    ended.count .retried + ended.count .failed +
      ended.count .deadLettered + ended.count .lostOwnership := by
  induction ended with
  | nil => rfl
  | cons outcome ended ih =>
      rw [length_cons, ih]
      cases outcome <;> simp +decide only [count_cons, if_true, if_false] <;> omega

theorem processed_eq_counters (summary : WorkerRunLoopSummary) :
    summary.processed = counter summary .succeeded +
    counter summary .retried + counter summary .failed +
      counter summary .deadLettered + counter summary .lostOwnership :=
  rfl

theorem processed_eq_length {summary : WorkerRunLoopSummary} {ended : List ProcessedJobOutcome}
    (h : ∀ outcome, counter summary outcome = ended.count outcome) :
    summary.processed = ended.length := by
  rw [processed_eq_counters, length_eq_counts, h, h, h, h, h]

/-- A summary that lags behind in no counter and has the right sum is right. -/
theorem counter_eq_of_le {summary : WorkerRunLoopSummary} {ended : List ProcessedJobOutcome}
    (hle : ∀ outcome, counter summary outcome ≤ ended.count outcome)
    (h : summary.processed = ended.length)
    (outcome : ProcessedJobOutcome) : counter summary outcome = ended.count outcome := by
  rw [processed_eq_counters, length_eq_counts] at h
  have hsucceeded := hle .succeeded
  have hretried := hle .retried
  have hfailed := hle .failed
  have hdeadLettered := hle .deadLettered
  have hlostOwnership := hle .lostOwnership
  cases outcome <;> omega

end Balance

section Steps

variable {config : WorkerConfig} {b : Books π}

theorem inv_loop (h : Inv b) {loop : LoopState π} (hinFlight : loop.inFlight = b.loop.inFlight)
    (hsummary : loop.summary = b.loop.summary)
    (hreturned : ∀ result, b.loop.phase = .returned result → loop.phase = .returned result)
    (hphase : InPhase { b with loop } loop.phase) : Inv { b with loop } where
  lengths := by
    rw [hinFlight]
    exact h.lengths
  ended := by
    rw [hinFlight]
    exact h.ended
  claims hrunning := by
    have hclaims := h.claims fun result hresult => hrunning result (hreturned result hresult)
    rw [Claims] at hclaims ⊢
    rw [hsummary]
    exact hclaims
  phase := hphase

theorem inv_finishShutdown (h : Inv b) (hcounted : Counted b)
    (hrunning : ∀ result, b.loop.phase ≠ .returned result) :
    Inv { b with loop := b.loop.finishShutdown } := by
  refine inv_loop h rfl rfl (fun result hresult => absurd hresult (hrunning result)) ⟨?_, hcounted⟩
  rintro summary ⟨⟩
  exact ⟨rfl, fun outcome => (hcounted outcome).ge.trans' (Nat.le_add_right ..)⟩

theorem inv_handleRuntimeError (h : Inv b) (hdrains : Drains b)
    (hrunning : ∀ result, b.loop.phase ≠ .returned result)
    (error : WorkerLoop.WorkerError) : Inv { b with loop := b.loop.handleRuntimeError error } :=
  inv_loop h rfl rfl (fun result hresult => absurd hresult (hrunning result)) ⟨(by rintro ⟨⟩), hdrains⟩

theorem claim_cases (config : WorkerConfig) (s : LoopState π)
    (m : Moment π) (reply : WorkerLoop.ClaimReply) :
    s.claim config m reply = s.finishShutdown ∨
    (∃ jobs tables summary,
      WorkerLoop.recordClaimedCount (length jobs) s.summary = .ok summary ∧ s.claim config m reply =
      { s with
        tables, inFlight := s.inFlight ++ jobs.map config.spawn, summary, phase := .selecting }) ∨
    (∃ jobs tables error, s.claim config m reply =
      LoopState.return { s with
        tables, inFlight := s.inFlight ++ map config.spawn jobs } (.error error)) ∨
    (∃ tables, s.claim config m reply = { s with tables, phase := .backingOff }) ∨
    ∃ tables error, s.claim config m reply = { s with tables }.handleRuntimeError error := by
  have hfailed : ∀ tables protocolFailure reason,
      (∃ tables', ({ s with tables }.claimFailed protocolFailure reason) =
        { s with tables := tables', phase := .backingOff }) ∨
      ∃ tables' error, { s with tables }.claimFailed protocolFailure reason =
        { s with tables := tables' }.handleRuntimeError error := by
    intro tables protocolFailure reason
    cases protocolFailure with
    | true => exact .inr ⟨tables, _, rfl⟩
    | false => exact .inl ⟨tables, rfl⟩
  unfold LoopState.claim
  split
  · exact .inl rfl
  · split
    · rename_i jobs tables _ _
      dsimp only
      split
      · rename_i summary hrecord
        exact .inr (.inl ⟨jobs, tables, summary, hrecord, rfl⟩)
      · exact .inr (.inr (.inl ⟨jobs, tables, _, rfl⟩))
    · exact .inr (.inr (.inr (hfailed s.tables _ _)))
    · exact .inr (.inr (.inr (hfailed _ _ _)))
    · exact .inr (.inr (.inr (hfailed s.tables _ _)))

theorem running_of_phase {phase : WorkerLoop.Phase} (hphase : b.loop.phase = phase)
    (hrunning : ∀ result, phase ≠ .returned result) : ∀ result, b.loop.phase ≠ .returned result := by
  rw [hphase]
  exact hrunning

/-- A loop that goes on with the tasks it has. -/
theorem inv_claimed {loop : LoopState π} (hsame : loop.inFlight = b.loop.inFlight)
    (hinv : Inv { b with loop }) : Inv { b with
      loop, endings := b.endings ++
        replicate (loop.inFlight.length - b.loop.inFlight.length) none } := by
  rw [hsame, Nat.sub_self, replicate_zero, append_nil]
  exact hinv

theorem over_append {inFlight : List (Execution π)} {endings : List (Option ProcessedJobOutcome)}
    (hlengths : endings.length = inFlight.length)
    (hover : ∀ (index : Nat) e outcome,
      inFlight[index]? = some e → endings[index]? = some (some outcome) → Over e)
    (spawned : List (Execution π)) (index : Nat) (e : Execution π) (outcome : ProcessedJobOutcome)
    (he : (inFlight ++ spawned)[index]? = some e)
    (hending : (endings ++ replicate spawned.length none)[index]? = some (some outcome)) : Over e := by
  by_cases hindex : index < inFlight.length
  · rw [getElem?_append_left hindex] at he
    rw [getElem?_append_left (hlengths ▸ hindex)] at hending
    exact hover index e outcome he hending
  · rw [getElem?_append_right (by omega)] at hending
    have hmem := mem_of_getElem? hending
    cases eq_of_mem_replicate hmem

theorem inv_claim {m : Moment π} {reply : WorkerLoop.ClaimReply}
    (h : Inv b) (hphase : b.loop.phase = .claiming) :
    Inv { b with
      loop := b.loop.claim config m reply
      endings := b.endings ++ replicate
        ((b.loop.claim config m reply).inFlight.length - b.loop.inFlight.length) none } := by
  have hin : InPhase b .claiming := hphase ▸ h.phase
  have hrunning := running_of_phase hphase (by rintro _ ⟨⟩)
  have hdrains : Drains b := by
    intro summary hdrain
    rw [hin.1] at hdrain
    cases hdrain
  rcases claim_cases config b.loop m reply with hclaim | ⟨jobs, tables, summary, hrecord, hclaim⟩ |
    ⟨jobs, tables, error, hclaim⟩ | ⟨tables, hclaim⟩ | ⟨tables, error, hclaim⟩
  · rw [hclaim]
    exact inv_claimed rfl (inv_finishShutdown h hin.2 hrunning)
  · obtain rfl := recordClaimedCount_eq_ok hrecord
    rw [hclaim]
    dsimp only
    rw [length_append, Nat.add_sub_cancel_left]
    refine ⟨?_, over_append h.lengths h.ended _, ?_, hin.1, ?_⟩
    · rw [length_append, length_append, h.lengths, length_replicate]
    · intro _
      have hclaims := h.claims hrunning
      rw [Claims] at hclaims ⊢
      dsimp only
      rw [count_append, count_replicate_self, length_map, hclaims]
      omega
    · intro outcome
      dsimp only
      rw [count_append, count_replicate, if_neg (by simp), Nat.add_zero]
      exact hin.2 outcome
  · rw [hclaim]
    dsimp only [LoopState.return]
    rw [length_append, Nat.add_sub_cancel_left]
    refine ⟨?_, over_append h.lengths h.ended _, fun hnot => absurd rfl (hnot _), trivial⟩
    rw [length_append, length_append, h.lengths, length_replicate]
  · rw [hclaim]
    exact inv_claimed rfl
      (inv_loop h rfl rfl (fun result hresult => absurd hresult (hrunning result)) hin)
  · rw [hclaim]
    refine inv_claimed rfl
      (inv_loop h rfl rfl (fun result hresult => absurd hresult (hrunning result)) ?_)
    exact ⟨(by rintro ⟨⟩), hdrains⟩

/-- The books after a task has left: an end counts for it, or else it was returned. -/
def leave (b : Books π) (index : Nat) (loop : LoopState π) : Books π :=
  { b with
    loop
    endings := b.endings.eraseIdx index
    returned := if b.endings[index]? = some none then b.returned + 1 else b.returned }

theorem over_eraseIdx {inFlight : List (Execution π)} {endings : List (Option ProcessedJobOutcome)}
    (hover : ∀ (index : Nat) e outcome,
      inFlight[index]? = some e → endings[index]? = some (some outcome) → Over e)
    (left index : Nat) (e : Execution π) (outcome : ProcessedJobOutcome)
    (he : (inFlight.eraseIdx left)[index]? = some e)
    (hending : (endings.eraseIdx left)[index]? = some (some outcome)) : Over e := by
  rw [getElem?_eraseIdx] at he hending
  split_ifs at he hending
  · exact hover _ e outcome he hending
  · exact hover _ e outcome he hending

theorem count_eraseIdx {α : Type} [BEq α] {l : List α}
    {index : Nat} {a : α} (h : l[index]? = some a) (other : α) :
    l.count other = (l.eraseIdx index).count other + if a == other then 1 else 0 := by
  obtain ⟨hindex, rfl⟩ := List.getElem?_eq_some_iff.1 h
  rw [← (getElem_cons_eraseIdx_perm hindex).count_eq other, count_cons]

theorem inv_leave {index : Nat} {loop : LoopState π}
    (h : Inv b) (hindex : index < b.loop.inFlight.length)
    (hrunning : ∀ result, b.loop.phase ≠ .returned result)
    (hinFlight : loop.inFlight = b.loop.inFlight.eraseIdx index)
    (hclaimed : (∀ result, loop.phase ≠ .returned result) →
      loop.summary.claimedCount = b.loop.summary.claimedCount)
    (hphase : InPhase (leave b index loop) loop.phase) : Inv (leave b index loop) where
  lengths := by
    simp only [leave]
    rw [hinFlight, length_eraseIdx, length_eraseIdx, h.lengths]
  ended := by
    simp only [leave]
    rw [hinFlight]
    exact over_eraseIdx h.ended index
  claims hloop := by
    have hclaims := h.claims hrunning
    obtain ⟨ending, hending⟩ : ∃ ending, b.endings[index]? = some ending :=
      ⟨_, List.getElem?_eq_getElem (h.lengths ▸ hindex)⟩
    have hcount := count_eraseIdx hending none
    rw [Claims] at hclaims ⊢
    simp only [leave]
    rw [hclaimed hloop, hclaims, hcount, hending]
    cases ending with
    | none =>
        rw [if_pos (beq_self_eq_true _), if_pos rfl]
        omega
    | some outcome => rw [if_neg nofun, if_neg nofun, Nat.add_zero]
  phase := hphase

theorem joined_cases (s : LoopState π) (index : Nat) (result : Joined) :
    s.joined index result = s ∨ index < s.inFlight.length ∧
      ((s.phase = .selecting ∨ s.phase = .draining) ∧
        ((∃ outcome summary, result = .processed outcome ∧
            WorkerLoop.recordProcessedJobOutcome outcome s.summary = .ok summary ∧
              s.joined index result =
              { s with
                inFlight := s.inFlight.eraseIdx index
                summary
                phase := if s.phase matches .selecting then .claiming else .draining }) ∨
          (∃ error, s.joined index result =
            LoopState.return { s with inFlight := s.inFlight.eraseIdx index } (.error error)) ∨
          ∃ error, s.joined index result =
            { s with inFlight := s.inFlight.eraseIdx index }.handleRuntimeError error) ∨
      ∃ exit errors errors', s.phase = .aborting exit errors ∧ s.joined index result =
        { s with inFlight := s.inFlight.eraseIdx index, phase := .aborting exit errors' }) := by
  have hhandle : ∀ (s : LoopState π) next, (∃ outcome summary, result = .processed outcome ∧
        WorkerLoop.recordProcessedJobOutcome outcome s.summary = .ok summary ∧
        s.handleJoinedJob result next = { s with summary, phase := next }) ∨
      (∃ error, s.handleJoinedJob result next = s.return (.error error)) ∨
      ∃ error, s.handleJoinedJob result next = s.handleRuntimeError error := by
    intro s next
    cases result with
    | processed outcome =>
        unfold LoopState.handleJoinedJob
        dsimp only
        split
        · rename_i summary hrecord
          exact .inl ⟨outcome, summary, rfl, hrecord, rfl⟩
        · exact .inr (.inl ⟨_, rfl⟩)
    | failed reason => exact .inr (.inr ⟨_, rfl⟩)
    | cancelled reason => exact .inr (.inr ⟨_, rfl⟩)
    | panicked reason => exact .inr (.inr ⟨_, rfl⟩)
  unfold LoopState.joined
  split
  · rename_i hindex
    dsimp only
    split
    · rename_i hphase
      refine .inr ⟨hindex, .inl ⟨.inl hphase, ?_⟩⟩
      rw [hphase]
      exact hhandle { s with inFlight := s.inFlight.eraseIdx index } .claiming
    · rename_i hphase
      refine .inr ⟨hindex, .inl ⟨.inr hphase, ?_⟩⟩
      rw [hphase]
      exact hhandle { s with inFlight := s.inFlight.eraseIdx index } .draining
    · rename_i exit errors hphase
      exact .inr ⟨hindex, .inr ⟨exit, errors, _, hphase, rfl⟩⟩
    · exact .inl rfl
  · exact .inl rfl

theorem counted_leave {index : Nat} {outcome : ProcessedJobOutcome} {summary : WorkerRunLoopSummary}
    {loop : LoopState π} (hcounted : Counted b) (hending : b.endings[index]? = some (some outcome))
    (hrecord : WorkerLoop.recordProcessedJobOutcome outcome b.loop.summary = .ok summary)
    (hsummary : loop.summary = summary) :
    Counted (leave b index loop) := by
  intro other
  have hcount := count_eraseIdx hending (some other)
  have hother := hcounted other
  simp only [leave, hsummary]
  rw [(recordProcessedJobOutcome_eq_ok hrecord).2 other]
  rw [hcount] at hother
  by_cases hsame : outcome = other
  · subst hsame
    rw [if_pos (beq_self_eq_true _)] at hother
    rw [if_pos rfl]
    omega
  · rw [if_neg (by simpa using hsame)] at hother
    rw [if_neg hsame]
    omega

theorem inv_joined {index : Nat} {result : Joined}
    (h : Inv b) (hyields : b.yields index result = true) :
    Inv (if (b.loop.joined index result).inFlight.length < b.loop.inFlight.length then
      leave b index (b.loop.joined index result)
        else { b with loop := b.loop.joined index result }) := by
  rcases joined_cases b.loop index result with hjoined | ⟨hindex, hcases⟩
  · rw [hjoined, if_neg (Nat.lt_irrefl _)]
    exact h
  · have hless : (b.loop.inFlight.eraseIdx index).length < b.loop.inFlight.length := by
      rw [length_eraseIdx_of_lt hindex]
      omega
    rcases hcases with ⟨hphase, hhandled⟩ | ⟨exit, errors, errors', hphase, hjoined⟩
    · have hrunning : ∀ result, b.loop.phase ≠ .returned result := by
        rcases hphase with hphase | hphase
        · exact running_of_phase hphase (by rintro _ ⟨⟩)
        · exact running_of_phase hphase (by rintro _ ⟨⟩)
      have hin := h.phase
      have hcounted : Counted b := by
        rcases hphase with hphase | hphase <;> rw [hphase] at hin <;> exact hin.2
      have hdrains : Drains b := by
        rcases hphase with hphase | hphase <;> rw [hphase] at hin
        · intro summary hdrain
          rw [hin.1] at hdrain
          cases hdrain
        · exact hin.1
      rcases hhandled with ⟨outcome, summary, rfl, hrecord, hjoined⟩ |
        ⟨error, hjoined⟩ | ⟨error, hjoined⟩
      · have hending : b.endings[index]? = some (some outcome) := of_decide_eq_true hyields
        have hclaimed := (recordProcessedJobOutcome_eq_ok hrecord).1
        rw [hjoined, if_pos hless]
        have hleft := @counted_leave
          _ _ _ _ _ (b.loop.joined index (.processed outcome)) hcounted hending hrecord
          (by rw [hjoined])
        rw [hjoined] at hleft
        refine inv_leave h hindex hrunning rfl (fun _ => hclaimed) ?_
        rcases hphase with hphase | hphase <;> rw [hphase] at hin
        · simp only [hphase]
          exact ⟨hin.1, hleft⟩
        · simp only [hphase]
          refine ⟨?_, hleft⟩
          intro before hdrain
          obtain ⟨hbefore, hcounts⟩ := hin.1 before hdrain
          exact ⟨hbefore.trans hclaimed.symm, hcounts⟩
      · rw [hjoined, LoopState.return, if_pos hless]
        exact inv_leave h hindex hrunning rfl (fun hnot => absurd rfl (hnot _)) trivial
      · rw [hjoined, LoopState.handleRuntimeError, if_pos hless]
        exact inv_leave h hindex hrunning rfl (fun _ => rfl) ⟨(by rintro ⟨⟩), hdrains⟩
    · rw [hjoined, if_pos hless]
      have hin : exit ≠ .drained ∧ Exits b exit := by
        have hin := h.phase
        rw [hphase] at hin
        exact hin
      refine inv_leave h hindex (running_of_phase hphase (by rintro _ ⟨⟩)) rfl (fun _ => rfl) ?_
      cases exit with
      | runtimeError error => exact hin
      | gracePeriodElapsed summary => exact ⟨(by rintro ⟨⟩), hin.2.drain, hin.2.claimed, hin.2.counts⟩
      | drained => exact absurd rfl hin.1

/-- What a phase says rests on the counts, and on no task being in flight. -/
theorem inPhase_loop {loop : LoopState π} {phase : WorkerLoop.Phase}
    (hempty : b.loop.inFlight = [] → loop.inFlight = []) (hsummary : loop.summary = b.loop.summary)
    (hdrain : loop.drain = b.loop.drain) (h : InPhase b phase) : InPhase { b with loop } phase := by
  have hdrains : Drains b → Drains { b with loop } := by
    intro hdrains summary hsome
    rw [show ({ b with loop } : Books π).loop = loop from rfl, hsummary]
    exact hdrains summary (hdrain ▸ hsome)
  have hcounted : Counted b → Counted { b with loop } := by
    intro hcounted outcome
    rw [show ({ b with loop } : Books π).loop = loop from rfl, hsummary]
    exact hcounted outcome
  have hexits : ∀ exit, Exits b exit → Exits { b with loop } exit := by
    intro exit hexit
    cases exit with
    | runtimeError error => exact hdrains hexit
    | gracePeriodElapsed summary =>
        exact ⟨hdrain.trans hexit.drain, hexit.claimed.trans (hsummary ▸ rfl), hexit.counts⟩
    | drained => exact ⟨hdrain.trans hexit.1, hcounted hexit.2⟩
  cases phase with
  | startup => exact ⟨hdrain.trans h.1, hempty h.2.1, h.2.2.1, h.2.2.2.1, hcounted h.2.2.2.2⟩
  | draining => exact ⟨hdrains h.1, hcounted h.2⟩
  | aborting exit errors => exact ⟨h.1, hexits exit h.2⟩
  | cleaning exit errors next => exact ⟨hempty h.1, hexits exit h.2⟩
  | returned result =>
      cases result with
      | ok summary => exact ⟨hempty h.1, h.2⟩
      | error error => trivial
  | _ => exact ⟨hdrain.trans h.1, hcounted h.2⟩

theorem inv_same (h : Inv b) {loop : LoopState π} (hinFlight : loop.inFlight = b.loop.inFlight)
    (hsummary : loop.summary = b.loop.summary)
    (hdrain : loop.drain = b.loop.drain) (hphase : loop.phase = b.loop.phase) :
    Inv { b with loop } := by
  refine inv_loop h hinFlight hsummary (fun result hresult => hphase.trans hresult) ?_
  rw [hphase]
  exact inPhase_loop (fun hempty => hinFlight.trans hempty) hsummary hdrain h.phase

/-- With all tasks gone, a summary that counts every end makes the balance. -/
theorem inv_returnSummary {summary : WorkerRunLoopSummary}
    (h : Inv b) (hrunning : ∀ result, b.loop.phase ≠ .returned result)
    (hempty : b.loop.inFlight = []) (hclaimed : summary.claimedCount = b.loop.summary.claimedCount)
    (hcounts : ∀ outcome, counter summary outcome = b.ended.count outcome) :
    Inv { b with loop := b.loop.return (.ok summary) } := by
  refine inv_loop h rfl rfl
    (fun result hresult => absurd hresult (hrunning result)) ⟨hempty, hcounts, ?_⟩
  have hclaims := h.claims hrunning
  have hendings : b.endings = [] := by
    rw [← length_eq_zero_iff, h.lengths, hempty]
    rfl
  rw [Claims, hendings, count_nil] at hclaims
  rw [hclaimed, hclaims, processed_eq_length hcounts]
  rfl

theorem inv_returnError {error : WorkerLoop.LoopError} (h : Inv b)
    (hrunning : ∀ result, b.loop.phase ≠ .returned result) :
    Inv { b with loop := b.loop.return (.error error) } :=
  inv_loop h rfl rfl (fun result hresult => absurd hresult (hrunning result)) trivial

theorem shutdownTimeoutResult_cases (summary : WorkerRunLoopSummary)
    (errors : List WorkerLoop.WorkerError)
    (cleanupResult : Except WorkerLoop.CleanupError Unit) :
    WorkerLoop.workerRuntimeShutdownTimeoutResult summary errors cleanupResult = .ok summary ∨
      ∃ error, WorkerLoop.workerRuntimeShutdownTimeoutResult summary errors cleanupResult =
        .error error := by
  unfold WorkerLoop.workerRuntimeShutdownTimeoutResult
  split
  · exact .inl rfl
  all_goals exact .inr ⟨_, rfl⟩

theorem counted_of_empty (h : Inv b) (hempty : b.loop.inFlight = [])
    (hcounted : Counted b) (outcome : ProcessedJobOutcome) :
    counter b.loop.summary outcome = b.ended.count outcome := by
  have hendings : b.endings = [] := by
    rw [← length_eq_zero_iff, h.lengths, hempty]
    rfl
  rw [hcounted outcome, hendings, count_nil, Nat.add_zero]

theorem inv_finishCleanup {exit : Exit} {errors : List WorkerLoop.WorkerError}
    {cleanupResult : Except WorkerLoop.CleanupError Unit} (h : Inv b)
    (hrunning : ∀ result, b.loop.phase ≠ .returned result)
    (hempty : b.loop.inFlight = []) (hexits : Exits b exit) :
    Inv { b with loop := b.loop.finishCleanup exit errors cleanupResult } := by
  cases exit with
  | runtimeError error => exact inv_returnError h hrunning
  | gracePeriodElapsed summary =>
      rw [LoopState.finishCleanup]
      rcases shutdownTimeoutResult_cases summary errors cleanupResult with hresult | ⟨error, hresult⟩
      · rw [hresult]
        exact inv_returnSummary h hrunning hempty hexits.claimed hexits.counts
      · rw [hresult]
        exact inv_returnError h hrunning
  | drained =>
      cases cleanupResult with
      | ok _ => exact inv_returnSummary h hrunning hempty rfl (counted_of_empty h hempty hexits.2)
      | error e => exact inv_returnError h hrunning

theorem inv_cleaning {exit : Exit} {errors : List WorkerLoop.WorkerError}
    {next next' : WorkerLoop.CleanupStep} (h : Inv b)
    (hphase : b.loop.phase = .cleaning exit errors next) (tables : Tables π) :
    Inv { b with loop := { b.loop with tables, phase := .cleaning exit errors next' } } := by
  have hin := h.phase
  rw [hphase] at hin
  refine inv_loop h rfl rfl (fun result hresult => ?_) ?_
  · rw [hphase] at hresult
    cases hresult
  · cases exit with
    | runtimeError error => exact hin
    | gracePeriodElapsed summary => exact ⟨hin.1, hin.2.drain, hin.2.claimed, hin.2.counts⟩
    | drained => exact hin

theorem inv_cleanup {m : Moment π} {reply : Except WorkerLoop.CleanupError Unit} (h : Inv b) :
    Inv { b with loop := b.loop.cleanup config m reply } := by
  unfold LoopState.cleanup
  split
  · rename_i exit errors next hphase
    have hin : b.loop.inFlight = [] ∧ Exits b exit := by
      have hin := h.phase
      rw [hphase] at hin
      exact hin
    have hrunning := running_of_phase hphase (by rintro _ ⟨⟩)
    split
    · exact inv_finishCleanup h hrunning hin.1 hin.2
    · split
      · exact inv_finishCleanup h hrunning hin.1 hin.2
      · exact inv_cleaning h hphase _
    · split
      · exact inv_finishCleanup h hrunning hin.1 hin.2
      · exact inv_cleaning h hphase _
    · split
      · exact inv_finishCleanup h hrunning hin.1 hin.2
      · exact inv_cleaning h hphase _
    · exact inv_cleaning h hphase _
  · exact h

theorem inv_noneInFlight (h : Inv b) : Inv { b with loop := b.loop.noneInFlight } := by
  unfold LoopState.noneInFlight
  split
  · rename_i hempty
    split
    · rename_i hphase
      have hin := h.phase
      rw [hphase] at hin
      refine inv_loop h rfl rfl (fun result hresult => ?_) ⟨hempty, rfl, hin.2⟩
      exact absurd hresult (running_of_phase hphase (by rintro _ ⟨⟩) result)
    · rename_i exit errors hphase
      have hin := h.phase
      rw [hphase] at hin
      refine inv_loop h rfl rfl (fun result hresult => ?_) ⟨hempty, ?_⟩
      · exact absurd hresult (running_of_phase hphase (by rintro _ ⟨⟩) result)
      · cases exit with
        | runtimeError error => exact hin.2
        | gracePeriodElapsed summary => exact ⟨hin.2.drain, hin.2.claimed, hin.2.counts⟩
        | drained => exact absurd rfl hin.1
    · exact h
  · exact h

theorem inv_gracePeriodElapsed (h : Inv b) (hends : EndsCounted .gracePeriodElapsed b) :
    Inv { b with loop := b.loop.gracePeriodElapsed } := by
  unfold LoopState.gracePeriodElapsed
  split
  · exact h
  · exact h
  · rename_i summary hdrain hrunning
    have hlag : Drains b := by
      have hin := h.phase
      cases hphase : b.loop.phase with
      | returned result => exact absurd hphase (hrunning result)
      | draining =>
          rw [hphase] at hin
          exact hin.1
      | aborting exit errors =>
          rw [hphase] at hin
          cases exit with
          | runtimeError error => exact hin.2
          | gracePeriodElapsed before => rw [hin.2.drain] at hdrain; cases hdrain
          | drained => exact absurd rfl hin.1
      | cleaning exit errors next =>
          rw [hphase] at hin
          cases exit with
          | runtimeError error => exact hin.2
          | gracePeriodElapsed before => rw [hin.2.drain] at hdrain; cases hdrain
          | drained => rw [hin.2.1] at hdrain; cases hdrain
      | _ =>
          rw [hphase] at hin
          rw [hin.1] at hdrain
          cases hdrain
    obtain ⟨hclaimed, hle⟩ := hlag summary hdrain
    refine inv_loop h rfl rfl (fun result hresult => absurd hresult (hrunning result)) ?_
    exact ⟨(by rintro ⟨⟩), rfl, hclaimed, counter_eq_of_le hle (hends summary hdrain)⟩

theorem over_set {inFlight : List (Execution π)} {endings : List (Option ProcessedJobOutcome)}
    (hover : ∀ (index : Nat) e outcome,
      inFlight[index]? = some e → endings[index]? = some (some outcome) → Over e)
    {acted : Nat} {e e' : Execution π} (he : inFlight[acted]? = some e) (hover' : Over e → Over e')
    (index : Nat) (other : Execution π) (outcome : ProcessedJobOutcome)
    (hother : (inFlight.set acted e')[index]? = some other)
    (hending : endings[index]? = some (some outcome)) : Over other := by
  rw [getElem?_set] at hother
  split_ifs at hother with hsame
  · obtain rfl := Option.some.inj hother
    exact hover' (hover acted e outcome he (hsame ▸ hending))
  · exact hover index other outcome hother hending

theorem count_set {α : Type} [BEq α] {l : List α} {index : Nat}
    {a : α} (hindex : index < l.length) (b other : α)
    (ha : l[index]? = some a) :
    (l.set index b).count other + (if a == other then 1 else 0) =
      l.count other + if b == other then 1 else 0 := by
  rw [(set_perm_cons_eraseIdx hindex b).count_eq other, count_cons, count_eraseIdx ha other]
  omega

/-- The books after a task has ended its job. -/
def finish (b : Books π) (index : Nat) (outcome : ProcessedJobOutcome) (loop : LoopState π) : Books π :=
  { b with loop, endings := b.endings.set index (some outcome), ended := b.ended ++ [outcome] }

theorem counted_finish {index : Nat} {outcome : ProcessedJobOutcome}
    {loop : LoopState π} (hcounted : Counted b)
    (hending : b.endings[index]? = some none) (hsummary : loop.summary = b.loop.summary) :
    Counted (finish b index outcome loop) := by
  intro other
  have hset := count_set (List.getElem?_eq_some_iff.1 hending).1 (some outcome) (some other) hending
  have hother := hcounted other
  simp only [finish, hsummary, count_append, count_singleton]
  rw [if_neg nofun, Nat.add_zero, Option.some_beq_some] at hset
  omega

theorem drains_finish {index : Nat} {outcome : ProcessedJobOutcome}
    {loop : LoopState π} (hdrains : Drains b)
    (hdrain : loop.drain = b.loop.drain) (hsummary : loop.summary = b.loop.summary) :
    Drains (finish b index outcome loop) := by
  intro summary hsome
  obtain ⟨hclaimed, hle⟩ := hdrains summary (hdrain ▸ hsome)
  refine ⟨hclaimed.trans (hsummary ▸ rfl), fun other => (hle other).trans ?_⟩
  simp only [finish, count_append]
  exact Nat.le_add_right _ _

theorem inPhase_finish {index : Nat} {outcome : ProcessedJobOutcome}
    {loop : LoopState π} {phase : WorkerLoop.Phase}
    (hflying : b.loop.inFlight ≠ [])
    (htimely : ∀ summary errors, phase ≠ .aborting (.gracePeriodElapsed summary) errors)
    (hending : b.endings[index]? = some none) (hsummary : loop.summary = b.loop.summary)
    (hdrain : loop.drain = b.loop.drain) (h : InPhase b phase) :
    InPhase (finish b index outcome loop) phase := by
  cases phase with
  | startup => exact absurd h.2.1 hflying
  | draining => exact ⟨drains_finish h.1 hdrain hsummary, counted_finish h.2 hending hsummary⟩
  | aborting exit errors =>
      cases exit with
      | runtimeError error => exact ⟨h.1, drains_finish h.2 hdrain hsummary⟩
      | gracePeriodElapsed summary => exact absurd rfl (htimely summary errors)
      | drained => exact absurd rfl h.1
  | cleaning exit errors next => exact absurd h.1 hflying
  | returned result =>
      cases result with
      | ok summary => exact absurd h.1 hflying
      | error error => trivial
  | _ => exact ⟨hdrain.trans h.1, counted_finish h.2 hending hsummary⟩

theorem inv_task {index : Nat} {event : Event π} (h : Inv b)
    (hends : EndsCounted (.task index event) b) :
    Inv (b.next config (.task index event)) := by
  simp only [Books.next, LoopState.next]
  cases he : b.loop.inFlight[index]? with
  | none => exact h
  | some e =>
      have hflying : b.loop.inFlight ≠ [] := by
        rintro hempty
        rw [hempty] at he
        cases he
      rw [Option.bind_some]
      cases hend : jobEnd e b.loop.tables event with
      | none =>
          refine ⟨?_, over_set h.ended he over_act, h.claims, ?_⟩
          · rw [h.lengths, length_set]
          · exact inPhase_loop (fun hempty => absurd hempty hflying) rfl rfl h.phase
      | some outcome =>
          have hindex := (List.getElem?_eq_some_iff.1 he).1
          have hending : b.endings[index]? = some none := by
            cases hb : b.endings[index]? with
            | none => exact absurd (List.getElem?_eq_none_iff.1 hb) (by rw [h.lengths]; omega)
            | some ending =>
                cases ending with
                | none => rfl
                | some before =>
                    rw [jobEnd_over (h.ended index e before he hb)] at hend
                    cases hend
          refine ⟨?_, ?_, ?_, ?_⟩
          · rw [length_set, length_set, h.lengths]
          · intro other e' outcome' he' hending'
            rw [getElem?_set] at he' hending'
            split_ifs at he' hending' with hsame
            · obtain rfl := Option.some.inj he'
              exact over_of_jobEnd hend
            · exact h.ended other e' outcome' he' hending'
          · intro hrunning
            have hclaims := h.claims hrunning
            have hset := count_set (h.lengths ▸ hindex) (some outcome) none hending
            rw [Claims] at hclaims ⊢
            dsimp only
            rw [if_pos (beq_self_eq_true _), if_neg (by rintro ⟨⟩)] at hset
            rw [length_append, length_singleton, hclaims]
            omega
          · refine inPhase_finish hflying (fun summary errors hphase => ?_) hending rfl rfl h.phase
            have hnone := hends summary errors hphase
            rw [he, Option.bind_some, hend] at hnone
            cases hnone

theorem inv_next {input : WorkerLoop.Input π} (h : Inv b) (hends : EndsCounted input b) :
    Inv (b.next config input) := by
  cases input with
  | startup delay =>
      simp only [Books.next, LoopState.next]
      split
      · rename_i hphase
        exact inv_returnError h (running_of_phase hphase (by rintro _ ⟨⟩))
      · rename_i hphase
        have hin := h.phase
        have hrunning := running_of_phase hphase (by rintro _ ⟨⟩)
        rw [hphase] at hin
        obtain ⟨-, hempty, hended, hreturned, -⟩ := hin
        refine inv_loop h rfl rfl
          (fun result hresult => absurd hresult (hrunning result)) ⟨hempty, ?_, ?_⟩
        · intro outcome
          rw [hended]
          cases outcome <;> rfl
        · dsimp only
          rw [hreturned]
          rfl
      · rename_i hphase
        have hin := h.phase
        have hrunning := running_of_phase hphase (by rintro _ ⟨⟩)
        rw [hphase] at hin
        exact inv_loop h rfl rfl
          (fun result hresult => absurd hresult (hrunning result)) ⟨hin.1, hin.2.2.2.2⟩
      · exact h
  | requestShutdown => exact inv_same h rfl rfl rfl rfl
  | claim m reply =>
      simp only [Books.next, LoopState.next]
      split
      · rename_i hphase
        exact inv_claim h hphase
      · exact inv_claimed rfl h
  | timerElapsed =>
      simp only [Books.next, LoopState.next]
      split
      · rename_i hphase
        have hin := h.phase
        rw [hphase] at hin
        exact inv_loop h rfl rfl
          (fun result hresult => absurd hresult (running_of_phase hphase (by rintro _ ⟨⟩) result)) hin
      · rename_i hphase
        have hin := h.phase
        rw [hphase] at hin
        exact inv_loop h rfl rfl
          (fun result hresult => absurd hresult (running_of_phase hphase (by rintro _ ⟨⟩) result)) hin
      · exact h
  | noticeShutdown =>
      simp only [Books.next, LoopState.next]
      split
      · rename_i hphase _
        have hin := h.phase
        rw [hphase] at hin
        exact inv_finishShutdown h hin.2 (running_of_phase hphase (by rintro _ ⟨⟩))
      · rename_i hphase _
        have hin := h.phase
        rw [hphase] at hin
        exact inv_finishShutdown h hin.2 (running_of_phase hphase (by rintro _ ⟨⟩))
      · exact h
  | joined index result =>
      simp only [Books.next, LoopState.next]
      split
      · rename_i hyields
        exact inv_joined h hyields
      · exact h
  | noneInFlight => exact inv_noneInFlight h
  | gracePeriodElapsed => exact inv_gracePeriodElapsed h hends
  | cleanup m reply => exact inv_cleanup h
  | task index event => exact inv_task h hends
  | other m statement =>
      simp only [Books.next, LoopState.next]
      split
      · exact h
      · split
        · exact h
        · exact inv_same h rfl rfl rfl rfl

theorem inv_start (t : Tables π) : Inv (Books.start t) where
  lengths := rfl
  ended index e outcome he := by
    rw [Books.start, LoopState.start, List.getElem?_nil] at he
    cases he
  claims _ := rfl
  phase := ⟨rfl, rfl, rfl, rfl, fun outcome => by cases outcome <;> rfl⟩

theorem balanced_of_inv (h : Inv b) : Balanced b := by
  have hin : ∀ summary, b.loop.phase = .returned (.ok summary) →
      (∀ outcome, counter summary outcome = b.ended.count outcome) ∧
        summary.claimedCount = summary.processed + b.returned := by
    intro summary hphase
    have hin := h.phase
    rw [hphase] at hin
    exact hin.2
  exact ⟨fun summary hphase => (hin summary hphase).1, fun summary hphase => (hin summary hphase).2⟩

/-- A run whose grace period cuts off no job that has ended accounts for every claim. -/
theorem run_balances (config : WorkerConfig) (t : Tables π) (inputs : List (WorkerLoop.Input π))
    (hends : Meets EndsCounted (step config) inputs (Books.start t)) :
    Balanced (exec (step config) inputs (Books.start t)) := by
  have hstep : ∀ (input : WorkerLoop.Input π) b, EndsCounted input b →
    Inv b → Inv (step config input b).1 :=
    fun _ _ hends h => inv_next h hends
  exact balanced_of_inv (exec_preserves hstep hends (inv_start t))

end Steps

section GracePeriod

open WorkerLoop (reportWorker waitingRow calm)
open QueueOwnership (report worker)

def pairWorker : WorkerConfig := { reportWorker with concurrency := 2 }

def otherRow : JobRow Unit :=
  enqueuedJob 0 0 report ⟨none, 5, 0, numericDomains_five_retries⟩ none 2 ()

def startedRow : JobRow Unit := { claimedBy 0 worker waitingRow with executionStartedAt := some 0 }

def completedRow : JobRow Unit := { clearWorkerRuntime (some 0) startedRow with status := .completed }

def pairWaiting : Tables Unit := ⟨[waitingRow, otherRow], [], [], by rintro ⟨⟩ <;> decide⟩

def pairTaken : Tables Unit :=
  ⟨[claimedBy 0 worker waitingRow, claimedBy 0 worker otherRow], [], [], by rintro ⟨⟩ <;> decide⟩

def pairStarted : Tables Unit :=
  ⟨[startedRow, claimedBy 0 worker otherRow], [], [], by rintro ⟨⟩ <;> decide⟩

def pairDone : Tables Unit :=
  ⟨[completedRow, claimedBy 0 worker otherRow], [], [], by rintro ⟨⟩ <;> decide⟩

/-- The worker claims both jobs and has started the first. -/
def claimPair : List (WorkerLoop.Input Unit) :=
  [.startup (.ok true), .claim (calm pairWaiting) .acknowledged, .task 0 (.begin true),
    .task 0 (.statement (calm pairTaken) 3 true)]

/-- The first job completes in the grace period, and the second does not end in it. -/
def drainPair : List (WorkerLoop.Input Unit) :=
  [.requestShutdown, .noticeShutdown, .task 0 (.handlerDone (.returned (.ok ())) none),
    .task 0 (.statement (calm pairStarted) 3 true),
      .joined 0 (.processed .succeeded), .gracePeriodElapsed,
    .task 0 .abort, .joined 0 (.cancelled "task was cancelled"),
      .noneInFlight, .cleanup (calm pairDone) (.ok ()),
    .cleanup (calm pairDone) (.ok ()), .cleanup (calm pairDone) (.ok ())]

def otherStartedRow : JobRow Unit := { claimedBy 0 worker otherRow with executionStartedAt := some 0 }

def retriedRow : JobRow Unit :=
  { clearWorkerRuntime none otherStartedRow with
    status := .pending, retryCount := 1, runAtOrAfter := 1000000, lastError := some "queue job timed out" }

def pairBusy : Tables Unit := ⟨[completedRow, otherStartedRow], [], [], by rintro ⟨⟩ <;> decide⟩

def pairOver : Tables Unit := ⟨[completedRow, retriedRow], [], [], by rintro ⟨⟩ <;> decide⟩

/-- Both jobs end in the grace period: the first completes, and the handler of the second
is started, times out and is to be retried. -/
def drainBoth : List (WorkerLoop.Input Unit) :=
  [.requestShutdown, .noticeShutdown, .task 0 (.handlerDone (.returned (.ok ())) none),
    .task 0 (.statement (calm pairStarted) 3 true), .joined 0 (.processed .succeeded),
    .task 0 (.begin true), .task 0 (.statement (calm pairDone) 3 true),
    .task 0 (.handlerDone .timedOut (some 1000000)),
    .task 0 (.statement (calm pairBusy) 3 true), .joined 0 (.processed .retried),
    .noneInFlight, .cleanup (calm pairOver) (.ok ()),
    .cleanup (calm pairOver) (.ok ()), .cleanup (calm pairOver) (.ok ())]

theorem run_balances_drained :
    let b := exec (step pairWorker) (claimPair ++ drainBoth) (Books.start pairWaiting)
    b.loop.phase = .returned (.ok ⟨2, 1, 1, 0, 0, 0⟩) ∧ b.ended = [.succeeded, .retried] ∧
      Balanced b := by
  refine ⟨rfl, rfl, run_balances pairWorker pairWaiting _ ?_⟩
  simp only [claimPair, drainBoth, cons_append, nil_append, meets_cons, meets_nil, EndsCounted,
    true_and, and_true]
  refine ⟨?_, ?_, ?_, ?_, ?_, ?_, ?_, ?_⟩ <;> rintro summary errors ⟨⟩

/-- The job that completed in the grace period is in none of the counts. -/
theorem grace_period_unbalanced :
    ¬∀ (config : WorkerConfig) (t : Tables Unit) (inputs : List (WorkerLoop.Input Unit)),
    Balanced (exec (step config) inputs (Books.start t)) := by
  intro h
  have hbalanced := h pairWorker pairWaiting (claimPair ++ drainPair)
  have hrun : exec (step pairWorker) (claimPair ++ drainPair) (Books.start pairWaiting) =
      ⟨(exec (step pairWorker) (claimPair ++ drainPair) (Books.start pairWaiting)).loop,
        [], [.succeeded], 1⟩ := rfl
  rw [hrun] at hbalanced
  have hclaims := hbalanced.claims ⟨2, 0, 0, 0, 0, 0⟩ rfl
  cases hclaims

end GracePeriod

end Paranoid.WorkerAccounting
