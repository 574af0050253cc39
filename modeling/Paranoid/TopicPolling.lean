import Paranoid.Chains
import Paranoid.TopicDelivery

namespace Paranoid.TopicPolling

open Chains KvAtomic TopicModel TopicScans TopicSteps Transitions

variable {κ D : Type} {c start stop : Nat} {rows news : List (EventRow D)} {row : EventRow D}
  {batch : Batch D} {batches more : List (Batch D)}

/-- A batch has the event, or passed over it after it had expired. -/
def Passed (batches : List (Batch D)) (row : EventRow D) : Prop :=
  ∃ b ∈ batches, row.event ∈ b.events ∨
    row.isLive b.now = false ∧ b.afterSequence < row.sequence ∧ row.sequence ≤ b.last

/-- A batch as a scan returns it where there are events. -/
structure Whole (rows : List (EventRow D)) (batch : Batch D) : Prop where
  nonempty : batch.events ≠ []
  scanned : Scanned batch.now rows batch.afterSequence batch.events

/-- A cursor that accepted batches have reached. -/
structure Settled (accepted : List (Batch D)) (rows : List (EventRow D)) (c : Nat) : Prop where
  at_batch : c = 0 ∨ ∃ b ∈ accepted, b.last = c
  passed : ∀ row ∈ rows, row.sequence ≤ c → Passed accepted row

section Batches

theorem Passed.later (h : Passed batches row) : Passed (batches ++ more) row := by
  obtain ⟨b, hb, hrow⟩ := h
  exact ⟨b, List.mem_append_left more hb, hrow⟩

theorem Whole.last_mem (h : Whole rows batch) : ∃ e ∈ batch.events, batch.last = e.sequence := by
  obtain ⟨hmem, hlast⟩ := TopicDelivery.batch_last batch h.nonempty
  exact ⟨_, hmem, hlast⟩

theorem Whole.le_last (h : Whole rows batch) {e : TopicEvent D} (he : e ∈ batch.events) :
    e.sequence ≤ batch.last := by
  obtain ⟨-, hlast⟩ := TopicDelivery.batch_last batch h.nonempty
  have hsorted := h.scanned.increasing
  rw [← List.dropLast_append_getLast h.nonempty] at he hsorted
  rw [hlast]
  rcases List.mem_append.1 he with he | he
  · exact ((List.pairwise_append.1 hsorted).2.2 e he _ List.mem_cons_self).le
  · rw [List.mem_singleton.1 he]

theorem Whole.after (h : Whole rows batch) {e : TopicEvent D} (he : e ∈ batch.events) :
    batch.afterSequence < e.sequence := by
  obtain ⟨row, -, rfl, hlt, -⟩ := h.scanned.sound e he
  exact hlt

theorem Whole.advances (h : Whole rows batch) : batch.afterSequence < batch.last := by
  obtain ⟨e, he, hlast⟩ := h.last_mem
  rw [hlast]
  exact h.after he

theorem Whole.last_row (h : Whole rows batch) : ∃ row ∈ rows, row.sequence = batch.last := by
  obtain ⟨e, he, hlast⟩ := h.last_mem
  obtain ⟨row, hrow, rfl, -, -⟩ := h.scanned.sound e he
  exact ⟨row, hrow, hlast.symm⟩

/-- A batch passes every event between its ends. -/
theorem Whole.passes (h : Whole rows batch) (hrow : row ∈ rows)
    (hafter : batch.afterSequence < row.sequence)
    (hle : row.sequence ≤ batch.last) : row.event ∈ batch.events ∨
      row.isLive batch.now = false ∧ batch.afterSequence < row.sequence ∧
        row.sequence ≤ batch.last := by
  cases hlive : row.isLive batch.now with
  | true =>
      obtain ⟨e, he, hlast⟩ := h.last_mem
      rw [hlast] at hle
      exact .inl (h.scanned.complete row hrow hafter hlive e he hle)
  | false => exact .inr ⟨rfl, hafter, hle⟩

/-- Events that are committed later are not between the ends of a batch. -/
theorem Whole.append (h : Whole rows batch) (hrows : Numbered (rows ++ news)) :
    Whole (rows ++ news) batch := by
  refine ⟨h.nonempty, ?_, h.scanned.increasing, ?_⟩
  · intro e he
    obtain ⟨row, hrow, heq, hafter, hlive⟩ := h.scanned.sound e he
    exact ⟨row, List.mem_append_left news hrow, heq, hafter, hlive⟩
  · intro row hrow hafter hlive e he hle
    rcases List.mem_append.1 hrow with hold | hnew
    · exact h.scanned.complete row hold hafter hlive e he hle
    · obtain ⟨row', hrow', rfl, -, -⟩ := h.scanned.sound e he
      exact absurd hle (not_le_of_gt
        ((List.pairwise_append.1 hrows.increasing).2.2 row' hrow' row hnew))

theorem Settled.later (h : Settled batches rows c) : Settled (batches ++ more) rows c := by
  refine ⟨h.at_batch.imp_right ?_, fun row hrow hle => (h.passed row hrow hle).later⟩
  rintro ⟨b, hb, hlast⟩
  exact ⟨b, List.mem_append_left more hb, hlast⟩

theorem Settled.append (h : Settled batches rows c) (hbatches : ∀ b ∈ batches, Whole rows b)
    (hrows : Numbered (rows ++ news)) (hnews : ∀ row ∈ news, 0 < row.sequence) :
    Settled batches (rows ++ news) c := by
  have hlater : ∀ new ∈ news, c < new.sequence := by
    intro new hnew
    rcases h.at_batch with rfl | ⟨b, hb, rfl⟩
    · exact hnews new hnew
    · obtain ⟨row, hrow, hlast⟩ := (hbatches b hb).last_row
      rw [← hlast]
      exact (List.pairwise_append.1 hrows.increasing).2.2 row hrow new hnew
  refine ⟨h.at_batch, fun row hrow hle => ?_⟩
  rcases List.mem_append.1 hrow with hold | hnew
  · exact h.passed row hold hle
  · exact absurd hle (not_le_of_gt (hlater row hnew))

/-- A batch that is accepted takes the cursor to its end. -/
theorem Settled.accept (h : Settled batches rows batch.afterSequence) (hwhole : Whole rows batch) :
    Settled (batches ++ [batch]) rows batch.last := by
  have hmem : batch ∈ batches ++ [batch] := List.mem_append_right _ List.mem_cons_self
  refine ⟨.inr ⟨batch, hmem, rfl⟩, fun row hrow hle => ?_⟩
  by_cases hafter : batch.afterSequence < row.sequence
  · exact ⟨batch, hmem, hwhole.passes hrow hafter hle⟩
  · exact (h.passed row hrow (Nat.le_of_not_lt hafter)).later

/-- Batches of one run, each from where the one before it ended. -/
abbrev Delivered (start : Nat) (batches : List (Batch D)) (stop : Nat) : Prop :=
  Chained Batch.afterSequence Batch.last start batches stop

theorem delivered_bounds (h : Delivered start batches stop) (hwhole : ∀ b ∈ batches, Whole rows b) :
    start ≤ stop ∧ ∀ e ∈ batches.flatMap (·.events), start < e.sequence ∧ e.sequence ≤ stop := by
  induction batches generalizing start with
  | nil => exact ⟨(show stop = start from h).ge, nofun⟩
  | cons b bs ih =>
      rw [List.forall_mem_cons] at hwhole
      obtain ⟨rfl, hrest⟩ := h
      obtain ⟨hle, hbounds⟩ := ih hrest hwhole.2
      have hadvances := hwhole.1.advances
      refine ⟨by omega, fun e he => ?_⟩
      rw [List.flatMap_cons] at he
      rcases List.mem_append.1 he with he | he
      · have hlast := hwhole.1.le_last he
        exact ⟨hwhole.1.after he, by omega⟩
      · obtain ⟨hlt, hstop⟩ := hbounds e he
        exact ⟨by omega, hstop⟩

theorem delivered_increasing (h : Delivered start batches stop) (hwhole : ∀ b ∈ batches, Whole rows b) :
    (batches.flatMap (·.events)).Pairwise fun a b => a.sequence < b.sequence := by
  induction batches generalizing start with
  | nil => exact .nil
  | cons b bs ih =>
      rw [List.forall_mem_cons] at hwhole
      obtain ⟨rfl, hrest⟩ := h
      rw [List.flatMap_cons, List.pairwise_append]
      refine ⟨hwhole.1.scanned.increasing, ih hrest hwhole.2, fun e he e' he' => ?_⟩
      have hle := hwhole.1.le_last he
      have hlt := ((delivered_bounds hrest hwhole.2).2 e' he').1
      omega

/-- No event between the ends of a run is left out. -/
theorem delivered_passes (h : Delivered start batches stop)
    (hwhole : ∀ b ∈ batches, Whole rows b) (hrow : row ∈ rows)
    (hafter : start < row.sequence) (hle : row.sequence ≤ stop) : Passed batches row := by
  induction batches generalizing start with
  | nil =>
      have hstop : stop = start := h
      omega
  | cons b bs ih =>
      rw [List.forall_mem_cons] at hwhole
      obtain ⟨rfl, hrest⟩ := h
      by_cases hlast : row.sequence ≤ b.last
      · exact ⟨b, List.mem_cons_self, hwhole.1.passes hrow hafter hlast⟩
      · obtain ⟨b', hb', hpassed⟩ := ih hrest hwhole.2 (Nat.lt_of_not_le hlast)
        exact ⟨b', List.mem_cons_of_mem b hb', hpassed⟩

theorem delivered_last (h : Delivered start batches stop)
    (hwhole : ∀ b ∈ batches, Whole rows b) (hb : batch ∈ batches) :
    batch.last ≤ stop := by
  obtain ⟨e, he, hlast⟩ := (hwhole batch hb).last_mem
  rw [hlast]
  exact ((delivered_bounds h hwhole).2 e (List.mem_flatMap.2 ⟨batch, hb, he⟩)).2

end Batches

/-- Where a run stands with its deliveries, in each of its phases. -/
def PollPhase.At : PollPhase D → Nat → Prop
  | .stopped, _ => True
  | .claiming, _ => False
  | .polling cursor, stop | .checked cursor, stop => cursor = some stop
  | .fetched batch, stop => batch.afterSequence = stop
  | .handling batch, stop | .handled batch, stop => batch.last = stop
  | .advanced newCursor, stop => newCursor = stop

/-- The cursor up to which a loop knows that everything was accepted. -/
def PollPhase.settled : PollPhase D → Option Nat
  | .stopped | .claiming => none
  | .polling cursor | .checked cursor => cursor
  | .fetched batch | .handling batch => some batch.afterSequence
  | .handled batch => some batch.last
  | .advanced newCursor => some newCursor

def PollPhase.held : PollPhase D → Option (Batch D)
  | .fetched batch | .handling batch | .handled batch => some batch
  | _ => none

/-- The account of a polling loop. -/
structure Loop (rows : List (EventRow D)) (accepted : List (Batch D)) (poller : Poller D) : Prop where
  unstarted : poller.start = none → poller.delivered = [] ∧ PollPhase.settled poller.phase = none
  started : ∀ start, poller.start = some start → Settled accepted rows start ∧
    ∃ stop, Delivered start poller.delivered stop ∧ PollPhase.At poller.phase stop
  delivered : ∀ b ∈ poller.delivered, Whole rows b
  settled : ∀ c, PollPhase.settled poller.phase = some c → Settled accepted rows c
  batch : ∀ b, PollPhase.held poller.phase = some b → Whole rows b

section Loop

variable {accepted : List (Batch D)} {poller : Poller D}

theorem Loop.later (h : Loop rows accepted poller) : Loop rows (accepted ++ more) poller := by
  refine ⟨h.unstarted, fun start hstart => ?_, h.delivered, fun c hc => (h.settled c hc).later, h.batch⟩
  obtain ⟨hsettled, hrun⟩ := h.started start hstart
  exact ⟨hsettled.later, hrun⟩

theorem Loop.append (h : Loop rows accepted poller) (haccepted : ∀ b ∈ accepted, Whole rows b)
    (hrows : Numbered (rows ++ news)) (hnews : ∀ row ∈ news, 0 < row.sequence) :
    Loop (rows ++ news) accepted poller := by
  refine ⟨h.unstarted, fun start hstart => ?_, fun b hb => (h.delivered b hb).append hrows,
    fun c hc => (h.settled c hc).append haccepted hrows hnews, fun b hb => (h.batch b hb).append hrows⟩
  obtain ⟨hsettled, hrun⟩ := h.started start hstart
  exact ⟨hsettled.append haccepted hrows hnews, hrun⟩

/-- A step of a loop that neither begins its run nor delivers. -/
theorem Loop.enter (h : Loop rows accepted poller) {old phase : PollPhase D} (hold : poller.phase = old)
    (hat : ∀ stop, PollPhase.At old stop → PollPhase.At phase stop)
    (hunstarted : PollPhase.settled old = none → PollPhase.settled phase = none)
    (hsettled : ∀ c, PollPhase.settled phase = some c → Settled accepted rows c)
    (hheld : ∀ b, PollPhase.held phase = some b → Whole rows b) :
    Loop rows accepted { poller with phase } := by
  subst hold
  refine ⟨fun hnone => ⟨(h.unstarted hnone).1, hunstarted (h.unstarted hnone).2⟩,
    fun start hstart => ?_, h.delivered,
    hsettled, hheld⟩
  obtain ⟨hstart, stop, hdelivered, hphase⟩ := h.started start hstart
  exact ⟨hstart, stop, hdelivered, hat stop hphase⟩

theorem Loop.move (h : Loop rows accepted poller) {old phase : PollPhase D} (hold : poller.phase = old)
    (hat : ∀ stop, PollPhase.At old stop → PollPhase.At phase stop)
    (hsettled : PollPhase.settled phase = PollPhase.settled old)
    (hheld : ∀ b, PollPhase.held phase = some b → Whole rows b) :
    Loop rows accepted { poller with phase } := by
  refine h.enter hold hat hsettled.trans (fun c hc => h.settled c ?_) hheld
  rw [hold, ← hsettled]
  exact hc

theorem Loop.stopped (h : Loop rows accepted poller) :
    Loop rows accepted { poller with phase := .stopped } :=
  h.enter rfl (fun _ _ => trivial) (fun _ => rfl) nofun nofun

theorem loop_fresh {phase : PollPhase D} (hsettled : PollPhase.settled phase = none)
    (hbatch : PollPhase.held phase = none) :
    Loop rows accepted { Poller.stopped with phase } := by
  refine ⟨fun _ => ⟨rfl, hsettled⟩, nofun, nofun, fun c hc => ?_, fun b hb => ?_⟩
  · rw [hsettled] at hc
    cases hc
  · rw [hbatch] at hb
    cases hb

/-- A run begins. -/
theorem Loop.begin (h : Loop rows accepted poller)
    (hphase : poller.phase = .checked none) (hsettled : Settled accepted rows c) :
    Loop rows accepted { poller with phase := .checked (some c), start := some c } := by
  have hnone : poller.start = none := by
    cases hstart : poller.start with
    | none => rfl
    | some start =>
        obtain ⟨-, stop, -, hat⟩ := h.started start hstart
        rw [hphase] at hat
        cases hat
  refine ⟨nofun, fun start hstart => ?_, h.delivered, fun c' hc => ?_, nofun⟩
  · obtain rfl := Option.some.inj hstart
    refine ⟨hsettled, c, ?_, rfl⟩
    rw [(h.unstarted hnone).1]
    rfl
  · obtain rfl := Option.some.inj hc
    exact hsettled

/-- A batch is passed to the handler. -/
theorem Loop.deliver (h : Loop rows accepted poller) (hphase : poller.phase = .fetched batch) :
    Loop rows accepted { poller with
      phase := .handling batch, delivered := poller.delivered ++ [batch] } := by
  have hbatch : Whole rows batch := h.batch batch (by rw [hphase]; rfl)
  refine ⟨fun hnone => ?_, fun start hstart => ?_, ?_,
    fun c hc => h.settled c ?_, fun b hb => h.batch b ?_⟩
  · have hsettled := (h.unstarted hnone).2
    rw [hphase] at hsettled
    cases hsettled
  · obtain ⟨hsettled, stop, hdelivered, hat⟩ := h.started start hstart
    rw [hphase] at hat
    obtain rfl : batch.afterSequence = stop := hat
    exact ⟨hsettled, batch.last, chained_concat hdelivered, rfl⟩
  · intro b hb
    rcases List.mem_append.1 hb with hb | hb
    · exact h.delivered b hb
    · rw [List.mem_singleton.1 hb]
      exact hbatch
  · rw [hphase]
    exact hc
  · rw [hphase]
    exact hb

end Loop

/-- The account of every subscription, where its cursor is written by polling loops only. -/
structure Polling (s : System κ D) : Prop where
  unwritten : ∀ i k, (s.transactions i).cursors k = none
  accepted : ∀ k, ∀ b ∈ s.accepted k, Whole s.store.events b
  failed : ∀ k, ∀ b ∈ s.failed k, Whole s.store.events b
  cursor : ∀ k, Settled (s.accepted k) s.store.events (persistedCursor s k)
  loops : ∀ k p, Loop s.store.events (s.accepted k) (s.pollers k p)

section Polling

variable {s s' : System κ D} {k : κ} {p : Nat} {poller : Poller D}

theorem Polling.frame (h : Polling s) (hstore : s'.store = s.store) (hpollers : s'.pollers = s.pollers)
    (haccepted : s'.accepted = s.accepted) (hfailed : s'.failed = s.failed)
    (hunwritten : ∀ i k, (s'.transactions i).cursors k = none) : Polling s' := by
  refine ⟨hunwritten, ?_, ?_, ?_, ?_⟩
  · rw [haccepted, hstore]
    exact h.accepted
  · rw [hfailed, hstore]
    exact h.failed
  · intro k
    rw [haccepted, hstore, persistedCursor, hstore]
    exact h.cursor k
  · rw [hpollers, haccepted, hstore]
    exact h.loops

variable [DecidableEq κ]

theorem Polling.setPoller (h : Polling s) (hloop : Loop s.store.events (s.accepted k) poller) :
    Polling (s.setPoller k p poller) := by
  refine ⟨h.unwritten, h.accepted, h.failed, h.cursor, fun k' p' => ?_⟩
  by_cases hkp : k' = k ∧ p' = p
  · obtain ⟨rfl, rfl⟩ := hkp
    rw [setPoller_self]
    exact hloop
  · rw [setPoller_other s hkp]
    exact h.loops k' p'

theorem Polling.endRun (h : Polling s) (released : Bool) : Polling (endRun s k p released) := by
  rw [TopicModel.endRun]
  refine Polling.setPoller ?_ (h.loops k p).stopped
  exact h.frame rfl rfl rfl rfl h.unwritten

theorem Polling.accept (h : Polling s) (hphase : (s.pollers k p).phase = .handling batch) :
    Polling { s with accepted := Function.update s.accepted k (s.accepted k ++ [batch]) } ∧
      Settled (s.accepted k ++ [batch]) s.store.events batch.last := by
  have hwhole : Whole s.store.events batch := (h.loops k p).batch batch (by rw [hphase]; rfl)
  have hsettled := (h.loops k p).settled batch.afterSequence (by rw [hphase]; rfl)
  refine ⟨⟨h.unwritten, fun k' b hb => ?_, h.failed, fun k' => ?_, fun k' p' => ?_⟩,
    hsettled.accept hwhole⟩
  · dsimp only at hb
    by_cases hk : k' = k
    · subst hk
      rw [Function.update_self] at hb
      rcases List.mem_append.1 hb with hb | hb
      · exact h.accepted k' b hb
      · rw [List.mem_singleton.1 hb]
        exact hwhole
    · rw [Function.update_of_ne hk] at hb
      exact h.accepted k' b hb
  · dsimp only
    by_cases hk : k' = k
    · subst hk
      rw [Function.update_self]
      exact (h.cursor k').later
    · rw [Function.update_of_ne hk]
      exact h.cursor k'
  · dsimp only
    by_cases hk : k' = k
    · subst hk
      rw [Function.update_self]
      exact (h.loops k' p').later
    · rw [Function.update_of_ne hk]
      exact h.loops k' p'

theorem Polling.fail (h : Polling s) (hphase : (s.pollers k p).phase = .handling batch) :
    Polling { s with failed := Function.update s.failed k (s.failed k ++ [batch]) } := by
  have hwhole : Whole s.store.events batch := (h.loops k p).batch batch (by rw [hphase]; rfl)
  refine ⟨h.unwritten, h.accepted, fun k' b hb => ?_, h.cursor, h.loops⟩
  dsimp only at hb
  by_cases hk : k' = k
  · subst hk
    rw [Function.update_self] at hb
    rcases List.mem_append.1 hb with hb | hb
    · exact h.failed k' b hb
    · rw [List.mem_singleton.1 hb]
      exact hwhole
  · rw [Function.update_of_ne hk] at hb
    exact h.failed k' b hb

/-- The cursor goes to the end of an accepted batch, unless it is further already. -/
theorem Polling.advance (h : Polling s) (hphase : (s.pollers k p).phase = .handled batch) :
    Polling { s with store := { s.store with
      cursors := Function.update s.store.cursors k
        (some (advancedCursor (s.store.cursors k) batch.last)) } } := by
  refine ⟨h.unwritten, h.accepted, h.failed, fun k' => ?_, h.loops⟩
  rw [persistedCursor]
  dsimp only
  by_cases hk : k' = k
  · subst hk
    rw [Function.update_self, Option.getD_some]
    rcases TopicDelivery.advanced_eq (s.store.cursors k') batch.last with heq | heq
    · rw [heq]
      exact h.cursor k'
    · rw [heq]
      exact (h.loops k' p).settled batch.last (by rw [hphase]; rfl)
  · rw [Function.update_of_ne hk]
    exact h.cursor k'

/-- A step of a polling loop. -/
theorem polling_poll (h : Polling s) (hinv : TopicDelivery.Inv s)
    {pollLimit : κ → Nat} {claimMicroseconds : Int}
    (action : PollAction) : Polling (poll pollLimit claimMicroseconds s k p action).1 := by
  have hloop := h.loops k p
  rw [poll.eq_def]
  dsimp only
  split
  · exact h.setPoller (loop_fresh rfl rfl)
  · rename_i now hphase
    split
    · exact Polling.setPoller (h.frame rfl rfl rfl rfl h.unwritten)
        (hloop.move hphase (fun _ => False.elim) rfl (by rintro _ ⟨⟩))
    · exact h
  · split
    · exact h.frame rfl rfl rfl rfl h.unwritten
    · exact h
  · exact h.setPoller ⟨hloop.unstarted, hloop.started, hloop.delivered, hloop.settled, hloop.batch⟩
  · rename_i cursor hphase
    split
    · exact h.endRun true
    · exact h.setPoller (hloop.move hphase (fun _ => id) rfl (by rintro _ ⟨⟩))
  · rename_i cursor hphase
    exact h.setPoller (hloop.move hphase (fun _ => id) rfl (by rintro _ ⟨⟩))
  · rename_i hphase
    exact h.setPoller (hloop.begin hphase (h.cursor k))
  · rename_i now cursor hphase
    have hnumbered : Numbered s.store.events := by
      rw [hinv.events]
      exact hinv.taken.numbered
    have hfits := (hinv.polling k p cursor (by rw [hphase]; rfl)).fits hnumbered
    obtain ⟨events, heq, hscan⟩ := fetchEventsAfter_spec now hnumbered hfits (pollLimit k)
    have hread : Polling { s with reads := s.reads ++ [⟨k, now, cursor, events⟩] } :=
      h.frame rfl rfl rfl rfl h.unwritten
    rw [heq]
    dsimp only
    split
    · exact hread.setPoller (hloop.move hphase (fun _ => id) rfl (by rintro _ ⟨⟩))
    · rename_i hne
      rw [List.isEmpty_iff] at hne
      refine hread.setPoller (hloop.move hphase (fun _ => Option.some.inj) rfl fun b hb => ?_)
      rw [← Option.some.inj hb]
      exact ⟨hne, hscan⟩
  · rename_i batch hphase
    split
    · exact h.endRun true
    · exact h.setPoller (hloop.deliver hphase)
  · rename_i accepts batch hphase
    split
    · obtain ⟨haccepted, hsettled⟩ := h.accept hphase
      split
      · exact haccepted.endRun true
      · refine haccepted.setPoller ?_
        dsimp only
        rw [Function.update_self]
        refine hloop.later.enter hphase (fun _ => id) (by rintro ⟨⟩) (fun c hc => ?_) fun b hb =>
          hloop.batch b ?_
        · rw [← Option.some.inj hc]
          exact hsettled
        · rw [hphase]
          exact hb
    · exact (h.fail hphase).endRun true
  · rename_i batch hphase
    split
    · exact (h.advance hphase).setPoller (hloop.move hphase (fun _ => id) rfl (by rintro _ ⟨⟩))
    · exact h
  · rename_i cursor hphase
    split
    · exact h.endRun true
    · exact h.setPoller (hloop.move hphase (fun _ => congrArg some) rfl (by rintro _ ⟨⟩))
  · exact h.endRun _
  · exact h

end Polling

section Transactions

variable {s s' : System κ D} {i : Nat}

def Unwritten (s : System κ D) : Prop := ∀ i k, (s.transactions i).cursors k = none

theorem Unwritten.put (h : Unwritten s) (i : Nat)
    {tx : Transaction κ D} (htx : ∀ k, tx.cursors k = none) :
    Unwritten (s.put i tx) := by
  intro j k
  by_cases hj : j = i
  · rw [hj, put_self]
    exact htx k
  · rw [put_other s hj]
    exact h j k

theorem Unwritten.release (h : Unwritten s) (i : Nat) : Unwritten (release s i) := by
  rw [TopicModel.release]
  exact Unwritten.put h i fun _ => rfl

/-- Cursors are written by the loops, where nobody else advances them. -/
def polled : Input κ D → Bool
  | .advanceCursor _ => false
  | _ => true

variable [DecidableEq κ] (ttl : Ttl) (pollLimit : κ → Nat) (claimMicroseconds : Int) {input : Input κ D}

theorem unwritten_step (hinput : polled input) (h : Unwritten s) :
    Unwritten (step ttl pollLimit claimMicroseconds input s).1 := by
  cases input with
  | allocate i now =>
      rw [step]
      split
      · rw [allocate]
        split
        · exact h
        · dsimp only
          split
          · exact h
          · exact Unwritten.put h i (h i)
      · exact h
  | storeEvent i now data =>
      rw [step]
      split
      · rw [storeEvent]
        split
        · exact h.put i (h i)
        · exact h.put i (h i)
      · exact h
  | dropPublish i =>
      rw [step]
      split
      · exact h.put i (h i)
      · exact h
  | fetchCursor i subscription =>
      rw [step]
      split
      · exact h.put i (h i)
      · exact h
  | fetchEvents i now =>
      rw [step]
      split
      · rw [fetchEvents]
        split
        · exact h.put i (h i)
        · dsimp only
          split <;> exact Unwritten.put h i (h i)
      · exact h
  | advanceCursor i => cases hinput
  | commit i =>
      rw [step]
      split
      · exact h
      · exact Unwritten.release h i
  | rollback i => exact h.release i
  | poll k p action =>
      rw [step]
      rw [Unwritten, poll_transactions]
      exact h

omit [DecidableEq κ] in
/-- A commit adds its events, all of them after those that were there. -/
theorem Polling.commit (h : Polling s) (hinv : TopicDelivery.Inv s) (i : Nat) :
    Polling (commit s i) := by
  have hnews := TopicDelivery.positive_own hinv i
  have hrows : Numbered (s.store.events ++ (s.transactions i).events) := hinv.numbered i
  have hcursor : ∀ k, persistedCursor (TopicModel.commit s i) k = persistedCursor s k := by
    intro k
    show (((s.transactions i).cursors k).or (s.store.cursors k)).getD 0 = (s.store.cursors k).getD 0
    rw [h.unwritten i k, Option.none_or]
  refine ⟨Unwritten.release h.unwritten i, fun k b hb => (h.accepted k b hb).append hrows,
    fun k b hb => (h.failed k b hb).append hrows, fun k =>
      ?_, fun k p => (h.loops k p).append (h.accepted k) hrows hnews⟩
  rw [hcursor k]
  exact (h.cursor k).append (h.accepted k) hrows hnews

theorem polling_step (hinput : polled input) (hinv : TopicDelivery.Inv s) (h : Polling s) :
    Polling (step ttl pollLimit claimMicroseconds input s).1 := by
  by_cases hcommit : ∃ i, input = .commit i
  · obtain ⟨i, rfl⟩ := hcommit
    rw [step]
    split
    · exact h
    · exact h.commit hinv i
  by_cases hpoll : ∃ k p action, input = .poll k p action
  · obtain ⟨k, p, action, rfl⟩ := hpoll
    exact polling_poll h hinv action
  obtain ⟨i, hlocal⟩ := (step_cases input s).resolve_right hpoll
  have hstore := step_store ttl pollLimit claimMicroseconds input s (fun i heq => hcommit ⟨i, heq⟩)
    fun k p action heq => hpoll ⟨k, p, action, heq⟩
  exact h.frame hstore hlocal.pollers hlocal.accepted hlocal.failed
    (unwritten_step ttl pollLimit claimMicroseconds hinput h.unwritten)

omit [DecidableEq κ] in
theorem polling_start : Polling (System.start : System κ D) := by
  have hcursor : Settled ([] : List (Batch D)) [] 0 := ⟨.inl rfl, nofun⟩
  exact ⟨fun _ _ => rfl, nofun, nofun, fun _ => hcursor, fun _ _ => loop_fresh rfl rfl⟩

/-- A committed event, seen from a run of a loop that began at `start`: it was passed by
an accepted batch before, or a batch of the run passes it before the run gets any further. -/
def Accounted (s : System κ D) (k : κ) (start : Nat)
    (delivered : List (Batch D)) (row : EventRow D) : Prop :=
  row.sequence ≤ start ∧ Passed (s.accepted k) row ∨
    start < row.sequence ∧ ∀ b ∈ delivered, row.sequence ≤ b.last → Passed delivered row

omit [DecidableEq κ] in
theorem accounted (h : Polling s) {k : κ} {p start : Nat}
    (hstart : (s.pollers k p).start = some start) {row : EventRow D}
    (hrow : row ∈ s.store.events) : Accounted s k start (s.pollers k p).delivered row := by
  obtain ⟨hsettled, stop, hdelivered, -⟩ := (h.loops k p).started start hstart
  by_cases hle : row.sequence ≤ start
  · exact .inl ⟨hle, hsettled.passed row hrow hle⟩
  · refine .inr ⟨Nat.lt_of_not_le hle, fun b hb hlast => ?_⟩
    have hstop := delivered_last hdelivered (h.loops k p).delivered hb
    exact delivered_passes hdelivered (h.loops k p).delivered
      hrow (Nat.lt_of_not_le hle) (hlast.trans hstop)

/-- A handler error ends the run, and leaves the cursor. -/
theorem handler_error {k : κ} {p : Nat} {batch : Batch D}
    (hphase : (s.pollers k p).phase = .handling batch) :
    let s' := (step ttl pollLimit claimMicroseconds (.poll k p (.handlerReturns false)) s).1
    (s'.pollers k p).phase = .stopped ∧ persistedCursor s' k = persistedCursor s k ∧
      s'.failed k = s.failed k ++ [batch] := by
  have hpoll : (step ttl pollLimit claimMicroseconds (.poll k p (.handlerReturns false)) s).1 =
      endRun { s with failed := Function.update s.failed k (s.failed k ++ [batch]) } k p true := by
    rw [step, poll.eq_def]
    dsimp only
    rw [hphase]
    rfl
  rw [hpoll]
  refine ⟨?_, rfl, ?_⟩
  · rw [endRun_self]
  · exact Function.update_self ..

/-- In every run in which the loops alone advance the cursors: a cursor only ever advances,
to the end of a batch that a handler accepted. A run of a loop begins from the cursor that
was persisted when it fetched it, and delivers increasing events without a gap: a committed event is in a
batch of the run, or had expired when a batch passed it. And a handler error leaves the
cursor; the events of a failed batch are accounted for in any other run as any event is. -/
theorem polling_delivers_at_least_once {inputs : List (Input κ D)}
    (hinputs : ∀ input ∈ inputs, polled input) (k : κ) :
    let s := exec (step ttl pollLimit claimMicroseconds) inputs System.start
    (∀ input : Input κ D,
      persistedCursor s k ≤ persistedCursor (step ttl pollLimit claimMicroseconds input s).1 k) ∧
    (persistedCursor s k = 0 ∨ ∃ b ∈ s.accepted k, b.last = persistedCursor s k) ∧
    (∀ row ∈ s.store.events, row.sequence ≤ persistedCursor s k → Passed (s.accepted k) row) ∧
    (∀ p start, (s.pollers k p).start = some start →
      let delivered := (s.pollers k p).delivered
      (∃ before after, inputs = before ++ .poll k p .fetchCursor :: after ∧
        ((exec (step ttl pollLimit claimMicroseconds) before System.start).pollers k p).phase =
          .checked none ∧
        persistedCursor (exec (step ttl pollLimit claimMicroseconds) before System.start) k = start ∧
        ∀ later, later <+: after →
          ((exec (step ttl pollLimit claimMicroseconds) (before ++ .poll k p .fetchCursor :: later)
            System.start).pollers k p).start = some start) ∧
      ((delivered.flatMap (·.events)).Pairwise fun a b => a.sequence < b.sequence) ∧
      (∀ e ∈ delivered.flatMap (·.events), start < e.sequence ∧ ∃ row ∈ s.store.events, row.event = e) ∧
      ∀ row ∈ s.store.events, Accounted s k start delivered row) ∧
    (∀ p batch, (s.pollers k p).phase = .handling batch →
      let s' := (step ttl pollLimit claimMicroseconds (.poll k p (.handlerReturns false)) s).1
      (s'.pollers k p).phase = .stopped ∧ persistedCursor s' k = persistedCursor s k ∧
        s'.failed k = s.failed k ++ [batch]) ∧
    ∀ b ∈ s.failed k, ∀ e ∈ b.events, ∃ row ∈ s.store.events, row.event = e ∧
      ∀ p start, (s.pollers k p).start = some start →
        Accounted s k start (s.pollers k p).delivered row := by
  intro s
  have hstep : ∀ (input : Input κ D) (s : System κ D), polled input → TopicDelivery.Inv s ∧ Polling s →
      TopicDelivery.Inv (step ttl pollLimit claimMicroseconds input s).1 ∧
        Polling (step ttl pollLimit claimMicroseconds input s).1 := fun input s hinput h =>
    ⟨TopicDelivery.inv_step ttl pollLimit claimMicroseconds input s h.1,
      polling_step ttl pollLimit claimMicroseconds hinput h.1 h.2⟩
  obtain ⟨hinv, hpolling⟩ : TopicDelivery.Inv s ∧ Polling s := exec_preserves hstep
    (meets_of_forall hinputs System.start) ⟨TopicDelivery.inv_start, polling_start⟩
  have hcursor := hpolling.cursor k
  refine ⟨fun input => TopicDelivery.cursor_step ttl pollLimit claimMicroseconds input hinv k,
    hcursor.at_batch,
    hcursor.passed, fun p start hstart =>
      ⟨?_, ?_, fun e he => ?_, fun row hrow => accounted hpolling hstart hrow⟩,
    fun p batch hphase => handler_error ttl pollLimit claimMicroseconds hphase, fun b hb e he => ?_⟩
  · have hstopped : ¬((System.start : System κ D).pollers k p).start = some start := nofun
    obtain ⟨before, input, after, heq, ⟨rfl, hphase, hpersisted⟩, hkept⟩ :=
      exec_kept_since (Q := fun s : System κ D => (s.pollers k p).start = some start)
        (fun input s => start_step ttl pollLimit claimMicroseconds input s) hstopped hstart
    exact ⟨before, after, heq, hphase, hpersisted, hkept⟩
  · obtain ⟨-, stop, hdelivered, -⟩ := (hpolling.loops k p).started start hstart
    exact delivered_increasing hdelivered (hpolling.loops k p).delivered
  · obtain ⟨-, stop, hdelivered, -⟩ := (hpolling.loops k p).started start hstart
    obtain ⟨b, hb, heb⟩ := List.mem_flatMap.1 he
    obtain ⟨row, hrow, heq, -, -⟩ := ((hpolling.loops k p).delivered b hb).scanned.sound e heb
    exact ⟨((delivered_bounds hdelivered (hpolling.loops k p).delivered).2 e he).1, row, hrow, heq⟩
  · obtain ⟨row, hrow, heq, -, -⟩ := (hpolling.failed k b hb).scanned.sound e he
    exact ⟨row, hrow, heq, fun p start hstart => accounted hpolling hstart hrow⟩

end Transactions

/-- Thirty seconds. -/
def defaultSubscriptionPollingLoopClaimMicroseconds : Int := 30000000

/-- Two loops with the same batch, of which one is late to notice that its lease is gone:
it fails on the batch after the other has advanced the cursor past it. -/
def lateFailure : List (Input Unit String) :=
  [.allocate 0 0, .storeEvent 0 0 "event", .commit 0] ++
    ([(0, .start), (0, .claim 0), (0, .check), (0, .fetchCursor), (0, .fetchEvents 0), (0, .handle),
      (1, .start), (1, .claim 30000000), (1, .check), (1, .fetchCursor), (1, .fetchEvents 30000000),
      (1, .handle), (1, .handlerReturns true), (1, .advanceCursor), (0, .handlerReturns false),
      (1, .stop true), (0, .start), (0, .claim 60000000), (0, .check), (0, .fetchCursor),
      (0, .fetchEvents 60000000)] :
      List (Nat × PollAction)).map fun action => .poll () action.1 action.2

theorem late_failure_is_not_redelivered :
    let s := exec (step .noExpiration (fun _ : Unit => 10)
      defaultSubscriptionPollingLoopClaimMicroseconds) lateFailure System.start
    (s.failed ()).map (fun b => b.events.map (·.sequence)) = [[1]] ∧
      (s.pollers () 0).start = some 1 ∧ (s.pollers () 0).delivered.length = 0 := by
  decide

theorem late_failure_leaves_accepted_cursor :
    let s := exec (step .noExpiration (fun _ : Unit => 10)
      defaultSubscriptionPollingLoopClaimMicroseconds) lateFailure System.start
    persistedCursor s () = 0 ∨ ∃ b ∈ s.accepted (), b.last = persistedCursor s () :=
  (polling_delivers_at_least_once .noExpiration (fun _ => 10)
    defaultSubscriptionPollingLoopClaimMicroseconds (by decide : ∀ input ∈ lateFailure, polled input) ()).2.1

end Paranoid.TopicPolling
