import Paranoid.TopicScans
import Paranoid.TopicSteps
import Paranoid.Transitions

namespace Paranoid.TopicDelivery

open KvAtomic Postgres TopicModel TopicScans TopicSteps Transitions

variable {κ D : Type} {k : κ} {c : Nat} {rows news : List (EventRow D)} {reads more : List (Read κ D)}
  {row : EventRow D}

/-- A read of the subscription returned the event, or passed over it after it had expired. -/
def Returned (reads : List (Read κ D)) (k : κ) (row : EventRow D) : Prop :=
  ∃ read ∈ reads, read.subscription = k ∧ (row.event ∈ read.events ∨
    row.isLive read.now = false ∧ read.afterSequence < row.sequence ∧
      ∃ e ∈ read.events, row.sequence ≤ e.sequence)

/-- A cursor at which the subscription may stand: every event up to it was returned. -/
structure Reached (reads : List (Read κ D)) (k : κ) (rows : List (EventRow D)) (c : Nat) : Prop where
  at_event : c = 0 ∨ ∃ row ∈ rows, row.sequence = c
  returned : ∀ row ∈ rows, row.sequence ≤ c → Returned reads k row

section Reached

theorem Returned.later (h : Returned reads k row) : Returned (reads ++ more) k row := by
  obtain ⟨read, hread, hrow⟩ := h
  exact ⟨read, List.mem_append_left more hread, hrow⟩

theorem Reached.later (h : Reached reads k rows c) : Reached (reads ++ more) k rows c :=
  ⟨h.at_event, fun row hrow hle => (h.returned row hrow hle).later⟩

theorem Reached.fits (h : Reached reads k rows c) (hrows : Numbered rows) : (c : Int) ≤ i64Max := by
  rcases h.at_event with rfl | ⟨row, hrow, rfl⟩
  · decide
  · exact hrows.fits row hrow

/-- Later events have higher sequences. -/
theorem Reached.append (h : Reached reads k rows c) (hrows : Numbered (rows ++ news))
    (hnews : ∀ row ∈ news, 0 < row.sequence) : Reached reads k (rows ++ news) c := by
  have hlater : ∀ new ∈ news, c < new.sequence := by
    intro new hnew
    rcases h.at_event with rfl | ⟨row, hrow, rfl⟩
    · exact hnews new hnew
    · exact (List.pairwise_append.1 hrows.increasing).2.2 row hrow new hnew
  refine ⟨h.at_event.imp_right fun ⟨row, hrow, hc⟩ => ⟨row, List.mem_append_left news hrow, hc⟩,
    fun row hrow hle => ?_⟩
  rcases List.mem_append.1 hrow with hrow | hnew
  · exact h.returned row hrow hle
  · exact absurd hle (not_le_of_gt (hlater row hnew))

/-- A scan from a cursor reaches the last event that it returns. -/
theorem Reached.scan {now : Int} {events : List (TopicEvent D)} (h : Reached reads k rows c)
    (hscan : Scanned now rows c events) {last : TopicEvent D} (hlast : last ∈ events) :
    Reached (reads ++ [⟨k, now, c, events⟩]) k rows last.sequence := by
  constructor
  · obtain ⟨row, hrow, rfl, -, -⟩ := hscan.sound last hlast
    exact .inr ⟨row, hrow, rfl⟩
  · intro row hrow hle
    by_cases hc : row.sequence ≤ c
    · exact (h.returned row hrow hc).later
    · have hafter : c < row.sequence := Nat.lt_of_not_le hc
      refine ⟨_, List.mem_append_right _ List.mem_cons_self, rfl, ?_⟩
      cases hlive : row.isLive now with
      | true => exact .inl (hscan.complete row hrow hafter hlive last hlast hle)
      | false => exact .inr ⟨rfl, hafter, last, hlast, hle⟩

end Reached

/-- Sequences are taken one by one, and an event has that of its allocation. -/
structure Taken (allocations : List (Allocation D)) : Prop where
  numbers : allocations.map (·.sequence) = List.range' 1 allocations.length
  rows : ∀ a ∈ allocations, ∀ row, a.row = some row → row.sequence = a.sequence
  fits : (allocations.length : Int) ≤ i64Max

section Taken

variable {allocations others : List (Allocation D)}

theorem Taken.initial (h : Taken (allocations ++ others)) : Taken allocations := by
  refine ⟨?_, fun a ha => h.rows a (List.mem_append_left others ha), ?_⟩
  · have hnumbers := congrArg (List.take allocations.length) h.numbers
    rw [List.map_append, List.length_append, ← List.range'_append_1,
      List.take_left' (List.length_map _), List.take_left' List.length_range'] at hnumbers
    exact hnumbers
  · have hfits := h.fits
    rw [List.length_append] at hfits
    omega

theorem Taken.mem_range (h : Taken allocations) {a : Allocation D} (ha : a ∈ allocations) :
    1 ≤ a.sequence ∧ a.sequence ≤ allocations.length := by
  have hmem : a.sequence ∈ allocations.map (·.sequence) := List.mem_map_of_mem ha
  rw [h.numbers, List.mem_range'_1] at hmem
  omega

theorem Taken.numbered (h : Taken allocations) : Numbered (allocations.filterMap (·.row)) := by
  constructor
  · have hpairs : allocations.Pairwise fun a b => a.sequence < b.sequence := by
      rw [← List.pairwise_map (f := fun a : Allocation D => a.sequence) (R := (· < ·)), h.numbers]
      exact List.pairwise_lt_range'
    rw [List.pairwise_filterMap]
    refine hpairs.imp_of_mem fun {a b} ha hb hab row hrow row' hrow' => ?_
    rw [h.rows a ha row hrow, h.rows b hb row' hrow']
    exact hab
  · intro row hrow
    obtain ⟨a, ha, hrow⟩ := List.mem_filterMap.1 hrow
    have hfits := h.fits
    have hrange := h.mem_range ha
    rw [h.rows a ha row hrow]
    omega

theorem Taken.positive (h : Taken allocations) :
    ∀ row ∈ allocations.filterMap (·.row), 0 < row.sequence := by
  intro row hrow
  obtain ⟨a, ha, hrow⟩ := List.mem_filterMap.1 hrow
  rw [h.rows a ha row hrow]
  exact (h.mem_range ha).1

/-- The next sequence. -/
theorem Taken.concat (h : Taken allocations)
    (hfits : (allocations.length : Int) < i64Max) {a : Allocation D}
    (hsequence : a.sequence = allocations.length + 1)
    (hrow : ∀ row, a.row = some row → row.sequence = a.sequence) :
    Taken (allocations ++ [a]) := by
  constructor
  · rw [List.map_append, h.numbers, List.length_append,
      List.length_singleton, List.map_singleton, hsequence,
      List.range'_concat, Nat.one_mul, Nat.add_comm 1]
  · intro b hb
    rcases List.mem_append.1 hb with hb | hb
    · exact h.rows b hb
    · rw [List.mem_singleton.1 hb]
      exact hrow
  · rw [List.length_append, List.length_singleton]
    omega

end Taken

/-- What a transaction knows of a cursor: the one that it has written, or works from. -/
def Transaction.Knows (tx : Transaction κ D) (k : κ) (c : Nat) : Prop :=
  tx.cursors k = some c ∨ tx.phase = .cursorFetched k c ∨ tx.phase = .eventsFetched k c

/-- The cursor that a polling loop works from, or has reached with its batch. -/
def PollPhase.cursor : PollPhase D → Option Nat
  | .stopped | .claiming => none
  | .polling cursor | .checked cursor => cursor
  | .fetched batch | .handling batch | .handled batch => some batch.last
  | .advanced newCursor => some newCursor

/-- A transaction in progress, seen from its own rows. -/
structure TxInv (s : System κ D) (i : Nat) (tx : Transaction κ D) : Prop where
  taken : Taken (s.allocations ++ tx.allocations)
  holder : tx.allocations ≠ [] → s.sequenceHolder = some i
  allocated : ∀ sequence publishedAt, tx.phase = .allocated sequence publishedAt →
    ∃ before, tx.allocations = before ++ [⟨sequence, none⟩]
  locked : ∀ k c, tx.cursors k = some c → s.cursorHolder k = some i ∧ (s.store.cursors k).getD 0 ≤ c
  reached : ∀ k c, Transaction.Knows tx k c → Reached s.reads k (s.store.events ++ tx.events) c

structure Inv (s : System κ D) : Prop where
  sequence : s.store.sequence.getD 0 = s.allocations.length
  events : s.store.events = s.allocations.filterMap (·.row)
  reads : ∀ read ∈ s.reads, (read.events.Pairwise fun a b => a.sequence < b.sequence) ∧
    ∀ e ∈ read.events, read.afterSequence < e.sequence
  cursors : ∀ k, Reached s.reads k s.store.events ((s.store.cursors k).getD 0)
  tx : ∀ i, TxInv s i (s.transactions i)
  polling : ∀ k p c, PollPhase.cursor (s.pollers k p).phase = some c →
    Reached s.reads k s.store.events c

section Invariant

variable {s s' : System κ D} {i j : Nat} {tx : Transaction κ D}

theorem Inv.taken (h : Inv s) : Taken s.allocations := (h.tx 0).taken.initial

theorem Inv.visible (h : Inv s) (i : Nat) :
    s.visible i = (s.allocations ++ (s.transactions i).allocations).filterMap (·.row) := by
  rw [System.visible, h.events, List.filterMap_append, Transaction.events]

theorem Inv.numbered (h : Inv s) (i : Nat) : Numbered (s.visible i) := by
  rw [h.visible i]
  exact (h.tx i).taken.numbered

/-- What another transaction does leaves this one's account as it was. -/
theorem TxInv.other (h : TxInv s i tx) (hallocations : s'.allocations = s.allocations)
    (hevents : s'.store.events = s.store.events)
    (hreads : ∃ more, s'.reads = s.reads ++ more)
    (hsequence : s.sequenceHolder = some i → s'.sequenceHolder = some i)
    (hcursors : ∀ k, s.cursorHolder k = some i →
      s'.cursorHolder k = some i ∧ s'.store.cursors k = s.store.cursors k) :
    TxInv s' i tx := by
  refine ⟨by rw [hallocations]; exact h.taken, fun hne => hsequence (h.holder hne), h.allocated, fun k c hc => ?_,
    fun k c hc => ?_⟩
  · obtain ⟨hheld, hle⟩ := h.locked k c hc
    obtain ⟨hheld', hstore⟩ := hcursors k hheld
    exact ⟨hheld', by rw [hstore]; exact hle⟩
  · obtain ⟨more, hmore⟩ := hreads
    rw [hevents, hmore]
    exact (h.reached k c hc).later

theorem txInv_idle (htaken : Taken s.allocations) : TxInv s i .idle := by
  refine ⟨by rw [show (Transaction.idle : Transaction κ D).allocations = [] from rfl, List.append_nil]; exact htaken,
    fun h => absurd rfl h, nofun, nofun, ?_⟩
  rintro k c (h | h | h) <;> cases h

/-- A transaction's own steps leave the committed rows alone. -/
theorem inv_transaction (h : Inv s) (hstore : s'.store = s.store)
    (hallocations : s'.allocations = s.allocations)
    (hpollers : s'.pollers = s.pollers) (more : List (Read κ D)) (hreads : s'.reads = s.reads ++ more)
    (hmore : ∀ read ∈ more, (read.events.Pairwise fun a b => a.sequence < b.sequence) ∧
      ∀ e ∈ read.events, read.afterSequence < e.sequence)
    (htransactions : ∀ j, j ≠ i → s'.transactions j = s.transactions j)
    (hsequence : ∀ j, j ≠ i → s.sequenceHolder = some j → s'.sequenceHolder = some j)
    (hcursors : ∀ j, j ≠ i → ∀ k, s.cursorHolder k = some j → s'.cursorHolder k = some j)
    (hown : TxInv s' i (s'.transactions i)) : Inv s' := by
  refine ⟨by rw [hstore, hallocations]; exact h.sequence, by rw [hstore, hallocations]; exact h.events, ?_, ?_, ?_, ?_⟩
  · rw [hreads]
    intro read hread
    exact (List.mem_append.1 hread).elim (h.reads read) (hmore read)
  · intro k
    rw [hstore, hreads]
    exact (h.cursors k).later
  · intro j
    by_cases hj : j = i
    · rw [hj]
      exact hown
    · rw [htransactions j hj]
      refine (h.tx j).other hallocations (by rw [hstore]) ⟨more, hreads⟩ (hsequence j hj) fun k hk => ?_
      exact ⟨hcursors j hj k hk, by rw [hstore]⟩
  · intro k p c hc
    rw [hpollers] at hc
    rw [hstore, hreads]
    exact (h.polling k p c hc).later

/-- A change of nothing but a transaction's own state. -/
theorem inv_put (h : Inv s) (htx : TxInv s i tx) : Inv (s.put i tx) := by
  refine inv_transaction (i := i) h rfl rfl rfl [] (List.append_nil _).symm nofun
    (fun j hj => put_other s hj tx) (fun j _ => id) (fun j _ k => id) ?_
  rw [put_self]
  exact htx.other rfl rfl ⟨[], (List.append_nil _).symm⟩ id fun k hk => ⟨hk, rfl⟩

theorem inv_enter (h : Inv s) {phase : Phase κ}
    (hallocated : ∀ sequence publishedAt, phase ≠ .allocated sequence publishedAt)
    (hphase : ∀ k c, phase = .cursorFetched k c ∨ phase = .eventsFetched k c →
      Reached s.reads k (s.visible i) c) :
    Inv (s.enter i phase) := by
  have htx := h.tx i
  refine inv_put h ⟨htx.taken, htx.holder,
    fun sequence publishedAt hp => absurd hp (hallocated sequence publishedAt),
    htx.locked, fun k c hknows => ?_⟩
  rcases hknows with hc | hp
  · exact htx.reached k c (.inl hc)
  · exact hphase k c hp

/-- The cursor that a transaction sees is one at which its subscription may stand. -/
theorem reached_cursor (h : Inv s) (i : Nat) (k : κ) :
    Reached s.reads k (s.visible i)
      ((((s.transactions i).cursors k).or (s.store.cursors k)).getD 0) := by
  cases hc : (s.transactions i).cursors k with
  | some c => exact (h.tx i).reached k c (.inl hc)
  | none =>
      refine (h.cursors k).append (h.numbered i) fun row hrow => ?_
      refine (h.tx i).taken.positive row ?_
      rw [List.filterMap_append]
      exact List.mem_append_right _ hrow

theorem seen_sequence (h : Inv s) (i : Nat) : ((s.transactions i).sequence.or s.store.sequence).getD 0 =
    (s.allocations ++ (s.transactions i).allocations).length := by
  have hnumbers := (h.tx i).taken.numbers
  rw [Transaction.sequence]
  rcases List.eq_nil_or_concat (s.transactions i).allocations with hnil | ⟨before, last, hconcat⟩
  · rw [hnil, List.append_nil]
    exact h.sequence
  · rw [hconcat, List.concat_eq_append] at hnumbers ⊢
    rw [← List.append_assoc, List.map_append, List.length_append,
      List.length_singleton, List.range'_concat] at hnumbers
    have hlast := (List.append_inj' hnumbers rfl).2
    rw [List.map_singleton, List.singleton_inj] at hlast
    rw [List.getLast?_concat, Option.map_some, Option.some_or, Option.getD_some, hlast]
    simp only [List.length_append, List.length_singleton]
    omega

end Invariant

section Steps

variable {s : System κ D} {i : Nat}

theorem free_other {holder : Option Nat} (hfree : free holder i) {j : Nat} (hj : j ≠ i) :
    holder ≠ some j := by
  rintro rfl
  exact hj (of_decide_eq_true hfree)

theorem inv_allocate (h : Inv s) (now : Int) : Inv (allocate s i now).1 := by
  have htx := h.tx i
  rw [allocate]
  split
  · exact h
  · rename_i hfree
    rw [Bool.not_eq_true', Bool.not_eq_false] at hfree
    have hlocked : Inv { s with sequenceHolder := some i } := by
      refine inv_transaction (i := i) h rfl rfl rfl [] (List.append_nil _).symm (by rintro _ ⟨⟩) (fun j _ => rfl)
        (fun j hj hheld => absurd hheld (free_other hfree hj)) (fun j _ k => id) ?_
      exact htx.other rfl rfl ⟨[], (List.append_nil _).symm⟩ (fun _ => rfl) fun k hk => ⟨hk, rfl⟩
    dsimp only
    split
    · exact hlocked
    · rename_i sequence hsequence
      rw [nextSequence, seen_sequence h i] at hsequence
      split at hsequence
      · cases hsequence
      · rename_i hmax
        obtain rfl := (Except.ok.inj hsequence).symm
        have htaken := htx.taken.concat (Int.not_le.1 hmax) (a := ⟨_, none⟩) rfl (by rintro _ ⟨⟩)
        refine inv_put hlocked ⟨?_, fun _ => rfl, ?_, htx.locked, ?_⟩
        · rw [List.append_assoc] at htaken
          exact htaken
        · rintro sequence publishedAt ⟨⟩
          exact ⟨_, rfl⟩
        · intro k c hknows
          have hevents : ∀ a : Allocation D, a.row = none →
              ((s.transactions i).allocations ++ [a]).filterMap (·.row) =
                (s.transactions i).events := by
            intro a ha
            rw [List.filterMap_append, List.filterMap_cons_none ha, List.filterMap_nil, List.append_nil]
            rfl
          rw [Transaction.events, hevents _ rfl]
          rcases hknows with hc | hc | hc
          · exact htx.reached k c (.inl hc)
          · cases hc
          · cases hc

theorem inv_storeEvent (h : Inv s) {ttl : Ttl} {sequence : Nat} {publishedAt now : Int} {data : D}
    (hphase : (s.transactions i).phase = .allocated sequence publishedAt) :
    Inv (storeEvent ttl s i sequence publishedAt now data).1 := by
  have htx := h.tx i
  obtain ⟨before, hbefore⟩ := htx.allocated sequence publishedAt hphase
  rw [storeEvent]
  split
  · exact inv_enter h (by rintro _ _ ⟨⟩) (by rintro k c (hc | hc) <;> cases hc)
  · rename_i row hrow
    dsimp only
    rw [hbefore, List.dropLast_concat]
    have htaken : Taken (s.allocations ++
      (before ++ [⟨sequence, some ⟨sequence, publishedAt, data, row.expiresAt⟩⟩])) := by
      have hold := htx.taken
      rw [hbefore] at hold
      refine ⟨?_, ?_, ?_⟩
      · have hnumbers := hold.numbers
        simpa using hnumbers
      · intro a ha row' hrow'
        rw [← List.append_assoc] at ha hold
        rcases List.mem_append.1 ha with ha | ha
        · exact hold.rows a (List.mem_append_left _ ha) row' hrow'
        · obtain rfl := List.mem_singleton.1 ha
          rw [← Option.some.inj hrow']
      · have hfits := hold.fits
        simpa using hfits
    refine inv_put h ⟨htaken, fun _ => htx.holder (by rw [hbefore]; simp), by rintro _ _ ⟨⟩, htx.locked, ?_⟩
    rintro k c (hc | hc | hc)
    · have hreached := htx.reached k c (.inl hc)
      have hnumbered := htaken.numbered
      have hpositive := htaken.positive
      rw [List.filterMap_append, ← h.events,
        List.filterMap_append, ← List.append_assoc] at hnumbered hpositive
      rw [Transaction.events, hbefore, List.filterMap_append,
        List.filterMap_cons_none rfl, List.filterMap_nil,
        List.append_nil] at hreached
      rw [Transaction.events, List.filterMap_append, ← List.append_assoc]
      exact hreached.append hnumbered fun row hrow => hpositive row (List.mem_append_right _ hrow)
    · cases hc
    · cases hc

theorem inv_fetchEvents (h : Inv s) {pollLimit : κ → Nat} {subscription : κ} {cursor : Nat} {now : Int}
    (hphase : (s.transactions i).phase = .cursorFetched subscription cursor) :
    Inv (fetchEvents pollLimit s i subscription cursor now).1 := by
  have htx := h.tx i
  have hreached : Reached s.reads subscription (s.visible i) cursor :=
    htx.reached subscription cursor (.inr (.inl hphase))
  obtain ⟨events, heq, hscan⟩ :=
    fetchEventsAfter_spec now (h.numbered i) (hreached.fits (h.numbered i)) (pollLimit subscription)
  rw [fetchEvents, heq]
  dsimp only
  have hread : Inv { s with reads := s.reads ++ [⟨subscription, now, cursor, events⟩] } := by
    refine inv_transaction (i := i) h rfl rfl rfl _ rfl
      (fun read hread => ?_) (fun j _ => rfl) (fun j _ => id)
      (fun j _ k => id) ?_
    · obtain rfl := List.mem_singleton.1 hread
      refine ⟨hscan.increasing, fun e he => ?_⟩
      obtain ⟨row, -, rfl, hlt, -⟩ := hscan.sound e he
      exact hlt
    · exact htx.other rfl rfl ⟨_, rfl⟩ id fun k hk => ⟨hk, rfl⟩
  split
  · exact inv_enter hread (by rintro _ _ ⟨⟩) (by rintro k c (hc | hc) <;> cases hc)
  · rename_i last hlast
    refine inv_enter hread (by rintro _ _ ⟨⟩) ?_
    rintro k c (hc | hc)
    · cases hc
    · obtain ⟨rfl, rfl⟩ := Phase.eventsFetched.inj hc
      exact hreached.scan hscan (List.mem_of_getLast? hlast)

theorem advanced_ge (current : Option Nat) (sequence : Nat) :
    current.getD 0 ≤ advancedCursor current sequence := by
  cases current with
  | none => exact Nat.zero_le _
  | some c =>
      rw [advancedCursor, Option.getD_some]
      split
      · exact le_rfl
      · omega

theorem advanced_eq (current : Option Nat) (sequence : Nat) :
    advancedCursor current sequence = current.getD 0 ∨ advancedCursor current sequence = sequence := by
  cases current with
  | none => exact .inr rfl
  | some c =>
      rw [advancedCursor]
      split
      · exact .inl rfl
      · exact .inr rfl

theorem inv_advance [DecidableEq κ] (h : Inv s) {subscription : κ} {sequence : Nat}
    (hphase : (s.transactions i).phase = .eventsFetched subscription sequence) :
    Inv (advanceCursorIfNeeded s i subscription sequence).1 := by
  have htx := h.tx i
  rw [advanceCursorIfNeeded]
  split
  · exact h
  · rename_i hfree
    rw [Bool.not_eq_true', Bool.not_eq_false] at hfree
    dsimp only
    have hlocked : Inv
      { s with cursorHolder := Function.update s.cursorHolder subscription (some i) } := by
      have hkept : ∀ j k, s.cursorHolder k = some j →
        j = i ∨ Function.update s.cursorHolder subscription (some i) k = some j := by
        intro j k hheld
        by_cases hk : k = subscription
        · subst hk
          exact .inl (by_contra fun hj => free_other hfree hj hheld)
        · rw [Function.update_of_ne hk]
          exact .inr hheld
      refine inv_transaction (i := i) h rfl rfl rfl []
        (List.append_nil _).symm (by rintro _ ⟨⟩) (fun j _ => rfl) (fun j _ => id)
        (fun j hj k hheld => (hkept j k hheld).resolve_left hj) ?_
      refine htx.other rfl rfl ⟨[], (List.append_nil _).symm⟩ id fun k hk => ⟨?_, rfl⟩
      dsimp only
      by_cases hks : k = subscription
      · rw [hks, Function.update_self]
      · rw [Function.update_of_ne hks]
        exact hk
    refine inv_put hlocked ⟨htx.taken, htx.holder, by rintro _ _ ⟨⟩, fun k c hc => ?_, ?_⟩
    · dsimp only at hc ⊢
      by_cases hks : k = subscription
      · subst hks
        rw [Function.update_self] at hc ⊢
        refine ⟨rfl, ?_⟩
        rw [← Option.some.inj hc]
        refine le_trans ?_ (advanced_ge _ sequence)
        cases hown : (s.transactions i).cursors k with
        | none => exact le_rfl
        | some own => exact (htx.locked k own hown).2
      · rw [Function.update_of_ne hks] at hc ⊢
        exact htx.locked k c hc
    · rintro k c (hc | hc | hc)
      · dsimp only at hc
        by_cases hks : k = subscription
        · subst hks
          rw [Function.update_self] at hc
          rw [← Option.some.inj hc]
          rcases advanced_eq (((s.transactions i).cursors k).or (s.store.cursors k))
            sequence with heq | heq
          · rw [heq]
            exact reached_cursor h i k
          · rw [heq]
            exact htx.reached k sequence (.inr (.inr hphase))
        · rw [Function.update_of_ne hks] at hc
          exact htx.reached k c (.inl hc)
      · cases hc
      · cases hc

theorem positive_own (h : Inv s) (i : Nat) : ∀ row ∈ (s.transactions i).events, 0 < row.sequence := by
  intro row hrow
  refine (h.tx i).taken.positive row ?_
  rw [List.filterMap_append]
  exact List.mem_append_right _ hrow

theorem inv_release [DecidableEq κ] (h : Inv s) (i : Nat) : Inv (release s i) := by
  rw [release]
  refine inv_transaction (i := i) h rfl rfl rfl []
    (List.append_nil _).symm nofun (fun j hj => put_other _ hj _)
    (fun j hj hheld => ?_) (fun j hj k hheld => ?_) ?_
  · dsimp only [System.put]
    rw [hheld, if_neg fun heq => hj (Option.some.inj heq)]
  · dsimp only [System.put]
    rw [hheld, if_neg fun heq => hj (Option.some.inj heq)]
  · rw [put_self]
    exact txInv_idle h.taken

theorem inv_commit (h : Inv s) (i : Nat) : Inv (commit s i) := by
  have htx := h.tx i
  rw [commit, release]
  dsimp only
  refine ⟨seen_sequence h i, h.visible i, h.reads, reached_cursor h i, fun j => ?_, fun k p c hc => ?_⟩
  · by_cases hj : j = i
    · rw [hj, put_self]
      exact txInv_idle htx.taken
    · rw [put_other _ hj]
      have htxj := h.tx j
      have hone : (s.transactions i).allocations = [] ∨ (s.transactions j).allocations = [] := by
        by_contra hboth
        rw [not_or] at hboth
        have hheld := (htx.holder hboth.1).symm.trans (htxj.holder hboth.2)
        exact hj (Option.some.inj hheld).symm
      refine ⟨?_, fun hne => ?_, htxj.allocated, fun k c hc => ?_, fun k c hc => ?_⟩
      · dsimp only [System.put]
        rcases hone with hnil | hnil
        · rw [hnil, List.append_nil]
          exact htxj.taken
        · rw [hnil, List.append_nil]
          exact htx.taken
      · dsimp only [System.put]
        rw [htxj.holder hne, if_neg fun heq => hj (Option.some.inj heq)]
      · obtain ⟨hheld, hle⟩ := htxj.locked k c hc
        dsimp only [System.put]
        rw [hheld, if_neg fun heq => hj (Option.some.inj heq)]
        cases hown : (s.transactions i).cursors k with
        | none => exact ⟨rfl, hle⟩
        | some c' =>
            have hheld' := hheld.symm.trans (htx.locked k c' hown).1
            exact absurd (Option.some.inj hheld') hj
      · have hreached := htxj.reached k c hc
        dsimp only [System.put, System.visible]
        rcases hone with hnil | hnil
        · rw [show (s.transactions i).events =
            [] by rw [Transaction.events, hnil]; rfl, List.append_nil]
          exact hreached
        · have hevents : (s.transactions j).events = [] := by
            rw [Transaction.events, hnil]
            rfl
          rw [hevents, List.append_nil] at hreached ⊢
          exact hreached.append (h.numbered i) (positive_own h i)
  · exact (h.polling k p c hc).append (h.numbered i) (positive_own h i)

section Polling

variable {k : κ} {p : Nat} {poller : Poller D}

/-- Leases and ghost state do not matter to the delivery. -/
theorem inv_ghost {s' : System κ D} (h : Inv s) (hstore : s'.store = s.store)
    (hallocations : s'.allocations = s.allocations)
    (htransactions : s'.transactions = s.transactions)
    (hpollers : s'.pollers = s.pollers) (hreads : s'.reads = s.reads)
    (hsequence : s'.sequenceHolder = s.sequenceHolder)
    (hcursors : s'.cursorHolder = s.cursorHolder) : Inv s' := by
  refine inv_transaction (i := 0) h hstore hallocations
    hpollers [] (by rw [hreads, List.append_nil]) nofun
    (fun j _ => by rw [htransactions]) (fun j _ => by rw [hsequence]; exact id) (fun j _ k => by rw [hcursors]; exact id) ?_
  rw [htransactions]
  exact (h.tx 0).other hallocations
    (by rw [hstore]) ⟨[], by rw [hreads, List.append_nil]⟩ (by rw [hsequence]; exact id)
    fun k hk => ⟨by rw [hcursors]; exact hk, by rw [hstore]⟩

theorem inv_read (h : Inv s) {read : Read κ D}
    (hsorted : read.events.Pairwise fun a b => a.sequence < b.sequence)
    (hafter : ∀ e ∈ read.events, read.afterSequence < e.sequence) :
    Inv { s with reads := s.reads ++ [read] } := by
  refine inv_transaction (i := 0) h rfl rfl rfl _ rfl
    (fun read' hread => ?_) (fun j _ => rfl) (fun j _ => id)
    (fun j _ k => id) ((h.tx 0).other rfl rfl ⟨_, rfl⟩ id fun k hk => ⟨hk, rfl⟩)
  obtain rfl := List.mem_singleton.1 hread
  exact ⟨hsorted, hafter⟩

variable [DecidableEq κ]

theorem inv_setPoller (h : Inv s)
    (hcursor : ∀ c, PollPhase.cursor poller.phase = some c → Reached s.reads k s.store.events c) :
    Inv (s.setPoller k p poller) := by
  refine ⟨h.sequence, h.events, h.reads, h.cursors, fun i => ?_, fun k' p' c hc => ?_⟩
  · exact (h.tx i).other rfl rfl ⟨[], (List.append_nil _).symm⟩ id fun k hk => ⟨hk, rfl⟩
  · by_cases hkp : k' = k ∧ p' = p
    · obtain ⟨rfl, rfl⟩ := hkp
      rw [setPoller_self] at hc
      exact hcursor c hc
    · rw [setPoller_other s hkp] at hc
      exact h.polling k' p' c hc

omit [DecidableEq κ] in
theorem batch_last (batch : Batch D) (hne : batch.events ≠ []) :
    batch.events.getLast hne ∈ batch.events ∧ batch.last = (batch.events.getLast hne).sequence := by
  refine ⟨List.getLast_mem hne, ?_⟩
  rw [Batch.last, List.getLast?_eq_some_getLast hne]
  rfl

theorem inv_endRun (h : Inv s) (released : Bool) : Inv (endRun s k p released) := by
  have hguard : Inv { s with guard := if released && (s.guard k).any (·.1 = p) then Function.update s.guard k none
      else s.guard } := inv_ghost h rfl rfl rfl rfl rfl rfl rfl
  exact inv_setPoller hguard nofun

theorem inv_pollAdvance (h : Inv s) {batch : Batch D} (hphase : (s.pollers k p).phase = .handled batch)
    (hfree : s.cursorHolder k = none) :
    Inv { s with store := { s.store with
      cursors := Function.update s.store.cursors k
        (some (advancedCursor (s.store.cursors k) batch.last)) } } := by
  refine ⟨h.sequence, h.events, h.reads, fun k' => ?_, fun i => ?_, h.polling⟩
  · dsimp only
    by_cases hk : k' = k
    · subst hk
      rw [Function.update_self, Option.getD_some]
      rcases advanced_eq (s.store.cursors k') batch.last with heq | heq
      · rw [heq]
        exact h.cursors k'
      · rw [heq]
        exact h.polling k' p batch.last (by rw [hphase]; rfl)
    · rw [Function.update_of_ne hk]
      exact h.cursors k'
  · refine (h.tx i).other rfl rfl ⟨[], (List.append_nil _).symm⟩ id fun k' hk' => ⟨hk', ?_⟩
    refine Function.update_of_ne ?_ ..
    rintro rfl
    rw [hfree] at hk'
    cases hk'

/-- A step of a polling loop. -/
theorem inv_poll (h : Inv s) {pollLimit : κ → Nat} {claimMicroseconds : Int} (action : PollAction) :
    Inv (poll pollLimit claimMicroseconds s k p action).1 := by
  rw [poll.eq_def]
  dsimp only
  split
  · exact inv_setPoller h (by rintro _ ⟨⟩)
  · split
    · exact inv_setPoller (inv_ghost h rfl rfl rfl rfl rfl rfl rfl) (by rintro _ ⟨⟩)
    · exact h
  · split
    · exact inv_ghost h rfl rfl rfl rfl rfl rfl rfl
    · exact h
  · exact inv_setPoller h fun c hc => h.polling k p c hc
  · rename_i cursor hphase
    split
    · exact inv_endRun h true
    · refine inv_setPoller h fun c hc => h.polling k p c ?_
      rw [hphase]
      exact hc
  · rename_i cursor hphase
    refine inv_setPoller h fun c hc => h.polling k p c ?_
    rw [hphase]
    exact hc
  · refine inv_setPoller h fun c hc => ?_
    rw [← Option.some.inj hc]
    exact h.cursors k
  · rename_i now cursor hphase
    have hreached := h.polling k p cursor (by rw [hphase]; rfl)
    have hnumbered : Numbered s.store.events := by
      rw [h.events]
      exact h.taken.numbered
    obtain ⟨events, heq, hscan⟩ :=
      fetchEventsAfter_spec now hnumbered (hreached.fits hnumbered) (pollLimit k)
    have hread : Inv { s with reads := s.reads ++ [⟨k, now, cursor, events⟩] } := by
      refine inv_read h hscan.increasing fun e he => ?_
      obtain ⟨row, -, rfl, hlt, -⟩ := hscan.sound e he
      exact hlt
    rw [heq]
    dsimp only
    split
    · refine inv_setPoller hread fun c hc => ?_
      rw [← Option.some.inj hc]
      exact hreached.later
    · rename_i hne
      refine inv_setPoller hread fun c hc => ?_
      rw [List.isEmpty_iff] at hne
      have hlast := batch_last (Batch.mk now cursor events) hne
      rw [← Option.some.inj hc, hlast.2]
      exact hreached.scan hscan hlast.1
  · split
    · exact inv_endRun h true
    · rename_i batch hphase _
      refine inv_setPoller h fun c hc => h.polling k p c ?_
      rw [hphase]
      exact hc
  · rename_i accepts batch hphase
    split
    · split
      · refine inv_endRun ?_ true
        exact inv_ghost h rfl rfl rfl rfl rfl rfl rfl
      · refine inv_setPoller (inv_ghost h rfl rfl rfl rfl rfl rfl rfl) fun c hc => h.polling k p c ?_
        rw [hphase]
        exact hc
    · refine inv_endRun ?_ true
      exact inv_ghost h rfl rfl rfl rfl rfl rfl rfl
  · rename_i batch hphase
    split
    · rename_i hfree
      refine inv_setPoller (inv_pollAdvance h hphase (Option.isNone_iff_eq_none.1 hfree))
        fun c hc => h.polling k p c ?_
      rw [hphase]
      exact hc
    · exact h
  · rename_i cursor hphase
    split
    · exact inv_endRun h true
    · refine inv_setPoller h fun c hc => h.polling k p c ?_
      rw [hphase]
      exact hc
  · exact inv_endRun h _
  · exact h

end Polling

section Runs

variable [DecidableEq κ]

theorem inv_step (ttl : Ttl) (pollLimit : κ → Nat)
    (claimMicroseconds : Int) (input : Input κ D) (s : System κ D)
    (h : Inv s) : Inv (step ttl pollLimit claimMicroseconds input s).1 := by
  rw [step.eq_def]
  cases input with
  | allocate i now =>
      dsimp only
      split
      · exact inv_allocate h now
      · exact h
  | storeEvent i now data =>
      dsimp only
      split
      · rename_i hphase
        exact inv_storeEvent h hphase
      · exact h
  | dropPublish i =>
      dsimp only
      split
      · exact inv_enter h (by rintro _ _ ⟨⟩) (by rintro k c (hc | hc) <;> cases hc)
      · exact h
  | fetchCursor i subscription =>
      dsimp only
      split
      · refine inv_enter h (by rintro _ _ ⟨⟩) ?_
        rintro k c (hc | hc)
        · obtain ⟨rfl, rfl⟩ := Phase.cursorFetched.inj hc
          exact reached_cursor h i subscription
        · cases hc
      · exact h
  | fetchEvents i now =>
      dsimp only
      split
      · rename_i hphase
        exact inv_fetchEvents h hphase
      · exact h
  | advanceCursor i =>
      dsimp only
      split
      · rename_i hphase
        exact inv_advance h hphase
      · exact h
  | commit i =>
      dsimp only
      split
      · exact h
      · exact inv_commit h i
  | rollback i => exact inv_release h i
  | poll k p action => exact inv_poll h action

omit [DecidableEq κ] in
theorem inv_start : Inv (System.start : System κ D) := by
  refine ⟨rfl, rfl, nofun, fun k => ⟨.inl rfl, nofun⟩, fun i => ?_, nofun⟩
  exact txInv_idle ⟨rfl, nofun, show (0 : Int) ≤ i64Max by decide⟩

omit [DecidableEq κ] in
theorem cursor_commit {s : System κ D} (h : Inv s) (i : Nat) (k : κ) :
    persistedCursor s k ≤ persistedCursor (commit s i) k := by
  show (s.store.cursors k).getD 0 ≤ (((s.transactions i).cursors k).or (s.store.cursors k)).getD 0
  cases hc : (s.transactions i).cursors k with
  | none => exact le_rfl
  | some c => exact ((h.tx i).locked k c hc).2

omit [DecidableEq κ] in
theorem cursor_kept {s s' : System κ D} (hstore : s'.store = s.store) (k : κ) :
    persistedCursor s k ≤ persistedCursor s' k := by
  rw [persistedCursor, persistedCursor, hstore]

theorem cursor_poll (pollLimit : κ → Nat)
    (claimMicroseconds : Int) (s : System κ D) (k k' : κ) (p : Nat)
    (action : PollAction) : persistedCursor s k' ≤
    persistedCursor (poll pollLimit claimMicroseconds s k p action).1 k' := by
  rw [poll.eq_def]
  dsimp only
  split
  case h_11 batch _ =>
    split
    · show (s.store.cursors k').getD 0 ≤
        (Function.update s.store.cursors k
        (some (advancedCursor (s.store.cursors k) batch.last)) k').getD 0
      by_cases hk : k' = k
      · subst hk
        rw [Function.update_self]
        exact advanced_ge _ _
      · rw [Function.update_of_ne hk]
    · exact cursor_kept rfl k'
  all_goals (repeat' split) <;> exact cursor_kept rfl k'

/-- No step takes a persisted cursor back. -/
theorem cursor_step (ttl : Ttl) (pollLimit : κ → Nat)
    (claimMicroseconds : Int) (input : Input κ D) {s : System κ D}
    (h : Inv s) (k : κ) :
    persistedCursor s k ≤ persistedCursor (step ttl pollLimit claimMicroseconds input s).1 k := by
  cases input with
  | commit i =>
      rw [step.eq_def]
      dsimp only
      split
      · exact cursor_kept rfl k
      · exact cursor_commit h i k
  | poll k' p action => exact cursor_poll pollLimit claimMicroseconds s k' k p action
  | _ =>
      exact cursor_kept
        (step_store ttl pollLimit claimMicroseconds _ s (by rintro i ⟨⟩) (by rintro k p a ⟨⟩)) k

/-- The cursor of a subscription as a reader has it: the one that its transaction sees,
the persisted one, or the one to which its loop has just advanced. -/
def CursorOf (s : System κ D) (k : κ) (c : Nat) : Prop :=
  (∃ i, fetchCursor s i k = c) ∨ persistedCursor s k = c ∨ ∃ p, (s.pollers k p).phase = .advanced c

theorem read_origin (ttl : Ttl) (pollLimit : κ → Nat)
    (claimMicroseconds : Int) {inputs : List (Input κ D)}
    {read : Read κ D} (h : read ∈
      (exec (step ttl pollLimit claimMicroseconds) inputs System.start).reads) :
    ∃ before, before <+: inputs ∧
      CursorOf (exec (step ttl pollLimit claimMicroseconds) before System.start)
        read.subscription read.afterSequence := by
  obtain ⟨middle, hmiddle, hread⟩ := exec_since (Q := fun s : System κ D => read ∈ s.reads)
    (fun input s => read_step ttl pollLimit claimMicroseconds input s) List.not_mem_nil h
  rcases hread with ⟨i, hphase⟩ | ⟨p, hsource⟩
  · have hidle : ¬((System.start : System κ D).transactions i).phase =
        .cursorFetched read.subscription read.afterSequence := nofun
    obtain ⟨before, hbefore, hcursor⟩ := exec_since
      (Q := fun s : System κ D => (s.transactions i).phase =
        .cursorFetched read.subscription read.afterSequence)
      (fun input s => fetched_step ttl pollLimit claimMicroseconds input s) hidle hphase
    exact ⟨before, hbefore.trans hmiddle, .inl ⟨i, hcursor⟩⟩
  · have hstopped : ¬PollPhase.source ((System.start : System κ D).pollers read.subscription p).phase =
        some read.afterSequence := nofun
    obtain ⟨before, hbefore, hcursor⟩ := exec_since
      (Q := fun s : System κ D => PollPhase.source (s.pollers read.subscription p).phase =
        some read.afterSequence)
      (fun input s => source_step ttl pollLimit claimMicroseconds input s) hstopped hsource
    exact ⟨before, hbefore.trans hmiddle, .inr (hcursor.imp_right fun hadvanced => ⟨p, hadvanced⟩)⟩

/-- In every run: what was committed took the sequences in order, one after another, and
an event has the sequence that its publish took; a read returns events in order, above the
cursor that the reader had; a cursor only ever advances; and every committed event up to it
was returned, or had expired when a read passed it. -/
theorem delivery_keeps_order (ttl : Ttl) (pollLimit : κ → Nat) (claimMicroseconds : Int)
    (inputs : List (Input κ D)) (input : Input κ D) :
    let s := exec (step ttl pollLimit claimMicroseconds) inputs System.start
    (s.allocations.map (·.sequence) = List.range' 1 s.allocations.length ∧
      s.store.events = s.allocations.filterMap (·.row) ∧
      ∀ a ∈ s.allocations, ∀ row, a.row = some row → row.sequence = a.sequence) ∧
    (∀ read ∈ s.reads, (read.events.Pairwise fun a b => a.sequence < b.sequence) ∧
      (∀ e ∈ read.events, read.afterSequence < e.sequence) ∧
      ∃ before, before <+: inputs ∧
        CursorOf (exec (step ttl pollLimit claimMicroseconds) before System.start)
          read.subscription read.afterSequence) ∧
    ∀ k, persistedCursor s k ≤ persistedCursor (step ttl pollLimit claimMicroseconds input s).1 k ∧
      ∀ row ∈ s.store.events, row.sequence ≤ persistedCursor s k → Returned s.reads k row := by
  intro s
  have h : Inv s := exec_invariant Inv (inv_step ttl pollLimit claimMicroseconds) inputs inv_start
  refine ⟨⟨h.taken.numbers, h.events, h.taken.rows⟩,
    fun read hread => ?_, fun k => ⟨?_, (h.cursors k).returned⟩⟩
  · obtain ⟨hsorted, hafter⟩ := h.reads read hread
    exact ⟨hsorted, hafter, read_origin ttl pollLimit claimMicroseconds hread⟩
  · exact cursor_step ttl pollLimit claimMicroseconds input h k

/-- A publish that is given up after it took a sequence leaves a gap, where its transaction
commits all the same. -/
theorem dropped_publish_leaves_gap :
    (exec (step .noExpiration (fun _ : Unit => 10) 0)
      [.allocate 0 0, .storeEvent 0 0 "first", .commit 0, .allocate 1 0, .dropPublish 1, .commit 1,
        .allocate 2 0, .storeEvent 2 0 "second",
          .commit 2] System.start).store.events.map (·.sequence) = [1, 3] := by
  decide

end Runs

end Steps

end Paranoid.TopicDelivery
