import Paranoid.CacheModel
import Paranoid.LeaseAuthority
import Paranoid.Transitions

namespace Paranoid.CacheEpochs

open Function KvAtomic LeaseModel LeaseStatements LeaseAuthority CacheModel Transitions

variable {T : Type} {s s' : System T} {p n : Nat} {c c' : Int}

def current (s : System T) : Int := (s.epoch.map (·.value)).getD 0

/-- What is known of the moments of a run: which process began a fetch at a moment, which
epoch was read at it, and whether the whole cache was invalidated at it. -/
structure Moments where
  begun : Nat → Nat → Prop
  read : Int → Nat → Prop
  invalidated : Nat → Prop

/-- The moments of a run, by its inputs and replies. -/
def moments (valueTtl : Ttl) (claimDuration : ClaimDuration) (inputs : List (Input T)) (start : System T) :
    Moments where
  begun p t := ∃ key, inputs[t]? = some (.begin p key .fetch)
  read epoch t := ∃ p now, inputs[t]? = some (.readEpoch p now) ∧
    (exec (step valueTtl claimDuration) (inputs.take t) start).currentEpoch now = epoch
  invalidated t := ∃ now delay,
    (trace (step valueTtl claimDuration) inputs start)[t]? = some (.invalidateAll now delay, .invalidatedAll)

section Knowledge

variable (M : Moments)

/-- An epoch as it was read at a moment before `n`, where `c` is the current one: it is
older where an invalidation came after the read. -/
structure Read (c : Int) (n : Nat) (epoch : Int) (epochRead : Nat) : Prop where
  read : M.read epoch epochRead
  le : epoch ≤ c
  lt : ∀ t < n, M.invalidated t → epochRead ≤ t → epoch < c

/-- A value that a fetch may return: its epoch was read after the invalidations that had
committed when the fetch began. -/
structure Returnable (p started : Nat) (entry : Entry T) : Prop where
  begun : M.begun p started
  read : M.read entry.epoch entry.origin.epochRead
  fresh : ∀ t, M.invalidated t → t < started → t < entry.origin.epochRead

def Entry.Read (c : Int) (n : Nat) (entry : Entry T) : Prop :=
  CacheEpochs.Read M c n entry.epoch entry.origin.epochRead

def Started (p n started : Nat) : Prop := started < n ∧ M.begun p started

/-- What a call of the process `p` knows in each of its phases, at a moment `n`. -/
def Knows (p : Nat) (c : Int) (n : Nat) : Phase T → Prop
  | .idle => True
  | .lookup started => Started M p n started
  | .lookedUp started entry => Started M p n started ∧ Entry.Read M c n entry
  | .claiming (.fetch started) | .locked (.fetch started) => Started M p n started
  | .claiming _ | .locked _ => True
  | .lockedLookedUp started entry => Started M p n started ∧ ∀ e, entry = some e → Entry.Read M c n e
  | .missed started epoch epochRead =>
      Started M p n started ∧ started ≤ epochRead ∧ Read M c n epoch epochRead
  | .computing started epoch origin =>
      Started M p n started ∧ started ≤ origin.epochRead ∧ Read M c n epoch origin.epochRead
  | .storing goal entry =>
      Entry.Read M c n entry ∧ ∀ started, goal = .fetch started →
        Started M p n started ∧ started ≤ entry.origin.epochRead
  | .releasing (.fetched started entry) => Returnable M p started entry
  | .releasing _ => True

structure Inv (s : System T) (n : Nat) : Prop where
  lasting : ∀ row, s.epoch = some row → row.expiresAt = none
  entries : ∀ k row, s.entries k = some row → Entry.Read M (current s) n row.value
  processes : ∀ p, Knows M p (current s) n (s.processes p).phase

/-- What a step of the process `p` has led to: a fetch returns only what it may. -/
structure Sound (p n : Nat) (r : Result T) : Prop where
  inv : Inv M r.1 n
  reply : ∀ started entry, r.2 = .done (.fetched started entry) → Returnable M p started entry

/-- The epoch stays where the cache was not invalidated, and else advances. -/
def Later (c c' : Int) (n : Nat) : Prop :=
  c' = c ∧ ¬M.invalidated n ∨ c < c'

end Knowledge

variable {M : Moments}

section Later

theorem Read.later {epoch : Int} {epochRead : Nat}
    (h : Read M c n epoch epochRead) (hlater : Later M c c' n) :
    Read M c' (n + 1) epoch epochRead := by
  rcases hlater with ⟨rfl, hquiet⟩ | hcurrent
  · refine ⟨h.read, h.le, fun t ht hinvalidated => h.lt t ?_ hinvalidated⟩
    rcases Nat.lt_succ_iff_lt_or_eq.1 ht with ht | rfl
    · exact ht
    · exact absurd hinvalidated hquiet
  · have hle := h.le
    exact ⟨h.read, by omega, fun _ _ _ _ => by omega⟩

theorem Started.later {started : Nat} (h : Started M p n started) : Started M p (n + 1) started :=
  ⟨Nat.lt_succ_of_lt h.1, h.2⟩

theorem Knows.later {phase : Phase T} (h : Knows M p c n phase) (hlater : Later M c c' n) :
    Knows M p c' (n + 1) phase := by
  cases phase with
  | idle => trivial
  | lookup started => exact Started.later h
  | lookedUp started entry => exact ⟨h.1.later, h.2.later hlater⟩
  | claiming goal =>
      cases goal with
      | fetch started => exact Started.later h
      | set value => trivial
      | invalidate => trivial
  | locked goal =>
      cases goal with
      | fetch started => exact Started.later h
      | set value => trivial
      | invalidate => trivial
  | lockedLookedUp started entry => exact ⟨h.1.later, fun e he => (h.2 e he).later hlater⟩
  | missed started epoch epochRead => exact ⟨h.1.later, h.2.1, h.2.2.later hlater⟩
  | computing started epoch origin => exact ⟨h.1.later, h.2.1, h.2.2.later hlater⟩
  | storing goal entry =>
      refine ⟨h.1.later hlater, fun started hgoal => ?_⟩
      obtain ⟨hstarted, hle⟩ := h.2 started hgoal
      exact ⟨hstarted.later, hle⟩
  | releasing outcome =>
      cases outcome with
      | fetched started entry => exact h
      | stored => trivial
      | invalidated => trivial
      | failed e => trivial

theorem Inv.later (h : Inv M s n) (hlater : Later M (current s) (current s') n)
    (hlasting : ∀ row, s'.epoch = some row → row.expiresAt = none) (hentries : s'.entries = s.entries)
    (hprocesses : s'.processes = s.processes) : Inv M s' (n + 1) := by
  refine ⟨hlasting, ?_, fun p => ?_⟩
  · rw [hentries]
    exact fun k row hrow => (h.entries k row hrow).later hlater
  · rw [hprocesses]
    exact (h.processes p).later hlater

/-- Leases are nothing to the epoch. -/
theorem Inv.leases (h : Inv M s n) (leases : Tables) : Inv M { s with leases } n :=
  ⟨h.lasting, h.entries, h.processes⟩

end Later

section Steps

variable (hquiet : ¬M.invalidated n)

include hquiet

theorem Inv.next (h : Inv M s n) : Inv M s (n + 1) :=
  h.later (.inl ⟨rfl, hquiet⟩) h.lasting rfl rfl

/-- A step that leaves the cache and the call as they are. -/
theorem Inv.stays (h : Inv M s n) : Sound M p (n + 1) (s, .nothing) :=
  ⟨h.next hquiet, nofun⟩

theorem Inv.put (h : Inv M s n) {process : Process T}
    (hknows : Knows M p (current s) (n + 1) process.phase) :
    Inv M (s.put p process) (n + 1) := by
  have hnext := h.next hquiet
  refine ⟨hnext.lasting, hnext.entries, fun q => ?_⟩
  by_cases hq : q = p
  · rw [hq, System.put]
    dsimp only
    rw [update_self]
    exact hknows
  · rw [System.put]
    dsimp only
    rw [update_of_ne hq]
    exact hnext.processes q

theorem Inv.enter (h : Inv M s n) {phase : Phase T}
    (hknows : Knows M p (current s) (n + 1) phase) : Sound M p (n + 1) (s.enter p phase) :=
  ⟨h.put hquiet hknows, nofun⟩

/-- A call returns; a fetch has a value that it may return. -/
theorem Inv.finish (h : Inv M s n) {outcome : Outcome T}
    (hreturn : ∀ started entry, outcome = .fetched started entry → Returnable M p started entry) :
    Sound M p (n + 1) (s.finish p outcome) := by
  have hlogged : Inv M { s with
      returns := s.returns ++ outcome.returned (s.processes p).key,
      invalidations := s.invalidations ++ outcome.invalidated? (s.processes p).key s.steps } n :=
    ⟨h.lasting, h.entries, h.processes⟩
  exact ⟨hlogged.put hquiet trivial, fun started entry heq => hreturn started entry (Reply.done.inj heq)⟩

theorem Inv.fails (h : Inv M s n) {e : CacheError} : Sound M p (n + 1) (s.finish p (.failed e)) :=
  h.finish hquiet fun started entry heq => by cases heq

omit hquiet in
theorem liveValue_entry (h : Inv M s n) {now : Int} {k : Key}
    {entry : Entry T} (hlive : liveValue now (s.entries k) = some entry) :
    Entry.Read M (current s) n entry := by
  cases hcell : s.entries k with
  | none =>
      rw [hcell] at hlive
      cases hlive
  | some row =>
      rw [hcell, liveValue_some] at hlive
      split at hlive
      · rw [← Option.some.inj hlive]
        exact h.entries k row hcell
      · cases hlive

omit hquiet in
theorem currentEpoch_eq (h : Inv M s n) (now : Int) : s.currentEpoch now = current s := by
  rw [System.currentEpoch, current]
  cases hepoch : s.epoch with
  | none => rfl
  | some row =>
      rw [liveValue_some, Row.isLive, h.lasting row hepoch]
      rfl

theorem sound_get (h : Inv M s n) (now : Int) : Sound M p (n + 1) (get s p now) := by
  have hknows := h.processes p
  rw [CacheModel.get]
  split
  · rename_i started hphase
    rw [hphase] at hknows
    have hstarted : Started M p (n + 1) started := Started.later hknows
    split
    · exact h.enter hquiet hstarted
    · rename_i entry hlive
      exact h.enter hquiet ⟨hstarted, (liveValue_entry h hlive).later (.inl ⟨rfl, hquiet⟩)⟩
  · rename_i started hphase
    rw [hphase] at hknows
    exact h.enter hquiet
      ⟨Started.later hknows, fun e he => (liveValue_entry h he).later (.inl ⟨rfl, hquiet⟩)⟩
  · exact h.stays hquiet

/-- An epoch that is read now. -/
theorem read_now (hread : M.read (current s) n) : Read M (current s) (n + 1) (current s) n := by
  refine ⟨hread, le_rfl, fun t ht hinvalidated hle => ?_⟩
  obtain rfl : t = n := by omega
  exact absurd hinvalidated hquiet

omit hquiet in
/-- An entry whose epoch is still the current one is not older than any invalidation. -/
theorem returnable_current {started : Nat} {entry : Entry T} (hstarted : Started M p n started)
    (hread : Entry.Read M c n entry) (hcurrent : c ≤ entry.epoch) : Returnable M p started entry := by
  refine ⟨hstarted.2, hread.read, fun t hinvalidated ht => ?_⟩
  by_contra hle
  have := hread.lt t (ht.trans hstarted.1) hinvalidated (Nat.le_of_not_lt hle)
  omega

theorem sound_readEpoch (h : Inv M s n) (hn : n = s.steps) {now : Int}
    (hread : M.read (s.currentEpoch now) n) : Sound M p (n + 1) (readEpoch s p now) := by
  have hknows := h.processes p
  rw [currentEpoch_eq h now] at hread
  have hnow := read_now hquiet hread
  rw [readEpoch, currentEpoch_eq h now, ← hn]
  split
  · rename_i started entry hphase
    rw [hphase] at hknows
    split
    · have hstarted : Knows M p (current s) (n + 1) (.claiming (.fetch started) : Phase T) :=
        Started.later hknows.1
      exact h.enter hquiet hstarted
    · rename_i hcurrent
      refine h.finish hquiet fun started' entry' heq => ?_
      obtain ⟨rfl, rfl⟩ := Outcome.fetched.inj heq
      exact returnable_current hknows.1 hknows.2 (Int.not_lt.1 hcurrent)
  · rename_i started entry hphase
    rw [hphase] at hknows
    split
    · rename_i hcurrent
      exact h.enter hquiet (returnable_current hknows.1 (hknows.2 entry rfl) hcurrent)
    · exact h.enter hquiet ⟨Started.later hknows.1, hknows.1.1.le, hnow⟩
  · rename_i started hphase
    rw [hphase] at hknows
    exact h.enter hquiet ⟨Started.later hknows.1, hknows.1.1.le, hnow⟩
  · exact h.enter hquiet ⟨hnow, by rintro started ⟨⟩⟩
  · exact h.stays hquiet

theorem sound_claim (h : Inv M s n) {claimDuration : ClaimDuration}
    (now : Int) (rowVisible : Bool) (holderId : HolderId)
    (leaseToken : Token) :
    Sound M p (n + 1) (claim claimDuration s p now rowVisible holderId leaseToken) := by
  have hknows := h.processes p
  rw [claim]
  split
  · rename_i goal hphase
    rw [hphase] at hknows
    dsimp only
    split
    · exact (h.leases _).fails hquiet
    · exact (h.leases _).stays hquiet
    · refine ⟨(h.leases _).put hquiet ?_, nofun⟩
      cases goal with
      | fetch started => exact Started.later hknows
      | set value => trivial
      | invalidate => trivial
  · exact h.stays hquiet

theorem sound_renew (h : Inv M s n) {claimDuration : ClaimDuration} (now : Int) (nextLeaseToken : Token) :
    Sound M p (n + 1) (renew claimDuration s p now nextLeaseToken) := by
  have hknows := (h.next hquiet).processes p
  rw [renew]
  split
  · exact h.stays hquiet
  · dsimp only
    split
    · exact (h.leases _).stays hquiet
    · exact ⟨(h.leases _).put hquiet hknows, nofun⟩
    · exact ⟨(h.leases _).put hquiet hknows, nofun⟩

theorem sound_compute (h : Inv M s n) {started epochRead begun : Nat} {epoch : Int}
    (hphase : (s.processes p).phase = .missed started epoch epochRead) :
    Sound M p (n + 1) (s.enter p (.computing started epoch ⟨epochRead, begun⟩)) := by
  have hknows := (h.next hquiet).processes p
  rw [hphase] at hknows
  exact h.enter hquiet hknows

theorem sound_computed (h : Inv M s n) (value : T) : Sound M p (n + 1) (computed s p value) := by
  have hknows := (h.next hquiet).processes p
  rw [computed]
  split
  · rename_i started epoch origin hphase
    rw [hphase] at hknows
    split
    · exact h.enter hquiet trivial
    · refine h.enter hquiet ⟨hknows.2.2, fun started' hgoal => ?_⟩
      obtain rfl := Goal.fetch.inj hgoal
      exact ⟨hknows.1, hknows.2.1⟩
  · exact h.stays hquiet

omit hquiet in
theorem Inv.placed (h : Inv M s n) (k : Key) {cell : Option (Row (Entry T))}
    (hcell : ∀ row, cell = some row → Entry.Read M (current s) n row.value) :
    Inv M { s with entries := update s.entries k cell } n := by
  refine ⟨h.lasting, fun k' row hrow => ?_, h.processes⟩
  dsimp only at hrow
  by_cases hk : k' = k
  · subst hk
    rw [update_self] at hrow
    exact hcell row hrow
  · rw [update_of_ne hk] at hrow
    exact h.entries k' row hrow

/-- A value is stored under the epoch that was read before it was computed. -/
theorem sound_store (h : Inv M s n) {valueTtl : Ttl} (now : Int) :
    Sound M p (n + 1) (store valueTtl s p now) := by
  have hknows := h.processes p
  rw [store]
  split
  · rename_i goal entry hphase
    rw [hphase] at hknows
    have houtcome : ∀ row,
      Knows M p (current s) (n + 1) (.releasing (storedOutcome goal entry row)) := by
      intro row
      cases goal with
      | fetch started =>
          obtain ⟨hstarted, hle⟩ := hknows.2 started rfl
          exact ⟨hstarted.2, hknows.1.read, fun t _ ht => ht.trans_le hle⟩
      | set value => cases row <;> trivial
      | invalidate => cases row <;> trivial
    split
    · exact h.enter hquiet (houtcome _)
    · rename_i row hrow
      refine (h.placed _ fun row' hrow' => ?_).enter hquiet (houtcome _)
      rw [← Option.some.inj hrow', setValueAndTtl_value hrow]
      exact hknows.1
  · exact h.stays hquiet

theorem sound_delete (h : Inv M s n) (now : Int) : Sound M p (n + 1) (delete s p now) := by
  rw [delete]
  split
  · split
    · have hnone : ∀ row, (none : Option (Row (Entry T))) = some row →
          Entry.Read M (current s) n row.value := nofun
      exact (h.placed _ hnone).enter hquiet trivial
    · exact h.enter hquiet trivial
  · exact h.stays hquiet

theorem sound_release (h : Inv M s n) (now : Int) : Sound M p (n + 1) (release s p now) := by
  have hknows := h.processes p
  rw [release]
  split
  · rename_i outcome hphase
    rw [hphase] at hknows
    have hreturn : ∀ started entry, outcome = .fetched started entry → Returnable M p started entry := by
      rintro started entry rfl
      exact hknows
    have hlost : ∀ started entry, release.lost outcome ≠ .fetched started entry := by
      intro started entry heq
      cases outcome <;> cases heq
    have hfailed : ∀ e started entry, release.failedRelease outcome e ≠ .fetched started entry := by
      intro e started entry heq
      cases outcome <;> cases heq
    split
    · exact h.finish hquiet fun started entry heq => absurd heq (hlost started entry)
    · dsimp only
      split
      · exact (h.leases _).finish hquiet fun started entry heq => absurd heq (hfailed _ started entry)
      · refine (h.leases _).finish hquiet fun started entry heq => ?_
        split at heq
        · exact hreturn started entry heq
        · exact absurd heq (hlost started entry)
  · exact h.stays hquiet

theorem sound_fail (h : Inv M s n) : Sound M p (n + 1) (fail s p) := by
  rw [CacheModel.fail]
  split
  · exact h.stays hquiet
  · exact h.fails hquiet
  · exact h.fails hquiet
  · exact h.fails hquiet
  · exact h.enter hquiet trivial

end Steps

section Invalidation

/-- An invalidation that succeeds advances the epoch, which still has no expiry. -/
theorem invalidateAll_advances (hlasting : ∀ row, s.epoch = some row → row.expiresAt = none)
    {now : Int} {delay : Nat} (hreply : (invalidateAll s now delay).2 = .invalidatedAll) :
    current s < current (invalidateAll s now delay).1 ∧
      ∀ row, (invalidateAll s now delay).1.epoch = some row → row.expiresAt = none := by
  rw [invalidateAll] at hreply ⊢
  split at hreply
  · cases hreply
  · rename_i epoch hmutated
    obtain ⟨mutation, hdecide, hwritten⟩ :=
      mutateLiveKeyOrInsert_eq_ok (fun value answer mutation hd => by
      split at hd
      · cases hd
      · exact .inr ⟨_, (Prod.mk.inj (Except.ok.inj hd)).2.symm⟩) hmutated
    have hlive : (liveValue now s.epoch).getD 1 = (s.epoch.map (·.value)).getD 1 := by
      cases hepoch : s.epoch with
      | none => rfl
      | some row =>
          rw [liveValue_some, Row.isLive, hlasting row hepoch]
          rfl
    have hset : mutation = .setValue ((s.epoch.map (·.value)).getD 1 + 1) .noExpiration := by
      rw [hlive] at hdecide
      split at hdecide
      · cases hdecide
      · exact (Prod.mk.inj (Except.ok.inj hdecide)).2.symm
    subst hset
    obtain ⟨row, rfl, hrow⟩ : ∃ row, epoch = some row ∧
      row = ⟨(s.epoch.map (·.value)).getD 1 + 1, none⟩ := by
      rcases hwritten with ⟨hkeep, -⟩ | ⟨row, hepoch, hrow, hset | ⟨hkeep, -⟩⟩
      · cases hkeep
      · refine ⟨row, hepoch, ?_⟩
        rw [(AtomicMutation.setValue.inj hset).1]
        exact setValueAndTtl_noExpiration hrow
      · cases hkeep
    have hcurrent : current s < row.value := by
      rw [hrow, current]
      cases s.epoch with
      | none => exact (by decide : (0 : Int) < 1 + 1)
      | some row => exact Int.lt_succ row.value
    refine ⟨hcurrent, fun row' hrow' => ?_⟩
    rw [← Option.some.inj hrow', hrow]

theorem invalidateAll_frame (s : System T) (now : Int) (delay : Nat) :
    (invalidateAll s now delay).1.entries = s.entries ∧
      (invalidateAll s now delay).1.processes = s.processes ∧
      ((invalidateAll s now delay).2 ≠ .invalidatedAll → (invalidateAll s now delay).1 = s) ∧
      ∀ outcome, (invalidateAll s now delay).2 = .done outcome → ∃ e, outcome = .failed e := by
  rw [invalidateAll]
  split
  · exact ⟨rfl, rfl, fun _ => rfl, fun outcome h => ⟨_, (Reply.done.inj h).symm⟩⟩
  · exact ⟨rfl, rfl, fun h => absurd rfl h, nofun⟩

theorem sound_invalidateAll (h : Inv M s n) {now : Int} {delay : Nat}
    (hinvalidated : M.invalidated n → (invalidateAll s now delay).2 = .invalidatedAll) :
    Sound M p (n + 1) (invalidateAll s now delay) := by
  obtain ⟨hentries, hprocesses, hsame, hdone⟩ := invalidateAll_frame s now delay
  refine ⟨?_, fun started entry heq => ?_⟩
  · by_cases hreply : (invalidateAll s now delay).2 = .invalidatedAll
    · obtain ⟨hcurrent, hlasting⟩ := invalidateAll_advances h.lasting hreply
      exact h.later (.inr hcurrent) hlasting hentries hprocesses
    · rw [hsame hreply]
      exact h.next fun hn => hreply (hinvalidated hn)
  · obtain ⟨e, he⟩ := hdone _ heq
    cases he

/-- A step of the process `p`, at a moment that is told of as the step is. -/
theorem sound_act (h : Inv M s n) (hn : n = s.steps) {valueTtl : Ttl}
    {claimDuration : ClaimDuration} {input : Input T}
    (hbegun : ∀ p key, input = .begin p key .fetch → M.begun p n)
    (hread : ∀ p now, input = .readEpoch p now → M.read (s.currentEpoch now) n)
    (hinvalidated : M.invalidated n → ∃ now delay, input = .invalidateAll now delay ∧
      (invalidateAll s now delay).2 = .invalidatedAll)
    (hp : ∀ q, input.caller = some q → q = p) :
    Sound M p (n + 1) (act valueTtl claimDuration s input) := by
  have hquiet : (∀ now delay, input ≠ .invalidateAll now delay) → ¬M.invalidated n := by
    intro hother hm
    obtain ⟨now, delay, heq, -⟩ := hinvalidated hm
    exact hother now delay heq
  rw [act.eq_def]
  cases input with
  | begin q key request =>
      obtain rfl := hp q rfl
      dsimp only
      split
      · refine ⟨h.put (hquiet nofun) ?_, nofun⟩
        cases request with
        | fetch => exact hn ▸ ⟨Nat.lt_succ_self n, hbegun q key rfl⟩
        | set value => trivial
        | invalidate => trivial
      · exact h.stays (hquiet nofun)
  | get q now => exact hp q rfl ▸ sound_get (hquiet nofun) h now
  | readEpoch q now => exact hp q rfl ▸ sound_readEpoch (hquiet nofun) h hn (hread q now rfl)
  | claim q now rowVisible holderId leaseToken =>
      exact hp q rfl ▸ sound_claim (hquiet nofun) h now rowVisible holderId leaseToken
  | renew q now nextLeaseToken => exact hp q rfl ▸ sound_renew (hquiet nofun) h now nextLeaseToken
  | loseLeadership q =>
      exact ⟨h.put (hquiet nofun) ((h.next (hquiet nofun)).processes q), nofun⟩
  | compute q =>
      obtain rfl := hp q rfl
      dsimp only
      split
      · rename_i hphase
        exact sound_compute (hquiet nofun) h hphase
      · exact h.stays (hquiet nofun)
  | computed q value => exact hp q rfl ▸ sound_computed (hquiet nofun) h value
  | store q now => exact hp q rfl ▸ sound_store (hquiet nofun) h now
  | delete q now => exact hp q rfl ▸ sound_delete (hquiet nofun) h now
  | release q now => exact hp q rfl ▸ sound_release (hquiet nofun) h now
  | fail q => exact hp q rfl ▸ sound_fail (hquiet nofun) h
  | invalidateAll now delay =>
      refine sound_invalidateAll h fun hm => ?_
      obtain ⟨now', delay', heq, hreply⟩ := hinvalidated hm
      obtain ⟨rfl, rfl⟩ := Input.invalidateAll.inj heq
      exact hreply

end Invalidation

section Runs

variable {valueTtl : Ttl} {claimDuration : ClaimDuration} {inputs : List (Input T)} {start : System T}
  {input : Input T}

theorem inv_start (key : Key) (now : Int) : Inv M (System.start key now : System T) 0 :=
  ⟨nofun, nofun, fun _ => trivial⟩

theorem Inv.account (h : Inv M s n) {steps : Nat} {latest : Int} : Inv M { s with steps, latest } n :=
  ⟨h.lasting, h.entries, h.processes⟩

theorem sound_step (hinput : inputs[n]? = some input)
    (h : Inv (moments valueTtl claimDuration inputs start) s n)
    (hs : s = exec (step valueTtl claimDuration) (inputs.take n) start) (hn : n = s.steps)
    (hp : ∀ q, input.caller = some q → q = p) :
    Sound (moments valueTtl claimDuration inputs start) p (n + 1) (step valueTtl claimDuration input s) := by
  have hact : Sound (moments valueTtl claimDuration inputs start) p (n + 1)
      (act valueTtl claimDuration s input) := by
    refine sound_act h hn (fun q key hbegin => ⟨key, ?_⟩) (fun q now hread => ⟨q, now, ?_, ?_⟩) ?_ hp
    · rw [hinput, hbegin]
    · rw [hinput, hread]
    · rw [hs]
    · rintro ⟨now, delay, hreply⟩
      obtain ⟨hinput', hreply⟩ := getElem?_trace_eq_some hreply
      rw [hinput] at hinput'
      rw [← hs] at hreply
      exact ⟨now, delay, Option.some.inj hinput', hreply⟩
  exact ⟨hact.inv.account, hact.reply⟩

variable (valueTtl claimDuration) in
/-- At every moment of a run. -/
theorem inv_run (key : Key) (now : Int) (hn : n ≤ inputs.length) :
    let s := exec (step valueTtl claimDuration) (inputs.take n) (System.start key now)
    Inv (moments valueTtl claimDuration inputs (System.start key now)) s n ∧ n = s.steps :=
  exec_moments
    (fun n s => Inv (moments valueTtl claimDuration inputs (System.start key now)) s n ∧ n = s.steps)
    (fun _ input hinput ⟨h, hn⟩ =>
      ⟨(sound_step (p := input.caller.getD 0) hinput h rfl hn fun q hq => by rw [hq]; rfl).inv,
        congrArg (· + 1) hn⟩)
    ⟨inv_start key now, rfl⟩ hn

end Runs

/-- In every run: an invalidation of the whole cache that succeeds advances the epoch, and
what a fetch returns had its epoch read after every such invalidation that had committed
when the fetch began. -/
theorem epoch_invalidates (valueTtl : Ttl) (claimDuration : ClaimDuration) (key : Key) (now : Int)
    (inputs : List (Input T)) :
    let start := System.start key now
    let run := moments valueTtl claimDuration inputs start
    let epochAt t := current (exec (step valueTtl claimDuration) (inputs.take t) start)
    (∀ t, run.invalidated t → epochAt t < epochAt (t + 1)) ∧
      ∀ input started entry,
        (input, .done (.fetched started entry)) ∈ trace (step valueTtl claimDuration) inputs start →
        (∀ p, input.caller = some p → run.begun p started) ∧
          run.read entry.epoch entry.origin.epochRead ∧
          ∀ t, run.invalidated t → t < started → t < entry.origin.epochRead := by
  intro start run epochAt
  refine ⟨fun t ht => ?_, fun input started entry hreply => ?_⟩
  · obtain ⟨moment, delay, hreply⟩ := ht
    obtain ⟨hinput, hreply⟩ := getElem?_trace_eq_some hreply
    have hinv := (inv_run valueTtl claimDuration key now
      (List.getElem?_eq_some_iff.1 hinput).1.le).1
    have hadvances := (invalidateAll_advances hinv.lasting hreply).1
    dsimp only [epochAt]
    rw [exec_take_succ hinput]
    exact hadvances
  · obtain ⟨n, hn⟩ := List.getElem?_of_mem hreply
    obtain ⟨hinput, hreply⟩ := getElem?_trace_eq_some hn
    obtain ⟨hinv, hsteps⟩ := inv_run valueTtl claimDuration key now
      (List.getElem?_eq_some_iff.1 hinput).1.le
    have hsound := sound_step (p := input.caller.getD 0) hinput hinv rfl hsteps
      fun q hq => by rw [hq]; rfl
    have hreturnable := hsound.reply started entry hreply
    refine ⟨fun p hp => ?_, hreturnable.read, hreturnable.fresh⟩
    have hbegun := hreturnable.begun
    rw [hp] at hbegun
    exact hbegun

/-- A fetch computes a value, the whole cache is invalidated before the value is stored, and
the fetch after that computes it anew. -/
def invalidatedWhileComputing : List (Input String) :=
  [.begin 0 jobKey .fetch, .get 0 0, .claim 0 0 true holderA (tokenOf 1), .get 0 0, .readEpoch 0 0,
    .compute 0, .invalidateAll 0 0, .computed 0 "old", .store 0 0, .release 0 0,
    .begin 1 jobKey .fetch, .get 1 1, .readEpoch 1 1, .claim 1 1 true holderB (tokenOf 2), .get 1 1,
    .readEpoch 1 1, .compute 1, .computed 1 "new", .store 1 1, .release 1 1]

def entriesWhileComputing : List (Input String × Reply String) :=
  trace (step .noExpiration defaultCoalescingCacheMutexClaimDuration) invalidatedWhileComputing
    (System.start jobKey 0)

theorem epoch_invalidates_stored :
    let run := moments .noExpiration defaultCoalescingCacheMutexClaimDuration invalidatedWhileComputing
      (System.start jobKey 0)
    run.invalidated 6 ∧
      entriesWhileComputing[9]? = some (.release 0 0, .done (.fetched 0 ⟨"old", 0, 4, 5⟩)) ∧
      entriesWhileComputing[19]? = some (.release 1 1, .done (.fetched 10 ⟨"new", 2, 15, 16⟩)) ∧
      run.begun 1 10 ∧ run.read 2 15 ∧ 6 < 15 := by
  have hinvalidated : (moments .noExpiration defaultCoalescingCacheMutexClaimDuration
      invalidatedWhileComputing (System.start jobKey 0)).invalidated 6 := ⟨0, 0, rfl⟩
  have hreturned : entriesWhileComputing[19]? =
      some (.release 1 1, .done (.fetched 10 ⟨"new", 2, 15, 16⟩)) := rfl
  obtain ⟨hbegun, hread, hfresh⟩ :=
    (epoch_invalidates .noExpiration defaultCoalescingCacheMutexClaimDuration jobKey 0
      invalidatedWhileComputing).2 _ _ _ (List.mem_of_getElem? hreturned)
  exact ⟨hinvalidated, rfl, hreturned, hbegun 1 rfl, hread, hfresh 6 hinvalidated (by decide)⟩

end Paranoid.CacheEpochs
