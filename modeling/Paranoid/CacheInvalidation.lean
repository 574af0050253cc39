import Paranoid.CacheModel
import Paranoid.LeaseAuthority
import Paranoid.LeaseFencing

namespace Paranoid.CacheInvalidation

open Function KvAtomic LeaseModel LeaseStatements LeaseRuns LeaseFencing CacheModel Transitions
open LeaseAuthority (jobKey holderA holderB tokenOf)

variable {T : Type} {s s' : System T} {p n : Nat} {now : Int}
  {key : Key} {is : List Invalidated} {leases leases' : Tables}
  {process : Process T}

/-- The lease row of the process's key is that of its claim, live or not. -/
def ownsLease (leases : Tables) (process : Process T) : Bool :=
  match process.currentClaim, leases.leases process.key with
  | some claim, some row => row.fencingToken = claim.fencingToken
  | _, _ => false

/-- A store is made while the lease row is still that of the process which stores, and the
clock does not go back. -/
def orderly (input : Input T) (s : System T) : Bool :=
  input.now.all (s.latest ≤ ·) &&
    match input with
    | .store p _ =>
        match (s.processes p).phase with
        | .storing _ _ => ownsLease s.leases (s.processes p)
        | _ => true
    | _ => true

/-- A value that a fetch may return: its computation began after the invalidations of its
key that had returned when the fetch began. -/
def Returnable (is : List Invalidated) (key : Key) (started : Nat) (origin : Origin) : Prop :=
  ∀ i ∈ is, i.key = key → i.returnedAt < started → i.returnedAt < origin.begun

/-- What a call knows in each of its phases, at a moment `n`. -/
def Knows (is : List Invalidated) (key : Key) (n : Nat) : Phase T → Prop
  | .lookup started | .claiming (.fetch started) | .locked (.fetch started) | .missed started _ _ =>
      started < n
  | .lookedUp started entry | .releasing (.fetched started entry) =>
      started < n ∧ Returnable is key started entry.origin
  | .lockedLookedUp started entry =>
      started < n ∧ ∀ e, entry = some e → Returnable is key started e.origin
  | .computing started _ origin => started < n ∧ started ≤ origin.begun
  | .storing goal entry => ∀ started, goal = .fetch started → started < n ∧ started ≤ entry.origin.begun
  | _ => True

/-- A computation under a lease that is still held is later than every invalidation. -/
def Later (is : List Invalidated) (key : Key) : Phase T → Prop
  | .computing _ _ origin => ∀ i ∈ is, i.key = key → i.returnedAt < origin.begun
  | .storing _ entry => ∀ i ∈ is, i.key = key → i.returnedAt < entry.origin.begun
  | _ => True

def Expired (now : Int) (row : Row (Entry T)) : Prop :=
  ∃ expiresAt, row.expiresAt = some expiresAt ∧ expiresAt ≤ now

def Gone (now : Int) (cell : Option (Row (Entry T))) : Prop := ∀ row, cell = some row → Expired now row

/-- Claims of one key have tokens of their own, which the key's counter has reached. -/
structure Claims (leases : Tables) (processes : Nat → Process T) : Prop where
  fenced : ∀ key, Fenced key leases
  bound : ∀ p c, (processes p).currentClaim = some c →
    c.key = (processes p).key ∧ c.fencingToken.value ≤ counter (processes p).key leases
  distinct : ∀ p q c d, p ≠ q → (processes p).currentClaim = some c →
    (processes q).currentClaim = some d →
    (processes p).key = (processes q).key → c.fencingToken ≠ d.fencingToken

/-- What the owner of a lease has done, and has not. -/
structure Owner (is : List Invalidated) (entries : Key → Option (Row (Entry T)))
    (now : Int) (process : Process T) : Prop where
  later : Later is process.key process.phase
  deleted : process.phase = .releasing .invalidated → Gone now (entries process.key)

/-- All moments so far are before `n`, and no timestamp is after `now`. -/
structure Inv (s : System T) (n : Nat) (now : Int) : Prop where
  claims : Claims s.leases s.processes
  past : ∀ i ∈ s.invalidations, i.returnedAt < n
  entries : ∀ i ∈ s.invalidations, ∀ row, s.entries i.key = some row →
    i.returnedAt < row.value.origin.begun ∨ Expired now row
  processes : ∀ p, Knows s.invalidations (s.processes p).key n (s.processes p).phase
  owners : ∀ p, ownsLease s.leases (s.processes p) → Owner s.invalidations s.entries now (s.processes p)
  returns : ∀ r ∈ s.returns, r.started < n ∧ Returnable s.invalidations r.key r.started r.origin

theorem ownsLease_iff : ownsLease leases process ↔ ∃ c row, process.currentClaim = some c ∧
    leases.leases process.key = some row ∧ row.fencingToken = c.fencingToken := by
  rw [ownsLease]
  cases process.currentClaim with
  | none => simp
  | some c =>
      cases leases.leases process.key with
      | none => simp
      | some row => simp

section Time

theorem Knows.next {phase : Phase T} (h : Knows is key n phase) : Knows is key (n + 1) phase := by
  cases phase with
  | idle => trivial
  | lookup started => exact Nat.lt_succ_of_lt h
  | lookedUp started entry => exact ⟨Nat.lt_succ_of_lt h.1, h.2⟩
  | claiming goal =>
      cases goal with
      | fetch started => exact Nat.lt_succ_of_lt h
      | set value => trivial
      | invalidate => trivial
  | locked goal =>
      cases goal with
      | fetch started => exact Nat.lt_succ_of_lt h
      | set value => trivial
      | invalidate => trivial
  | lockedLookedUp started entry => exact ⟨Nat.lt_succ_of_lt h.1, h.2⟩
  | missed started epoch epochRead => exact Nat.lt_succ_of_lt h
  | computing started epoch origin => exact ⟨Nat.lt_succ_of_lt h.1, h.2⟩
  | storing goal entry =>
      intro started hgoal
      obtain ⟨hlt, hle⟩ := h started hgoal
      exact ⟨Nat.lt_succ_of_lt hlt, hle⟩
  | releasing outcome =>
      cases outcome with
      | fetched started entry => exact ⟨Nat.lt_succ_of_lt h.1, h.2⟩
      | stored => trivial
      | invalidated => trivial
      | failed e => trivial

theorem Inv.next (h : Inv s n now) : Inv s (n + 1) now :=
  ⟨h.claims, fun i hi => Nat.lt_succ_of_lt (h.past i hi),
    h.entries, fun p => (h.processes p).next, h.owners,
    fun r hr => ⟨Nat.lt_succ_of_lt (h.returns r hr).1, (h.returns r hr).2⟩⟩

theorem Expired.later {later : Int} {row : Row (Entry T)}
    (h : Expired now row) (hle : now ≤ later) : Expired later row := by
  obtain ⟨expiresAt, hexpires, hexpired⟩ := h
  exact ⟨expiresAt, hexpires, hexpired.trans hle⟩

theorem Inv.later {later : Int} (h : Inv s n now) (hle : now ≤ later) : Inv s n later := by
  refine ⟨h.claims, h.past,
    fun i hi row hrow => (h.entries i hi row hrow).imp_right fun hexpired => hexpired.later hle,
    h.processes, fun p howns => ?_, h.returns⟩
  obtain ⟨hlater, hdeleted⟩ := h.owners p howns
  exact ⟨hlater, fun hphase row hrow => (hdeleted hphase row hrow).later hle⟩

theorem not_expired {row : Row (Entry T)} (hlive : row.isLive now) : ¬Expired now row := by
  rintro ⟨expiresAt, hexpires, hle⟩
  rw [Row.isLive, hexpires] at hlive
  exact absurd hle (not_le_of_gt (of_decide_eq_true hlive))

theorem expired_of_not_live {row : Row (Entry T)} (hlive : row.isLive now = false) :
    Expired now row := by
  rw [Row.isLive] at hlive
  cases hexpires : row.expiresAt with
  | none =>
      rw [hexpires] at hlive
      cases hlive
  | some expiresAt =>
      rw [hexpires] at hlive
      exact ⟨expiresAt, hexpires, not_lt.1 (of_decide_eq_false hlive)⟩

end Time

section Leases

/-- No row has a new token, and no counter goes back. -/
structure TokensKept (leases leases' : Tables) : Prop where
  rows : ∀ key row', leases'.leases key = some row' →
    ∃ row, leases.leases key = some row ∧ row.fencingToken = row'.fencingToken
  counters : ∀ key, counter key leases ≤ counter key leases'

theorem TokensKept.owns (h : TokensKept leases leases') (howns : ownsLease leases' process) :
    ownsLease leases process := by
  rw [ownsLease_iff] at howns ⊢
  obtain ⟨c, row', hc, hrow', htoken⟩ := howns
  obtain ⟨row, hrow, hsame⟩ := h.rows process.key row' hrow'
  exact ⟨c, row, hc, hrow, hsame.trans htoken⟩

theorem TokensKept.fenced (h : TokensKept leases leases') (hfenced : Fenced key leases) :
    Fenced key leases' := by
  intro row' hrow'
  obtain ⟨row, hrow, hsame⟩ := h.rows key row' hrow'
  rw [← hsame]
  exact (hfenced row hrow).trans (h.counters key)

theorem tokensKept_putCounter {token : FencingToken} (above : AboveCounter leases key token) :
    TokensKept leases (leases.putCounter key token) :=
  ⟨fun _ row hrow => ⟨row, hrow, rfl⟩, fun other => counter_le_putCounter above other⟩

theorem tokensKept_renewed {row renewed : LeaseRow} (hrow : leases.leases key = some row)
    (htoken : renewed.fencingToken = row.fencingToken) :
    TokensKept leases (leases.putLease key renewed) := by
  refine ⟨fun other row' hrow' => ?_, fun _ => le_rfl⟩
  rw [Tables.putLease] at hrow'
  dsimp only at hrow'
  by_cases hk : other = key
  · subst hk
    rw [update_self] at hrow'
    rw [← Option.some.inj hrow']
    exact ⟨row, hrow, htoken.symm⟩
  · rw [update_of_ne hk] at hrow'
    exact ⟨row', hrow', rfl⟩

theorem tokensKept_deleted (leases : Tables) (key : Key) :
    TokensKept leases (leases.deleteLease key) := by
  refine ⟨fun other row' hrow' => ?_, fun _ => le_rfl⟩
  rw [Tables.deleteLease] at hrow'
  dsimp only at hrow'
  by_cases hk : other = key
  · subst hk
    rw [update_self] at hrow'
    cases hrow'
  · rw [update_of_ne hk] at hrow'
    exact ⟨row', hrow', rfl⟩

theorem Inv.kept (h : Inv s n now) (hkept : TokensKept s.leases leases') :
    Inv { s with leases := leases' } n now := by
  refine ⟨⟨fun key => hkept.fenced (h.claims.fenced key), fun p c hc => ?_, h.claims.distinct⟩,
    h.past, h.entries,
    h.processes, fun p howns => h.owners p (hkept.owns howns), h.returns⟩
  obtain ⟨hkey, hbound⟩ := h.claims.bound p c hc
  exact ⟨hkey, hbound.trans (hkept.counters _)⟩

end Leases

section Put

theorem put_self (s : System T) (p : Nat) (process : Process T) :
    (s.put p process).processes p = process := by
  rw [System.put]
  exact update_self ..

theorem put_other (s : System T) {p q : Nat} (h : q ≠ p) (process : Process T) :
    (s.put p process).processes q = s.processes q := by
  rw [System.put]
  exact update_of_ne h ..

/-- A process that has no claim, or the one that it had. -/
def ClaimKept (old process : Process T) : Prop :=
  ∀ c, process.currentClaim = some c → process.key = old.key ∧
    ∃ c', old.currentClaim = some c' ∧ c.fencingToken = c'.fencingToken ∧ c.key = c'.key

theorem Claims.put (h : Claims s.leases s.processes) (hclaim : ClaimKept (s.processes p) process) :
    Claims s.leases (s.put p process).processes := by
  refine ⟨h.fenced, fun q c hc => ?_, fun q r c d hne hc hd hkey => ?_⟩
  · by_cases hq : q = p
    · rw [hq, put_self] at hc ⊢
      obtain ⟨hkey, c', hc', htoken, hsame⟩ := hclaim c hc
      obtain ⟨hbkey, hbound⟩ := h.bound p c' hc'
      rw [hkey, htoken, hsame]
      exact ⟨hbkey, hbound⟩
    · rw [put_other s hq] at hc ⊢
      exact h.bound q c hc
  · by_cases hq : q = p
    · have hr : r ≠ p := fun heq => hne (hq.trans heq.symm)
      rw [hq, put_self] at hc hkey
      rw [put_other s hr] at hd hkey
      obtain ⟨hpkey, c', hc', htoken, -⟩ := hclaim c hc
      rw [htoken]
      exact h.distinct p r c' d hr.symm hc' hd (hpkey.symm.trans hkey)
    · rw [put_other s hq] at hc hkey
      by_cases hr : r = p
      · rw [hr, put_self] at hd hkey
        obtain ⟨hpkey, d', hd', htoken, -⟩ := hclaim d hd
        rw [htoken]
        exact h.distinct q p c d' hq hc hd' (hkey.trans hpkey)
      · rw [put_other s hr] at hd hkey
        exact h.distinct q r c d hne hc hd hkey

theorem ClaimKept.owns (hclaim : ClaimKept (s.processes p) process) (howns : ownsLease leases process) :
    ownsLease leases (s.processes p) ∧ process.key = (s.processes p).key := by
  rw [ownsLease_iff] at howns ⊢
  obtain ⟨c, row, hc, hrow, htoken⟩ := howns
  obtain ⟨hkey, c', hc', hsame, -⟩ := hclaim c hc
  rw [hkey] at hrow
  exact ⟨⟨c', row, hc', hrow, htoken.trans hsame⟩, hkey⟩

/-- A step of one process that keeps its claim, or gives it up. -/
theorem Inv.put (h : Inv s n now) (hclaim : ClaimKept (s.processes p) process)
    (hknows : Knows s.invalidations process.key n process.phase)
    (howner : ownsLease s.leases process → Owner s.invalidations s.entries now process) :
    Inv (s.put p process) n now := by
  refine ⟨h.claims.put hclaim, h.past, h.entries, fun q => ?_, fun q howns => ?_, h.returns⟩
  · by_cases hq : q = p
    · rw [hq, put_self]
      exact hknows
    · rw [put_other s hq]
      exact h.processes q
  · by_cases hq : q = p
    · rw [hq, put_self] at howns ⊢
      exact howner howns
    · rw [put_other s hq] at howns ⊢
      exact h.owners q howns

/-- A new phase, that neither begins a computation nor ends a delete. -/
theorem Inv.enter (h : Inv s n now) {phase : Phase T}
    (hknows : Knows s.invalidations (s.processes p).key (n + 1) phase)
    (howner : ownsLease s.leases (s.processes p) →
      Owner s.invalidations s.entries now { s.processes p with phase }) :
    Inv (s.enter p phase).1 (n + 1) now :=
  h.next.put (fun c hc => ⟨rfl, c, hc, rfl, rfl⟩) hknows howner

theorem owner_idle {entries : Key → Option (Row (Entry T))}
    {process : Process T} (hlater : Later is process.key process.phase)
    (hphase : process.phase ≠ .releasing .invalidated) : Owner is entries now process :=
  ⟨hlater, fun heq => absurd heq hphase⟩

end Put

section Finish

theorem Inv.idle (h : Inv s n now) : Inv (s.put p ⟨(s.processes p).key, .idle, none, false⟩) n now :=
  h.put nofun trivial fun howns => by cases howns

theorem finish_failed (s : System T) (p : Nat) (e : CacheError) :
    (s.finish p (.failed e)).1 = s.put p ⟨(s.processes p).key, .idle, none, false⟩ := by
  show System.put { s with returns := s.returns ++ [], invalidations := s.invalidations ++ [] } p _ = _
  rw [List.append_nil, List.append_nil]

theorem finish_stored (s : System T) (p : Nat) :
    (s.finish p .stored).1 = s.put p ⟨(s.processes p).key, .idle, none, false⟩ :=
  finish_failed s p .gaveUp

theorem finish_fetched (s : System T) (p started : Nat) (entry : Entry T) :
    (s.finish p (.fetched started entry)).1 =
      System.put { s with returns := s.returns ++ [⟨(s.processes p).key, started, entry.origin⟩] } p
        ⟨(s.processes p).key, .idle, none, false⟩ := by
  show System.put { s with returns := _, invalidations := s.invalidations ++ [] } p _ = _
  rw [List.append_nil]
  rfl

theorem finish_invalidated (s : System T) (p : Nat) :
    (s.finish p .invalidated).1 =
      System.put { s with invalidations := s.invalidations ++ [⟨(s.processes p).key, s.steps⟩] } p
        ⟨(s.processes p).key, .idle, none, false⟩ := by
  show System.put { s with returns := s.returns ++ [], invalidations := _ } p _ = _
  rw [List.append_nil]
  rfl

theorem Inv.fail (h : Inv s n now) {e : CacheError} : Inv (s.finish p (.failed e)).1 (n + 1) now := by
  rw [finish_failed]
  exact h.next.idle

theorem Inv.done (h : Inv s n now) : Inv (s.finish p .stored).1 (n + 1) now := by
  rw [finish_stored]
  exact h.next.idle

theorem Inv.fetched (h : Inv s n now) {started : Nat} {entry : Entry T} (hstarted : started < n)
    (hreturn : Returnable s.invalidations (s.processes p).key started entry.origin) :
    Inv (s.finish p (.fetched started entry)).1 (n + 1) now := by
  have hreturned : Inv { s with
    returns := s.returns ++ [⟨(s.processes p).key, started, entry.origin⟩] } n now := by
    refine ⟨h.claims, h.past, h.entries, h.processes, h.owners, fun r hr => ?_⟩
    rcases List.mem_append.1 hr with hr | hr
    · exact h.returns r hr
    · obtain rfl := List.mem_singleton.1 hr
      exact ⟨hstarted, hreturn⟩
  rw [finish_fetched]
  exact hreturned.next.idle

theorem Returnable.later {started returnedAt : Nat} {key' : Key}
    {origin : Origin} (h : Returnable is key started origin)
    (hstarted : started < returnedAt) : Returnable (is ++ [⟨key', returnedAt⟩]) key started origin := by
  intro i hi hkey hlt
  rcases List.mem_append.1 hi with hi | hi
  · exact h i hi hkey hlt
  · obtain rfl := List.mem_singleton.1 hi
    exact absurd hlt (not_lt_of_gt hstarted)

theorem Knows.later {key' : Key} {phase : Phase T} (h : Knows is key n phase) :
    Knows (is ++ [⟨key', n⟩]) key (n + 1) phase := by
  cases phase with
  | lookedUp started entry => exact ⟨Nat.lt_succ_of_lt h.1, h.2.later h.1⟩
  | lockedLookedUp started entry => exact ⟨Nat.lt_succ_of_lt h.1, fun e he => (h.2 e he).later h.1⟩
  | releasing outcome =>
      cases outcome with
      | fetched started entry => exact ⟨Nat.lt_succ_of_lt h.1, h.2.later h.1⟩
      | stored => trivial
      | invalidated => trivial
      | failed e => trivial
  | claiming goal => cases goal <;> exact Knows.next h
  | locked goal => cases goal <;> exact Knows.next h
  | _ => exact Knows.next h

theorem Later.later {returnedAt : Nat} {key' : Key}
    {phase : Phase T} (h : Later is key phase) (hkey : key' ≠ key) :
    Later (is ++ [⟨key', returnedAt⟩]) key phase := by
  have hnew : ∀ i ∈ is ++ [⟨key', returnedAt⟩], i.key = key → i ∈ is := by
    intro i hi hik
    rcases List.mem_append.1 hi with hi | hi
    · exact hi
    · obtain rfl := List.mem_singleton.1 hi
      exact absurd hik hkey
  cases phase with
  | computing started epoch origin => exact fun i hi hik => h i (hnew i hi hik) hik
  | storing goal entry => exact fun i hi hik => h i (hnew i hi hik) hik
  | _ => trivial

/-- An invalidation returns, with its lease released and the value gone. -/
theorem Inv.invalidated (h : Inv s n now) (hn : n = s.steps)
    (hfree : s.leases.leases (s.processes p).key = none)
    (hgone : Gone now (s.entries (s.processes p).key)) :
    Inv (s.finish p .invalidated).1 (n + 1) now := by
  have hreturned : Inv { s with
    invalidations := s.invalidations ++ [⟨(s.processes p).key, s.steps⟩] } (n + 1) now := by
    rw [← hn]
    refine ⟨h.claims, fun i hi => ?_, fun i hi row hrow => ?_,
      fun q => (h.processes q).later, fun q howns => ?_, fun r hr => ?_⟩
    · rcases List.mem_append.1 hi with hi | hi
      · exact Nat.lt_succ_of_lt (h.past i hi)
      · obtain rfl := List.mem_singleton.1 hi
        exact Nat.lt_succ_self n
    · rcases List.mem_append.1 hi with hi | hi
      · exact h.entries i hi row hrow
      · obtain rfl := List.mem_singleton.1 hi
        exact .inr (hgone row hrow)
    · obtain ⟨hlater, hdeleted⟩ := h.owners q howns
      refine ⟨hlater.later fun hkey => ?_, hdeleted⟩
      obtain ⟨c, row, -, hrow, -⟩ := ownsLease_iff.1 howns
      dsimp only at hrow
      rw [← hkey, hfree] at hrow
      cases hrow
    · obtain ⟨hstarted, hreturn⟩ := h.returns r hr
      exact ⟨Nat.lt_succ_of_lt hstarted, hreturn.later hstarted⟩
  rw [finish_invalidated]
  exact hreturned.idle

end Finish

section Steps

/-- What is live in the store is later than the invalidations that have returned. -/
theorem returnable_live (h : Inv s n now) {entry : Entry T}
    (hlive : liveValue now (s.entries key) = some entry)
    (started : Nat) : Returnable s.invalidations key started entry.origin := by
  rintro i hi rfl -
  cases hcell : s.entries i.key with
  | none =>
      rw [hcell] at hlive
      cases hlive
  | some row =>
      rw [hcell, liveValue_some] at hlive
      split at hlive
      · rename_i hrow
        rw [← Option.some.inj hlive]
        exact (h.entries i hi row hcell).resolve_right (not_expired hrow)
      · cases hlive

theorem inv_get (h : Inv s n now) : Inv (get s p now).1 (n + 1) now := by
  have hknows := h.processes p
  rw [CacheModel.get]
  split
  · rename_i started hphase
    rw [hphase] at hknows
    split
    · exact h.enter (Nat.lt_succ_of_lt hknows) fun _ => owner_idle trivial nofun
    · rename_i entry hlive
      exact h.enter ⟨Nat.lt_succ_of_lt hknows, returnable_live h hlive started⟩ fun _ =>
        owner_idle trivial nofun
  · rename_i started hphase
    rw [hphase] at hknows
    refine h.enter ⟨Nat.lt_succ_of_lt hknows, fun e he => returnable_live h he started⟩ fun _ =>
      owner_idle trivial nofun
  · exact h.next

theorem inv_readEpoch (h : Inv s n now) (hn : n = s.steps) (moment : Int) :
    Inv (readEpoch s p moment).1 (n + 1) now := by
  have hknows := h.processes p
  rw [readEpoch]
  split
  · rename_i started entry hphase
    rw [hphase] at hknows
    split
    · exact h.enter (Nat.lt_succ_of_lt hknows.1) fun _ => owner_idle trivial nofun
    · exact h.fetched hknows.1 hknows.2
  · rename_i started entry hphase
    rw [hphase] at hknows
    split
    · exact h.enter ⟨Nat.lt_succ_of_lt hknows.1, hknows.2 entry rfl⟩ fun _ => owner_idle trivial nofun
    · exact h.enter (Nat.lt_succ_of_lt hknows.1) fun _ => owner_idle trivial nofun
  · rename_i started hphase
    rw [hphase] at hknows
    exact h.enter (Nat.lt_succ_of_lt hknows.1) fun _ => owner_idle trivial nofun
  · refine h.enter (by rintro started ⟨⟩) fun _ => owner_idle (fun i hi _ => ?_) nofun
    rw [← hn]
    exact h.past i hi
  · exact h.next

/-- A claim takes a token that nobody has. -/
theorem inv_claimed (h : Inv s n now) {goal : Goal T}
    (hphase : (s.processes p).phase = .claiming goal) (claim : Claim)
    {row : LeaseRow} (hkey : claim.key = (s.processes p).key)
    (htoken : row.fencingToken = claim.fencingToken)
    (above : AboveCounter s.leases (s.processes p).key claim.fencingToken) :
    Inv ({ s with
      leases := (s.leases.putCounter (s.processes p).key claim.fencingToken).putLease
        (s.processes p).key row }.put p
      ⟨(s.processes p).key, .locked goal, some claim, false⟩) (n + 1) now := by
  have hnew := counter_lt_of_above above
  have hcounter : ∀ key, counter key s.leases ≤
      counter key ((s.leases.putCounter (s.processes p).key claim.fencingToken).putLease
        (s.processes p).key row) := by
    intro key
    rw [counter_putLease]
    exact counter_le_putCounter above key
  have hself : counter (s.processes p).key
      ((s.leases.putCounter (s.processes p).key claim.fencingToken).putLease (s.processes p).key row) =
        claim.fencingToken.value := by
    rw [counter_putLease, counter_putCounter_self]
  have hrows : ∀ key row', ((s.leases.putCounter (s.processes p).key claim.fencingToken).putLease
      (s.processes p).key row).leases key = some row' → key = (s.processes p).key ∧ row' = row ∨
        key ≠ (s.processes p).key ∧ s.leases.leases key = some row' := by
    intro key row' hrow'
    rw [Tables.putLease] at hrow'
    dsimp only at hrow'
    by_cases hk : key = (s.processes p).key
    · rw [hk, update_self] at hrow'
      exact .inl ⟨hk, (Option.some.inj hrow').symm⟩
    · rw [update_of_ne hk] at hrow'
      exact .inr ⟨hk, hrow'⟩
  have hknows := h.processes p
  rw [hphase] at hknows
  have hlocked : Knows s.invalidations (s.processes p).key n (.locked goal) := by
    cases goal with
    | fetch started => exact hknows
    | set value => trivial
    | invalidate => trivial
  have hnext := h.next
  refine ⟨⟨fun key row' hrow' => ?_, fun q c hc => ?_, fun q r c d hne hc hd hqr => ?_⟩,
    hnext.past, hnext.entries,
    fun q => ?_, fun q howns => ?_, hnext.returns⟩
  · rcases hrows key row' hrow' with ⟨rfl, rfl⟩ | ⟨-, hold⟩
    · rw [htoken]
      exact hself.ge
    · exact (h.claims.fenced key row' hold).trans (hcounter key)
  · by_cases hq : q = p
    · rw [hq, put_self] at hc ⊢
      rw [← Option.some.inj hc]
      exact ⟨hkey, hself.ge⟩
    · rw [put_other _ hq] at hc ⊢
      obtain ⟨hqkey, hbound⟩ := h.claims.bound q c hc
      exact ⟨hqkey, hbound.trans (hcounter _)⟩
  · have hother : ∀ q c, q ≠ p → (s.processes q).currentClaim = some c →
      (s.processes q).key = (s.processes p).key →
        c.fencingToken ≠ claim.fencingToken := by
      intro q c hq hc hqp heq
      have hbound := (h.claims.bound q c hc).2
      rw [hqp, heq] at hbound
      omega
    by_cases hq : q = p
    · have hr : r ≠ p := fun heq => hne (hq.trans heq.symm)
      rw [hq, put_self] at hc hqr
      rw [put_other _ hr] at hd hqr
      rw [← Option.some.inj hc]
      exact (hother r d hr hd hqr.symm).symm
    · rw [put_other _ hq] at hc hqr
      by_cases hr : r = p
      · rw [hr, put_self] at hd hqr
        rw [← Option.some.inj hd]
        exact hother q c hq hc hqr
      · rw [put_other _ hr] at hd hqr
        exact h.claims.distinct q r c d hne hc hd hqr
  · by_cases hq : q = p
    · rw [hq, put_self]
      exact hlocked.next
    · rw [put_other _ hq]
      exact hnext.processes q
  · by_cases hq : q = p
    · rw [hq, put_self]
      exact owner_idle trivial (by rintro ⟨⟩)
    · rw [put_other _ hq] at howns ⊢
      obtain ⟨c, row', hc, hrow', hsame⟩ := ownsLease_iff.1 howns
      rcases hrows _ row' hrow' with ⟨hk, rfl⟩ | ⟨-, hold⟩
      · have hbound := (h.claims.bound q c hc).2
        rw [hk, ← hsame, htoken] at hbound
        omega
      · exact h.owners q (ownsLease_iff.2 ⟨c, row', hc, hold, hsame⟩)

theorem inv_claim (h : Inv s n now) {claimDuration : ClaimDuration}
    (rowVisible : Bool) (holderId : HolderId)
    (leaseToken : Token) :
    Inv (claim claimDuration s p now rowVisible holderId leaseToken).1 (n + 1) now := by
  rw [claim]
  split
  · rename_i goal hphase
    rcases tryClaimLease_cases now rowVisible (s.processes p).key
      holderId leaseToken claimDuration s.leases with
      ⟨r, hr, heq⟩ | ⟨token, above, heq | ⟨-, expiresAt, heq⟩⟩
    · rw [heq]
      dsimp only
      split
      · exact h.fail
      · exact h.next
      · exact absurd rfl (hr _)
    · rw [heq]
      exact (h.kept (tokensKept_putCounter above)).next
    · rw [heq]
      exact inv_claimed h hphase ⟨_, holderId, token, leaseToken, expiresAt⟩ rfl rfl above
  · exact h.next

theorem claimKept_renewed {presented renewed : Claim} (hclaim : process.currentClaim = some presented)
    (htoken : renewed.fencingToken = presented.fencingToken) (hkey : renewed.key = presented.key) :
    ClaimKept process { process with currentClaim := some renewed } := by
  intro c hc
  obtain rfl := Option.some.inj hc
  exact ⟨rfl, presented, hclaim, htoken, hkey⟩

theorem inv_renew (h : Inv s n now) {claimDuration : ClaimDuration} (nextLeaseToken : Token) :
    Inv (renew claimDuration s p now nextLeaseToken).1 (n + 1) now := by
  rw [renew]
  split
  · exact h.next
  · rename_i presented hclaim
    rcases tryRenewLease_cases now presented nextLeaseToken claimDuration s.leases with
      ⟨r, hr, heq⟩ | ⟨row, hrow, hauth, expiresAt, heq⟩
    · rw [heq]
      dsimp only
      split
      · exact h.next
      · exact h.next.put nofun (h.next.processes p) fun howns => by
          rw [ownsLease] at howns
          cases howns
      · exact absurd rfl (hr _)
    · rw [heq]
      have hkept := tokensKept_renewed hrow (show
        ({ row with
          leaseToken := nextLeaseToken, expiresAt := expiresAt } : LeaseRow).fencingToken = row.fencingToken from rfl)
      have hclaimKept := claimKept_renewed hclaim
        (show (Claim.mk presented.key row.holderId row.fencingToken
          nextLeaseToken expiresAt).fencingToken = _ from hauth.2.1) rfl
      refine (h.kept hkept).next.put hclaimKept (h.next.processes p) fun howns => ?_
      obtain ⟨hlater, hdeleted⟩ := h.owners p (hclaimKept.owns (hkept.owns howns)).1
      exact ⟨hlater, hdeleted⟩

theorem inv_computed (h : Inv s n now) (value : T) : Inv (computed s p value).1 (n + 1) now := by
  have hknows := h.processes p
  rw [computed]
  split
  · rename_i started epoch origin hphase
    rw [hphase] at hknows
    split
    · exact h.enter trivial fun _ => owner_idle trivial nofun
    · refine h.enter (fun started' hgoal => ?_) fun howns => owner_idle ?_ nofun
      · obtain rfl := Goal.fetch.inj hgoal
        exact ⟨Nat.lt_succ_of_lt hknows.1, hknows.2⟩
      · have hlater := (h.owners p howns).later
        rw [hphase] at hlater
        exact hlater
  · exact h.next

theorem inv_compute (h : Inv s n now) (hn : n = s.steps) {started epochRead : Nat} {epoch : Int}
    (hphase : (s.processes p).phase = .missed started epoch epochRead) :
    Inv (s.enter p (.computing started epoch ⟨epochRead, s.steps⟩)).1 (n + 1) now := by
  have hknows : started < n := by
    have hknows := h.processes p
    rw [hphase] at hknows
    exact hknows
  refine h.enter ⟨Nat.lt_succ_of_lt hknows, hn ▸ hknows.le⟩ fun _ => owner_idle (fun i hi _ => ?_) nofun
  rw [← hn]
  exact h.past i hi

/-- A key's value is written. -/
theorem Inv.placed (h : Inv s n now) {cell : Option (Row (Entry T))}
    (hcell : ∀ i ∈ s.invalidations, i.key = key → ∀ row,
      cell = some row → i.returnedAt < row.value.origin.begun)
    (howner : ∀ q, ownsLease s.leases (s.processes q) →
      (s.processes q).phase = .releasing .invalidated →
      (s.processes q).key = key → cell = none) :
    Inv { s with entries := update s.entries key cell } n now := by
  refine ⟨h.claims, h.past, fun i hi row hrow => ?_, h.processes, fun q howns => ?_, h.returns⟩
  · dsimp only at hrow
    by_cases hk : i.key = key
    · rw [hk, update_self] at hrow
      exact .inl (hcell i hi hk row hrow)
    · rw [update_of_ne hk] at hrow
      exact h.entries i hi row hrow
  · obtain ⟨hlater, hdeleted⟩ := h.owners q howns
    refine ⟨hlater, fun hphase row hrow => ?_⟩
    dsimp only at hrow
    by_cases hk : (s.processes q).key = key
    · rw [hk, update_self, howner q howns hphase hk] at hrow
      cases hrow
    · rw [update_of_ne hk] at hrow
      exact hdeleted hphase row hrow

/-- A lease row has one owner. -/
theorem Claims.unique (h : Claims s.leases s.processes)
    {q : Nat} (hp : ownsLease s.leases (s.processes p))
    (hq : ownsLease s.leases (s.processes q)) (hkey : (s.processes q).key = (s.processes p).key) :
    q = p := by
  obtain ⟨c, row, hc, hrow, htoken⟩ := ownsLease_iff.1 hp
  obtain ⟨d, row', hd, hrow', htoken'⟩ := ownsLease_iff.1 hq
  rw [hkey, hrow] at hrow'
  obtain rfl := Option.some.inj hrow'
  by_contra hne
  exact h.distinct q p d c hne hd hc hkey (htoken'.symm.trans htoken)

/-- A store under the lease is of a computation that began after every invalidation. -/
theorem inv_store (h : Inv s n now) {valueTtl : Ttl}
    (howns : ∀ goal entry,
      (s.processes p).phase = .storing goal entry → ownsLease s.leases (s.processes p)) :
    Inv (store valueTtl s p now).1 (n + 1) now := by
  have hknows := h.processes p
  rw [store]
  split
  · rename_i goal entry hphase
    have hown := howns goal entry hphase
    have hlater := (h.owners p hown).later
    rw [hphase] at hknows hlater
    have houtcome : ∀ row,
      Knows s.invalidations (s.processes p).key (n +
      1) (.releasing (storedOutcome goal entry row)) := by
      intro row
      cases goal with
      | fetch started =>
          obtain ⟨hlt, hle⟩ := hknows started rfl
          exact ⟨Nat.lt_succ_of_lt hlt, fun i _ _ hi => hi.trans_le hle⟩
      | set value => cases row <;> trivial
      | invalidate => cases row <;> trivial
    have hother : ∀ row, storedOutcome goal entry row ≠ .invalidated := by
      intro row heq
      cases goal <;> cases row <;> cases heq
    split
    · exact h.enter (houtcome _) fun _ => owner_idle trivial fun heq =>
        hother _ (Phase.releasing.inj heq)
    · rename_i row hrow
      have hplaced : Inv
        { s with entries := update s.entries (s.processes p).key (some row) } n now := by
        refine h.placed (fun i hi hkey row' hrow' => ?_) fun q hq hreleasing hkey => ?_
        · rw [← Option.some.inj hrow', setValueAndTtl_value hrow]
          exact hlater i hi hkey
        · rw [h.claims.unique hown hq hkey, hphase] at hreleasing
          cases hreleasing
      exact hplaced.enter (houtcome _) fun _ =>
        owner_idle trivial fun heq => hother _ (Phase.releasing.inj heq)
  · exact h.next

theorem inv_delete (h : Inv s n now) : Inv (delete s p now).1 (n + 1) now := by
  rw [delete]
  split
  · split
    · have hplaced : Inv { s with entries := update s.entries (s.processes p).key none } n now :=
        h.placed (fun _ _ _ row hrow => by cases hrow) fun _ _ _ _ => rfl
      refine hplaced.enter trivial fun _ => ⟨trivial, fun _ row hrow => ?_⟩
      dsimp only at hrow
      rw [update_self] at hrow
      cases hrow
    · rename_i hlive
      refine h.enter trivial fun _ => ⟨trivial, fun _ row hrow => expired_of_not_live ?_⟩
      dsimp only at hrow
      rw [hrow, liveValue_some] at hlive
      cases hrowLive : row.isLive now with
      | false => rfl
      | true =>
          rw [hrowLive] at hlive
          exact absurd rfl hlive
  · exact h.next

/-- A release that finds the claim's row ends the call, and the row. -/
theorem inv_release (h : Inv s n now) (hn : n = s.steps) : Inv (release s p now).1 (n + 1) now := by
  have hknows := h.processes p
  rw [release]
  split
  · rename_i outcome hphase
    rw [hphase] at hknows
    have hlost : ∃ e, release.lost outcome = .failed e := by
      cases outcome <;> exact ⟨_, rfl⟩
    obtain ⟨e, he⟩ := hlost
    split
    · rw [he]
      exact h.fail
    · rename_i presented hclaim
      rw [releaseLease_eq]
      cases hauth : authorisedRow now presented s.leases with
      | none =>
          rw [if_neg (by decide)]
          dsimp only
          rw [if_neg (by decide), he]
          exact h.fail
      | some row =>
          rw [Option.isSome_some, if_pos rfl]
          dsimp only
          rw [if_pos rfl]
          have hkept := h.kept (tokensKept_deleted s.leases presented.key)
          obtain ⟨hrow, -, htoken, -⟩ := authorisedRow_eq_some.1 hauth
          have hkey := (h.claims.bound p presented hclaim).1
          cases outcome with
          | fetched started entry => exact hkept.fetched hknows.1 hknows.2
          | stored => exact hkept.done
          | failed e => exact hkept.fail
          | invalidated =>
              rw [hkey] at hrow
              have howner := h.owners p (ownsLease_iff.2 ⟨presented, row, hclaim, hrow, htoken⟩)
              refine hkept.invalidated hn ?_ (howner.deleted hphase)
              rw [← hkey]
              exact update_self ..
  · exact h.next

theorem inv_fail (h : Inv s n now) : Inv (fail s p).1 (n + 1) now := by
  rw [CacheModel.fail]
  split
  · exact h.next
  · exact h.fail
  · exact h.fail
  · exact h.fail
  · exact h.enter trivial fun _ => owner_idle trivial nofun

theorem inv_begin (h : Inv s n now) (hn : n = s.steps) (key : Key) (request : Request T) :
    Inv (s.put p ⟨key, match request with
      | .fetch => .lookup s.steps
      | .set value => .claiming (.set value)
      | .invalidate => .claiming .invalidate, none, false⟩) (n + 1) now := by
  refine h.next.put nofun ?_ fun howns => by cases howns
  cases request with
  | fetch => exact hn ▸ Nat.lt_succ_self n
  | set value => trivial
  | invalidate => trivial

theorem inv_loseLeadership (h : Inv s n now) :
    Inv (s.put p { s.processes p with leadershipLost := true }) (n + 1) now := by
  refine h.next.put (fun c hc => ⟨rfl, c, hc, rfl, rfl⟩) (h.next.processes p) fun howns => ?_
  obtain ⟨hlater, hdeleted⟩ := h.owners p howns
  exact ⟨hlater, hdeleted⟩

theorem inv_invalidateAll (h : Inv s n now) {moment : Int} {delay : Nat} :
    Inv (invalidateAll s moment delay).1 (n + 1) now := by
  rw [invalidateAll]
  split
  · exact h.next
  · have hnext := h.next
    exact ⟨hnext.claims, hnext.past, hnext.entries, hnext.processes, hnext.owners, hnext.returns⟩

theorem inv_act (h : Inv s n now) (hn : n = s.steps) (valueTtl : Ttl)
    (claimDuration : ClaimDuration) {input : Input T}
    (hnow : ∀ moment, input.now = some moment → moment = now) (horderly : orderly input s) :
    Inv (act valueTtl claimDuration s input).1 (n + 1) now := by
  rw [act.eq_def]
  cases input with
  | begin p key request =>
      dsimp only
      split
      · exact inv_begin h hn key request
      · exact h.next
  | get p moment =>
      obtain rfl := hnow moment rfl
      exact inv_get h
  | readEpoch p moment => exact inv_readEpoch h hn moment
  | claim p moment rowVisible holderId leaseToken =>
      obtain rfl := hnow moment rfl
      exact inv_claim h rowVisible holderId leaseToken
  | renew p moment nextLeaseToken =>
      obtain rfl := hnow moment rfl
      exact inv_renew h nextLeaseToken
  | loseLeadership p => exact inv_loseLeadership h
  | compute p =>
      dsimp only
      split
      · rename_i hphase
        exact inv_compute h hn hphase
      · exact h.next
  | computed p value => exact inv_computed h value
  | store p moment =>
      obtain rfl := hnow moment rfl
      refine inv_store h fun goal entry hphase => ?_
      rw [orderly, Bool.and_eq_true] at horderly
      have hown := horderly.2
      rw [hphase] at hown
      exact hown
  | delete p moment =>
      obtain rfl := hnow moment rfl
      exact inv_delete h
  | release p moment =>
      obtain rfl := hnow moment rfl
      exact inv_release h hn
  | fail p => exact inv_fail h
  | invalidateAll moment delay => exact inv_invalidateAll h

end Steps

theorem inv_step (valueTtl : Ttl) (claimDuration : ClaimDuration)
    (input : Input T) (s : System T) (horderly : orderly input s)
    (h : Inv s s.steps s.latest) :
    Inv (step valueTtl claimDuration input s).1 (step valueTtl claimDuration input s).1.steps
      (step valueTtl claimDuration input s).1.latest := by
  have hlatest : s.latest ≤ input.now.elim s.latest (max s.latest) := by
    cases input.now with
    | none => exact le_rfl
    | some now => exact le_max_left ..
  have hnow : ∀ moment, input.now = some moment → moment = input.now.elim s.latest (max s.latest) := by
    intro moment hmoment
    have hclock := (Bool.and_eq_true _ _ ▸ horderly : _ ∧ _).1
    rw [hmoment] at hclock ⊢
    exact (max_eq_right (of_decide_eq_true hclock)).symm
  have hact := inv_act (h.later hlatest) rfl valueTtl claimDuration hnow horderly
  exact ⟨hact.claims, hact.past, hact.entries, hact.processes, hact.owners, hact.returns⟩

theorem inv_start (key : Key) (now : Int) : Inv (System.start key now : System T) 0 now :=
  ⟨⟨fun _ _ h => (by cases h), fun _ _ h => (by cases h), fun _ _ _ _ _ h => (by cases h)⟩,
    fun _ hi => absurd hi List.not_mem_nil, fun _ hi => absurd hi List.not_mem_nil, fun _ => trivial,
    fun _ howns => (by cases howns), fun _ hr => absurd hr List.not_mem_nil⟩

/-- In every run in which a store is made while the lease row is still that of the process
which stores, and the clock does not go back: what a fetch returns was computed from after
every invalidation of its key that had returned when the fetch began. -/
theorem invalidation_holds (valueTtl : Ttl) (claimDuration : ClaimDuration) (key : Key) (now : Int)
    (inputs : List (Input T))
    (horderly : Meets (fun input s => orderly input s)
      (step valueTtl claimDuration) inputs (System.start key now)) :
    let s := exec (step valueTtl claimDuration) inputs (System.start key now)
    ∀ r ∈ s.returns, ∀ i ∈ s.invalidations, i.key = r.key →
      i.returnedAt < r.started → i.returnedAt < r.origin.begun := by
  intro s r hr
  have h : Inv s s.steps s.latest := exec_preserves
    (fun input s => inv_step valueTtl claimDuration input s) horderly (inv_start key now)
  exact (h.returns r hr).2

/-- A leader computes a value, and is about to store it. -/
def leaderComputes : List (Input String) :=
  [.begin 0 jobKey .fetch, .get 0 0, .claim 0 0 true holderA (tokenOf 1),
    .get 0 0, .readEpoch 0 0, .compute 0,
    .computed 0 "old"]

/-- An invalidation, by another process, from the claim of the mutex to its release. -/
def invalidates : List (Input String) :=
  [.begin 1 jobKey .invalidate, .claim 1 31000000 true holderB (tokenOf 2),
    .delete 1 31000000, .release 1 31000000]

def laterFetch : List (Input String) := [.begin 2 jobKey .fetch, .get 2 31000001, .readEpoch 2 31000001]

/-- The leader's lease expires and is taken over by an invalidation. Its store comes after
that, and the next fetch has the value. -/
theorem late_store_undoes_invalidation :
    let s := exec (step .noExpiration defaultCoalescingCacheMutexClaimDuration)
      (leaderComputes ++ invalidates ++ [.store 0 31000001] ++ laterFetch)
      (System.start jobKey 0)
    ∃ r ∈ s.returns, ∃ i ∈ s.invalidations, i.key = r.key ∧
      i.returnedAt < r.started ∧ r.origin.begun < i.returnedAt := by
  decide +kernel

/-- A leader that stores in time, an invalidation, and a fetch that computes the value anew. -/
def invalidatedInTime : List (Input String) :=
  leaderComputes ++ [.store 0 0, .release 0 0] ++ invalidates ++
    [.begin 2 jobKey .fetch, .get 2 31000001, .claim 2 31000001 true holderA (tokenOf 3), .get 2 31000001,
      .readEpoch 2 31000001, .compute 2, .computed 2 "new", .store 2 31000001, .release 2 31000001]

theorem invalidation_holds_in_time :
    let s := exec (step .noExpiration defaultCoalescingCacheMutexClaimDuration) invalidatedInTime
      (System.start jobKey 0)
    ∀ r ∈ s.returns, ∀ i ∈ s.invalidations, i.key = r.key →
      i.returnedAt < r.started → i.returnedAt < r.origin.begun :=
  invalidation_holds .noExpiration defaultCoalescingCacheMutexClaimDuration jobKey 0 invalidatedInTime
    (by decide +kernel)

end Paranoid.CacheInvalidation
