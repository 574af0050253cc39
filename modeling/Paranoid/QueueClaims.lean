import Mathlib.Data.List.Perm.Subperm
import Paranoid.QueueFrames
import Paranoid.Transitions

namespace Paranoid.QueueClaims

open List QueueModel QueueStatements QueueOperations QueueEffects QueueChanges QueueRows
open QueueFrames Transitions

variable {π : Type}

/-- A candidate that a claim did not lock, with what the claim met there: a lock of
another transaction, or the newest version of the row. -/
structure Passed (π : Type) where
  row : JobRow π
  lockedElsewhere : Bool
  newest : Option (JobRow π)

/-- A claim statement under way. It has read its snapshot and locks its candidates one
by one; `reply` is absent until its transaction has ended. -/
structure Claim (π : Type) where
  now : Int
  snapshot : Tables π
  taskNames : List TaskName
  claimLimit : Nat
  workerId : WorkerOwnerId
  remaining : List (JobRow π)
  locked : List (JobRow π)
  passed : List (Passed π)
  reply : Option (List (JobRow π))

/-- The predicate of the claim: the time and the pauses are those of its snapshot. -/
def Claim.eligible (c : Claim π) : JobRow π → Bool :=
  claimable ⟨c.now, c.snapshot, fun _ => false, fun _ => false⟩ c.taskNames

/-- The candidates of a snapshot in the order in which they are locked. -/
def inClaimOrder (t : Tables π) : List (JobRow π) :=
  t.jobs.insertionSort (fun a b => claimOrder a ≤ claimOrder b)

def Claim.candidates (c : Claim π) : List (JobRow π) := (inClaimOrder c.snapshot).filter c.eligible

def Claim.start (now : Int) (taskNames : List TaskName) (claimLimit : Nat) (workerId : WorkerOwnerId)
    (t : Tables π) : Claim π :=
  let c : Claim π :=
    { now, snapshot := t, taskNames, claimLimit, workerId
      remaining := [], locked := [], passed := [], reply := none }
  { c with remaining := c.candidates }

/-- The claim holds the row of the job locked. -/
def Claim.holds (c : Claim π) (id : JobId) : Bool := c.reply.isNone && id ∈ jobIds c.locked

/-- The tables, and every claim begun so far. -/
structure System (π : Type) where
  tables : Tables π
  claims : List (Claim π)

def System.empty : System π := ⟨Tables.empty, []⟩

def System.held (s : System π) (id : JobId) : Bool := s.claims.any (·.holds id)

/-- The next candidate: a locked row is skipped, and the predicate is checked again on
the newest version. -/
def Claim.lockNext (c : Claim π) (s : System π) (lockedElsewhere : Bool) : Claim π :=
  match c.remaining with
  | [] => c
  | row :: remaining =>
      let passed := ⟨row, lockedElsewhere || s.held row.id, s.tables.job? row.id⟩
      if passed.lockedElsewhere || !passed.newest.any c.eligible then
        { c with remaining, passed := c.passed ++ [passed] }
      else { c with remaining, locked := c.locked ++ passed.newest.toList }

/-- Every candidate was tried, or the limit is reached. -/
def Claim.full (c : Claim π) : Bool := c.remaining.isEmpty || c.claimLimit ≤ c.locked.length

/-- The update of the locked rows, and the commit. -/
def Claim.finish (c : Claim π) (t : Tables π) : Except StatementError (List (JobRow π) × Tables π) := do
  let updated ← updateJobs t (jobIds c.locked) fun row => .ok (claimedBy c.now c.workerId row)
  return (updated.jobs.filter (·.id ∈ jobIds c.locked), updated)

/-- Another transaction's statement is atomic and meets the locks of the claims. -/
inductive Input (π : Type)
  | beginClaim (now : Int) (taskNames : List TaskName) (claimLimit : Nat) (workerId : WorkerOwnerId)
  | lockNext (claim : Nat) (lockedElsewhere : Bool)
  | finishClaim (claim : Nat)
  | abortClaim (claim : Nat)
  | other (moment : Moment π) (statement : Statement π)

/-- The output is what a claim returns when it ends. A claim that fails or is cancelled
returns nothing and gives its locks up. -/
def step (i : Input π) (s : System π) : System π × List (JobRow π) :=
  match i with
  | .beginClaim now taskNames claimLimit workerId =>
      ({ s with claims := s.claims ++ [Claim.start now taskNames claimLimit workerId s.tables] }, [])
  | .lockNext k lockedElsewhere =>
      match s.claims[k]? with
      | none => (s, [])
      | some c =>
          if c.reply.isNone && c.locked.length < c.claimLimit then
            ({ s with claims := s.claims.set k (c.lockNext s lockedElsewhere) }, [])
          else (s, [])
  | .finishClaim k =>
      match s.claims[k]? with
      | none => (s, [])
      | some c =>
          if c.reply.isNone && c.full then
            match c.finish s.tables with
            | .error _ => ({ s with claims := s.claims.set k { c with reply := some [] } }, [])
            | .ok (jobs, tables) =>
                ({ tables, claims := s.claims.set k { c with reply := some jobs } }, jobs)
          else (s, [])
  | .abortClaim k =>
      match s.claims[k]? with
      | none => (s, [])
      | some c =>
          if c.reply.isNone then ({ s with claims := s.claims.set k { c with reply := some [] } }, [])
          else (s, [])
  | .other m statement =>
      if isClaim statement then (s, [])
      else
        match run { m with lockedJobs := fun id => m.lockedJobs id || s.held id } statement s.tables with
        | .error _ => (s, [])
        | .ok tables => ({ s with tables }, [])

section Claims

variable {c : Claim π} {s : System π} {t t' : Tables π} {jobs : List (JobRow π)}

/-- The candidate was out of reach when the claim came to it. -/
def Passed.Excused (c : Claim π) (p : Passed π) : Prop := p.lockedElsewhere ∨ ¬p.newest.any c.eligible

/-- The candidates that a claim has tried are the first ones: each is locked, or was
out of reach. -/
structure Claim.Progress (c : Claim π) (tried : List (JobRow π)) : Prop where
  split : c.candidates = tried ++ c.remaining
  limit : c.locked.length ≤ c.claimLimit
  decided : ∀ row ∈ tried, row.id ∈ jobIds c.locked ∨ ∃ p ∈ c.passed, p.row = row ∧ p.Excused c
  locked : ∀ row ∈ c.locked, c.eligible row ∧ row.id ∈ jobIds tried

theorem eligible_pending {row : JobRow π} (h : c.eligible row) : row.status = .pending := by
  simp only [Claim.eligible, claimable, Bool.and_eq_true, decide_eq_true_eq] at h
  exact h.1.1.1.1

theorem eligible_unpaused {row : JobRow π} (h : c.eligible row) :
    globalPauseKey ∉ c.snapshot.pauses ∧ pausedTaskKey row.taskName ∉ c.snapshot.pauses := by
  simp only [Claim.eligible, claimable, Bool.and_eq_true, decide_eq_true_eq] at h
  exact ⟨h.1.2, h.2⟩

theorem candidates_mem {row : JobRow π} :
    row ∈ c.candidates ↔ row ∈ c.snapshot.jobs ∧ c.eligible row := by
  simp [Claim.candidates, inClaimOrder]

theorem progress_start (now : Int) (taskNames : List TaskName)
    (claimLimit : Nat) (workerId : WorkerOwnerId)
    (t : Tables π) : (Claim.start now taskNames claimLimit workerId t).Progress [] :=
  ⟨rfl, Nat.zero_le _, fun _ h => absurd h not_mem_nil, fun _ h => absurd h not_mem_nil⟩

/-- What trying a candidate does. -/
inductive Tries (c : Claim π) (s : System π) : Claim π → Prop
  | done : Tries c s c
  | passed (row : JobRow π) (remaining : List (JobRow π)) (p : Passed π) (next : c.remaining = row :: remaining)
      (hrow : p.row = row) (excused : p.Excused c) :
      Tries c s { c with remaining, passed := c.passed ++ [p] }
  | locked (row newest : JobRow π) (remaining : List (JobRow π)) (next : c.remaining = row :: remaining)
      (current : s.tables.job? row.id = some newest) (free : s.held row.id = false)
      (eligible : c.eligible newest) :
      Tries c s { c with remaining, locked := c.locked ++ [newest] }

theorem lockNext_tries (c : Claim π) (s : System π) (lockedElsewhere : Bool) :
    Tries c s (c.lockNext s lockedElsewhere) := by
  dsimp only [Claim.lockNext]
  split
  · exact .done
  · rename_i row remaining hnext
    split
    · rename_i hpassed
      refine .passed row remaining _ hnext rfl ?_
      simpa [Passed.Excused] using hpassed
    · rename_i hlocked
      simp only [Bool.or_eq_true, Bool.not_eq_true', not_or,
        Bool.not_eq_true, Bool.not_eq_false] at hlocked
      obtain ⟨newest, hnewest, heligible⟩ := (Option.any_eq_true _ _).1 hlocked.2
      rw [hnewest, Option.toList_some]
      exact .locked row newest remaining hnext hnewest hlocked.1.2 heligible

theorem progress_tries {c' : Claim π} {tried : List (JobRow π)} (htries : Tries c s c')
    (hroom : c.locked.length < c.claimLimit) (h : c.Progress tried) : ∃ tried', c'.Progress tried' := by
  cases htries with
  | done => exact ⟨tried, h⟩
  | passed row remaining p hnext hrow hexcused =>
      refine ⟨tried ++ [row], ?_, h.limit, fun other hother => ?_, fun other hother => ?_⟩
      · rw [append_assoc, singleton_append, ← hnext]
        exact h.split
      · rcases mem_append.1 hother with hold | hnew
        · rcases h.decided other hold with hlocked | ⟨q, hq, hqrow, hqexcused⟩
          · exact .inl hlocked
          · exact .inr ⟨q, mem_append_left _ hq, hqrow, hqexcused⟩
        · obtain rfl := mem_singleton.1 hnew
          exact .inr ⟨p, mem_append_right _ (mem_singleton_self p), hrow, hexcused⟩
      · obtain ⟨heligible, htried⟩ := h.locked other hother
        exact ⟨heligible, by rw [jobIds, map_append]; exact mem_append_left _ htried⟩
  | locked row newest remaining hnext hcurrent hfree heligible =>
      have hid : newest.id = row.id := (Tables.job?_eq_some.1 hcurrent).2
      refine ⟨tried ++ [row], ?_, ?_, fun other hother => ?_, fun other hother => ?_⟩
      · rw [append_assoc, singleton_append, ← hnext]
        exact h.split
      · rw [length_append, length_singleton]
        exact hroom
      · rw [jobIds, map_append]
        rcases mem_append.1 hother with hold | hnew
        · rcases h.decided other hold with hlocked | hpassed
          · exact .inl (mem_append_left _ hlocked)
          · exact .inr hpassed
        · obtain rfl := mem_singleton.1 hnew
          exact .inl (mem_append_right _ (by simp [hid]))
      · rw [jobIds, map_append]
        rcases mem_append.1 hother with hold | hnew
        · obtain ⟨hold, htried⟩ := h.locked other hold
          exact ⟨hold, mem_append_left _ htried⟩
        · obtain rfl := mem_singleton.1 hnew
          exact ⟨heligible, mem_append_right _ (by simp [hid])⟩

/-- What a claim returned: its locked rows as its update left them, or nothing where it
failed or was cancelled. -/
structure Claim.Returns (c : Claim π) (jobs : List (JobRow π)) : Prop where
  claimed : ∀ job ∈ jobs, ∃ row ∈ c.locked, job = claimedBy c.now c.workerId row
  complete : jobs = [] ∨ ∀ row ∈ c.locked, row.id ∈ jobIds jobs
  length_le : jobs.length ≤ c.locked.length

theorem returns_nothing (c : Claim π) : c.Returns [] :=
  ⟨fun _ h => absurd h not_mem_nil, .inl rfl, Nat.zero_le _⟩

/-- The claim's update, where its rows are as it locked them. -/
theorem finish_eq_ok (hlocked : ∀ row ∈ c.locked, t.job? row.id = some row)
    (h : c.finish t = .ok (jobs, t')) :
    c.Returns jobs ∧ (∀ job ∈ jobs, t'.job? job.id = some job) ∧
      (∀ id ∉ jobIds c.locked, t'.job? id = t.job? id) ∧ t'.pauses = t.pauses := by
  obtain ⟨updated, hupdated, hreply⟩ := Postgres.bind_eq_ok.1 h
  obtain ⟨rfl, rfl⟩ := Prod.mk.inj (Except.ok.inj hreply)
  obtain ⟨hjobs, -, hpauses⟩ := updateJobs_ok_eq_ok hupdated
  have hkept : ∀ row row' : JobRow π,
    (.ok (claimedBy c.now c.workerId row) : Except StatementError _) = .ok row' →
      row'.id = row.id := id_of_ok fun _ => rfl
  have hclaimed : ∀ job ∈ updated.jobs.filter (fun row => decide (row.id ∈ jobIds c.locked)),
      ∃ row ∈ c.locked, job = claimedBy c.now c.workerId row := by
    intro job hjob
    obtain ⟨hmem, hid⟩ := mem_filter.1 hjob
    rw [decide_eq_true_eq] at hid
    rw [hjobs] at hmem
    obtain ⟨row, hrow, rfl⟩ := mem_map.1 hmem
    by_cases hrowId : row.id ∈ jobIds c.locked
    · rw [if_pos hrowId]
      obtain ⟨other, hother, heq⟩ := mem_map.1 hrowId
      have hsame := (hlocked other hother).symm.trans (heq ▸ Tables.job?_of_mem hrow)
      exact ⟨row, Option.some.inj hsame ▸ hother, rfl⟩
    · rw [if_neg hrowId] at hid
      exact absurd hid hrowId
  refine ⟨⟨hclaimed, .inr fun row hrow => ?_, ?_⟩, fun job hjob => ?_, fun id hid => ?_, hpauses⟩
  · obtain ⟨row', hrow', hset⟩ := updateJobs_job? hkept hupdated (hlocked row hrow)
    obtain ⟨hmem, hid⟩ := Tables.job?_eq_some.1 hrow'
    refine mem_map.2 ⟨row', mem_filter.2 ⟨hmem, ?_⟩, hid⟩
    rw [hid, decide_eq_true_eq]
    exact mem_map_of_mem hrow
  · have hnodup : (jobIds (updated.jobs.filter fun row => decide (row.id ∈ jobIds c.locked))).Nodup :=
      (filter_sublist.map JobRow.id).nodup (updated.constraints .primaryKey)
    have hsub : jobIds (updated.jobs.filter fun row => decide (row.id ∈ jobIds c.locked)) ⊆
      jobIds c.locked := by
      intro id hid
      obtain ⟨job, hjob, rfl⟩ := mem_map.1 hid
      simpa using (mem_filter.1 hjob).2
    simpa [jobIds] using (subperm_of_subset hnodup hsub).length_le
  · exact Tables.job?_of_mem (mem_filter.1 hjob).1
  · exact updateJobs_job?_other hkept hupdated hid

end Claims

section Runs

variable {s : System π}

/-- Claims under way hold their rows as they locked them, each row for one claim. -/
structure Valid (s : System π) : Prop where
  progress : ∀ c ∈ s.claims, ∃ tried, c.Progress tried
  returns : ∀ c ∈ s.claims, ∀ jobs, c.reply = some jobs → c.Returns jobs
  current : ∀ c ∈ s.claims, c.reply = none → ∀ row ∈ c.locked, s.tables.job? row.id = some row
  exclusive : ∀ (j k : Nat) (c c' : Claim π) (id : JobId), s.claims[j]? = some c → s.claims[k]? = some c' →
    c.holds id → c'.holds id → j = k

theorem holds_iff {c : Claim π} {id : JobId} : c.holds id ↔ c.reply = none ∧ id ∈ jobIds c.locked := by
  simp [Claim.holds]

theorem not_held {id : JobId} (h : s.held id = false) {c : Claim π} (hc : c ∈ s.claims) :
    ¬c.holds id := by
  rw [System.held, any_eq_false] at h
  exact h c hc

theorem valid_begin (now : Int) (taskNames : List TaskName)
    (claimLimit : Nat) (workerId : WorkerOwnerId)
    (h : Valid s) : Valid (step (.beginClaim now taskNames claimLimit workerId) s).1 := by
  have hcases : ∀ c ∈ s.claims ++ [Claim.start now taskNames claimLimit workerId s.tables],
      c ∈ s.claims ∨ c = Claim.start now taskNames claimLimit workerId s.tables := by simp
  have hheld : ∀ (k : Nat) (c : Claim π) (id : JobId),
      (s.claims ++ [Claim.start now taskNames claimLimit workerId s.tables])[k]? = some c → c.holds id →
        s.claims[k]? = some c := by
    intro k c id hk hholds
    rcases lt_or_ge k s.claims.length with hold | hnew
    · rwa [getElem?_append_left hold] at hk
    · rw [getElem?_append_right hnew] at hk
      obtain rfl := mem_singleton.1 (mem_of_getElem? hk)
      exact absurd (holds_iff.1 hholds).2 not_mem_nil
  constructor
  · intro c hc
    rcases hcases c hc with hold | rfl
    · exact h.progress c hold
    · exact ⟨[], progress_start now taskNames claimLimit workerId s.tables⟩
  · intro c hc jobs hreply
    rcases hcases c hc with hold | rfl
    · exact h.returns c hold jobs hreply
    · cases hreply
  · intro c hc hopen row hrow
    rcases hcases c hc with hold | rfl
    · exact h.current c hold hopen row hrow
    · cases hrow
  · intro j k c c' id hj hk hholds hholds'
    exact h.exclusive j k c c' id (hheld j c id hj hholds) (hheld k c' id hk hholds') hholds hholds'

/-- A claim takes the place of its next state, and the tables keep the rows that the
other claims hold. -/
theorem valid_set {k : Nat} {c c' : Claim π} {tables : Tables π}
    (h : Valid s) (hc : s.claims[k]? = some c)
    (hprogress : ∃ tried, c'.Progress tried) (hreturns : ∀ jobs, c'.reply = some jobs → c'.Returns jobs)
    (hcurrent : c'.reply = none → ∀ row ∈ c'.locked, tables.job? row.id = some row)
    (hholds : ∀ id, c'.holds id → c.holds id ∨ s.held id = false)
    (hothers : ∀ id, ¬c.holds id → s.held id → tables.job? id = s.tables.job? id) :
    Valid ⟨tables, s.claims.set k c'⟩ := by
  have hmem := mem_of_getElem? hc
  constructor
  · intro d hd
    rcases mem_or_eq_of_mem_set hd with hold | rfl
    · exact h.progress d hold
    · exact hprogress
  · intro d hd
    rcases mem_or_eq_of_mem_set hd with hold | rfl
    · exact h.returns d hold
    · exact hreturns
  · intro d hd hopen row hrow
    obtain ⟨j, hj⟩ := mem_iff_getElem?.1 hd
    rcases getElem?_set_cases hc hj with ⟨-, rfl⟩ | ⟨hne, hold⟩
    · exact hcurrent hopen row hrow
    · have hdholds : d.holds row.id := holds_iff.2 ⟨hopen, mem_map_of_mem hrow⟩
      have hheld : s.held row.id := any_eq_true.2 ⟨d, mem_of_getElem? hold, hdholds⟩
      rw [hothers row.id
        (fun hcholds => hne (h.exclusive j k d c row.id hold hc hdholds hcholds)) hheld]
      exact h.current d (mem_of_getElem? hold) hopen row hrow
  · have hclash : ∀ (j : Nat) (d : Claim π) (id : JobId), s.claims[j]? = some d → d.holds id → c'.holds id →
        j = k := by
      intro j d id hj hd hc'
      rcases hholds id hc' with hcholds | hfree
      · exact h.exclusive j k d c id hj hc hd hcholds
      · exact absurd hd (not_held hfree (mem_of_getElem? hj))
    intro i j x y id hi hj hx hy
    rcases getElem?_set_cases hc hi with ⟨rfl, rfl⟩ | ⟨-, hxOld⟩ <;>
      rcases getElem?_set_cases hc hj with ⟨rfl, rfl⟩ | ⟨-, hyOld⟩
    · rfl
    · exact (hclash j y id hyOld hy hx).symm
    · exact hclash i x id hxOld hx hy
    · exact h.exclusive i j x y id hxOld hyOld hx hy

theorem valid_lockNext (k : Nat) (lockedElsewhere : Bool) (h : Valid s) :
    Valid (step (.lockNext k lockedElsewhere) s).1 := by
  dsimp only [step]
  split
  · exact h
  rename_i c hc
  split
  swap
  · exact h
  rename_i hready
  simp only [Bool.and_eq_true, decide_eq_true_eq, Option.isNone_iff_eq_none] at hready
  have hmem := mem_of_getElem? hc
  have htries := lockNext_tries c s lockedElsewhere
  obtain ⟨tried, htried⟩ := h.progress c hmem
  have hprogress := progress_tries htries hready.2 htried
  generalize c.lockNext s lockedElsewhere = c' at htries hprogress
  refine valid_set h hc hprogress ?_ ?_ ?_ fun _ _ _ => rfl
  · intro jobs hreply
    cases htries <;> exact absurd (hready.1.symm.trans hreply) nofun
  · intro hopen row hrow
    cases htries with
    | done | passed => exact h.current c hmem hopen row hrow
    | locked next newest remaining hnext hcurrent hfree heligible =>
        rcases mem_append.1 hrow with hold | hnew
        · exact h.current c hmem hopen row hold
        · obtain rfl := mem_singleton.1 hnew
          exact (Tables.job?_eq_some.1 hcurrent).2 ▸ hcurrent
  · intro id hholds
    rw [holds_iff] at hholds
    cases htries with
    | done | passed => exact .inl (holds_iff.2 hholds)
    | locked next newest remaining hnext hcurrent hfree heligible =>
        rw [jobIds, map_append] at hholds
        rcases mem_append.1 hholds.2 with hold | hnew
        · exact .inl (holds_iff.2 ⟨hready.1, hold⟩)
        · obtain rfl : id = newest.id := by simpa using hnew
          exact .inr ((Tables.job?_eq_some.1 hcurrent).2 ▸ hfree)

/-- A claim that ends without a row gives its locks up. -/
theorem valid_end {k : Nat} {c : Claim π} (h : Valid s) (hc : s.claims[k]? = some c) :
    Valid { s with claims := s.claims.set k { c with reply := some [] } } := by
  obtain ⟨tried, htried⟩ := h.progress c (mem_of_getElem? hc)
  refine valid_set h hc ⟨tried, htried.split, htried.limit, htried.decided, htried.locked⟩ ?_ ?_ ?_
    fun _ _ _ => rfl
  · intro jobs hreply
    obtain rfl := Option.some.inj hreply
    exact returns_nothing _
  · exact nofun
  · exact fun id hholds => absurd (holds_iff.1 hholds).1 nofun

theorem valid_finish (k : Nat) (h : Valid s) : Valid (step (.finishClaim k) s).1 := by
  dsimp only [step]
  split
  · exact h
  rename_i c hc
  split
  swap
  · exact h
  rename_i hready
  simp only [Bool.and_eq_true, Option.isNone_iff_eq_none] at hready
  split
  · exact valid_end h hc
  rename_i jobs tables hfinish
  have hmem := mem_of_getElem? hc
  obtain ⟨hreturns, -, hothers, -⟩ := finish_eq_ok (h.current c hmem hready.1) hfinish
  obtain ⟨tried, htried⟩ := h.progress c hmem
  refine valid_set h hc ⟨tried, htried.split, htried.limit, htried.decided, htried.locked⟩ ?_ ?_ ?_ ?_
  · intro returned hreply
    obtain rfl := Option.some.inj hreply
    exact ⟨hreturns.claimed, hreturns.complete, hreturns.length_le⟩
  · exact nofun
  · exact fun id hholds => absurd (holds_iff.1 hholds).1 nofun
  · exact fun id hnot _ => hothers id fun hid => hnot (holds_iff.2 ⟨hready.1, hid⟩)

theorem valid_step (i : Input π) (s : System π) (h : Valid s) : Valid (step i s).1 := by
  cases i with
  | beginClaim now taskNames claimLimit workerId =>
      exact valid_begin now taskNames claimLimit workerId h
  | lockNext k lockedElsewhere => exact valid_lockNext k lockedElsewhere h
  | finishClaim k => exact valid_finish k h
  | abortClaim k =>
      dsimp only [step]
      split
      · exact h
      · split
        · exact valid_end h ‹_›
        · exact h
  | other m statement =>
      dsimp only [step]
      split
      · exact h
      split
      · exact h
      rename_i tables hrun
      refine ⟨h.progress, h.returns, fun c hc hopen row hrow => ?_, h.exclusive⟩
      have hheld : s.held row.id := any_eq_true.2 ⟨c, hc, holds_iff.2 ⟨hopen, mem_map_of_mem hrow⟩⟩
      exact (run_frames statement).rows tables row.id row
        hrun (by simp [hheld]) (h.current c hc hopen row hrow)

theorem valid_run (inputs : List (Input π)) : Valid (exec step inputs System.empty) :=
  exec_invariant Valid valid_step inputs
    ⟨nofun, nofun, nofun, fun _ _ _ _ _ hj => by simp [System.empty] at hj⟩

/-- A claim keeps its limit to `claimLimit` jobs that were eligible in its snapshot, and
passes over an earlier candidate only where that was out of reach. -/
structure Honoured (c : Claim π) (jobs : List (JobRow π)) : Prop where
  limited : jobs.length ≤ c.claimLimit
  eligible : ∀ job ∈ jobs, ∃ seen ∈ c.snapshot.jobs, seen.id = job.id ∧ c.eligible seen
  inOrder : ∀ seen ∈ c.snapshot.jobs, c.eligible seen → seen.id ∉ jobIds jobs →
    ∀ later ∈ c.snapshot.jobs, later.id ∈ jobIds jobs → claimOrder seen < claimOrder later →
      ∃ p ∈ c.passed, p.row = seen ∧ p.Excused c

theorem candidates_ordered (c : Claim π) :
    c.candidates.Pairwise (fun a b => claimOrder a ≤ claimOrder b) := by
  have hsorted : (inClaimOrder c.snapshot).Pairwise (fun a b => claimOrder a ≤ claimOrder b) :=
    pairwise_insertionSort _ _
  exact hsorted.sublist filter_sublist

theorem honoured {c : Claim π} {jobs : List (JobRow π)} {tried : List (JobRow π)} (h : c.Progress tried)
    (hreturns : c.Returns jobs) : Honoured c jobs := by
  have hsnapshot : ∀ row ∈ tried, row ∈ c.snapshot.jobs ∧ c.eligible row := by
    intro row hrow
    refine candidates_mem.1 ?_
    rw [h.split]
    exact mem_append_left _ hrow
  have htried : ∀ job ∈ jobs, ∃ seen ∈ tried, seen.id = job.id := by
    intro job hjob
    obtain ⟨row, hrow, rfl⟩ := hreturns.claimed job hjob
    obtain ⟨seen, hseen, hid⟩ := mem_map.1 (h.locked row hrow).2
    exact ⟨seen, hseen, hid⟩
  refine ⟨hreturns.length_le.trans h.limit, fun job hjob => ?_, ?_⟩
  · obtain ⟨seen, hseen, hid⟩ := htried job hjob
    exact ⟨seen, (hsnapshot seen hseen).1, hid, (hsnapshot seen hseen).2⟩
  · intro seen hseen heligible hmissing later hlater hlaterId hbefore
    obtain ⟨job, hjob, hjobId⟩ := mem_map.1 hlaterId
    obtain ⟨other, hother, hotherId⟩ := htried job hjob
    have hlaterTried : later ∈ tried := by
      rwa [inj_on_of_nodup_map (c.snapshot.constraints .primaryKey) (hsnapshot other hother).1 hlater
        (hotherId.trans hjobId)] at hother
    have hcandidate : seen ∈ tried ++ c.remaining := h.split ▸ candidates_mem.2 ⟨hseen, heligible⟩
    have hseenTried : seen ∈ tried := by
      refine (mem_append.1 hcandidate).resolve_right fun hrest => ?_
      have hordered := candidates_ordered c
      rw [h.split, pairwise_append] at hordered
      exact absurd (hordered.2.2 later hlaterTried seen hrest) (not_le_of_gt hbefore)
    refine (h.decided seen hseenTried).resolve_left fun hlocked => ?_
    obtain ⟨row, hrow, hrowId⟩ := mem_map.1 hlocked
    rcases hreturns.complete with rfl | hcomplete
    · cases hjob
    · exact hmissing (hrowId ▸ hcomplete row hrow)

/-- What a claim returns is running afterwards, and was pending before. -/
theorem returned_turns_running {s : System π} (h : Valid s) {i : Input π} {job : JobRow π}
    (hjob : job ∈ (step i s).2) :
    (∃ row, s.tables.job? job.id = some row ∧ row.status = .pending) ∧
      (step i s).1.tables.job? job.id = some job ∧ job.status = .running := by
  cases i with
  | beginClaim => cases hjob
  | lockNext k =>
      dsimp only [step] at hjob
      split at hjob
      · cases hjob
      · split at hjob <;> cases hjob
  | abortClaim k =>
      dsimp only [step] at hjob
      split at hjob
      · cases hjob
      · split at hjob <;> cases hjob
  | other m statement =>
      dsimp only [step] at hjob
      split at hjob
      · cases hjob
      · split at hjob <;> cases hjob
  | finishClaim k =>
      dsimp only [step] at hjob
      split at hjob
      · cases hjob
      rename_i c hc
      split at hjob
      swap
      · cases hjob
      rename_i hready
      split at hjob
      · cases hjob
      rename_i jobs tables hfinish
      have htables : (step (.finishClaim k) s).1.tables = tables := by
        simp only [step, hc, if_pos hready, hfinish]
      rw [htables]
      simp only [Bool.and_eq_true, Option.isNone_iff_eq_none] at hready
      have hmem := mem_of_getElem? hc
      have hcurrent := h.current c hmem hready.1
      obtain ⟨hreturns, hafter, -, -⟩ := finish_eq_ok hcurrent hfinish
      obtain ⟨tried, htried⟩ := h.progress c hmem
      refine ⟨?_, hafter job hjob, ?_⟩
      · obtain ⟨row, hrow, rfl⟩ := hreturns.claimed job hjob
        exact ⟨row, hcurrent row hrow, eligible_pending (htried.locked row hrow).1⟩
      · obtain ⟨row, hrow, rfl⟩ := hreturns.claimed job hjob
        rfl

/-- The input lifts the pause of this key. -/
def resumes (pauseKey : String) : Input π → Bool
  | .other _ (.deletePauseKey key) => key = pauseKey
  | _ => false

theorem pauses_kept {pauseKey : String} {s : System π} (h : Valid s) (i : Input π)
    (hpaused : pauseKey ∈ s.tables.pauses) (hi : resumes pauseKey i = false) :
    pauseKey ∈ (step i s).1.tables.pauses := by
  cases i with
  | beginClaim => exact hpaused
  | lockNext k =>
      dsimp only [step]
      split
      · exact hpaused
      · split <;> exact hpaused
  | abortClaim k =>
      dsimp only [step]
      split
      · exact hpaused
      · split <;> exact hpaused
  | finishClaim k =>
      dsimp only [step]
      split
      · exact hpaused
      split
      swap
      · exact hpaused
      rename_i c hc hready
      simp only [Bool.and_eq_true, Option.isNone_iff_eq_none] at hready
      split
      · exact hpaused
      · obtain ⟨-, -, -, hpauses⟩ := finish_eq_ok (h.current c (mem_of_getElem? hc) hready.1) ‹_›
        exact hpauses ▸ hpaused
  | other m statement =>
      dsimp only [step]
      split
      · exact hpaused
      split
      · exact hpaused
      rw [(run_frames statement).pauses _ ‹_›]
      cases statement with
      | upsertPauseKey key => exact mem_insert_of_mem hpaused
      | deletePauseKey key =>
          simp only [resumes, decide_eq_false_iff_not] at hi
          exact (mem_erase_of_ne (Ne.symm hi)).2 hpaused
      | _ => exact hpaused

/-- A claim keeps its snapshot. -/
theorem snapshot_kept {s : System π} (i : Input π)
    {k : Nat} {c : Claim π} (hc : s.claims[k]? = some c) :
    ∃ c', (step i s).1.claims[k]? = some c' ∧ c'.snapshot = c.snapshot := by
  have hset : ∀ (j : Nat) (d d' : Claim π), s.claims[j]? = some d → d'.snapshot = d.snapshot →
      ∃ c', (s.claims.set j d')[k]? = some c' ∧ c'.snapshot = c.snapshot := by
    intro j d d' hd hsame
    rw [getElem?_set]
    split
    · rename_i heq
      subst heq
      obtain rfl := Option.some.inj (hd.symm.trans hc)
      exact ⟨d', if_pos (List.getElem?_eq_some_iff.1 hd).1, hsame⟩
    · exact ⟨c, hc, rfl⟩
  cases i with
  | beginClaim =>
      exact ⟨c, by rw [step, getElem?_append_left (List.getElem?_eq_some_iff.1 hc).1, hc], rfl⟩
  | lockNext j lockedElsewhere =>
      dsimp only [step]
      split
      · exact ⟨c, hc, rfl⟩
      · rename_i d hd
        split
        · refine hset j d _ hd ?_
          have htries := lockNext_tries d s lockedElsewhere
          generalize d.lockNext s lockedElsewhere = d' at htries ⊢
          cases htries <;> rfl
        · exact ⟨c, hc, rfl⟩
  | finishClaim j =>
      dsimp only [step]
      split
      · exact ⟨c, hc, rfl⟩
      rename_i d hd
      split
      · split
        · exact hset j d _ hd rfl
        · exact hset j d _ hd rfl
      · exact ⟨c, hc, rfl⟩
  | abortClaim j =>
      dsimp only [step]
      split
      · exact ⟨c, hc, rfl⟩
      rename_i d hd
      split
      · exact hset j d _ hd rfl
      · exact ⟨c, hc, rfl⟩
  | other m statement =>
      dsimp only [step]
      split
      · exact ⟨c, hc, rfl⟩
      · split <;> exact ⟨c, hc, rfl⟩

theorem snapshot_run (inputs : List (Input π)) {s : System π} {k : Nat} {c : Claim π}
    (hc : s.claims[k]? = some c) :
    ∃ c', (exec step inputs s).claims[k]? = some c' ∧ c'.snapshot = c.snapshot := by
  induction inputs generalizing s c with
  | nil => exact ⟨c, hc, rfl⟩
  | cons i inputs ih =>
      obtain ⟨c', hc', hsame⟩ := snapshot_kept i hc
      obtain ⟨c'', hc'', hsame'⟩ := ih hc'
      exact ⟨c'', hc'', hsame'.trans hsame⟩

/-- A claim that starts while a key is paused returns no job under that key. -/
theorem paused_claim_skips {pauseKey : String} {s : System π} (h : Valid s) {k : Nat} {c : Claim π}
    {jobs : List (JobRow π)} (hc : s.claims[k]? = some c) (hpaused : pauseKey ∈ c.snapshot.pauses)
    (hreply : c.reply = some jobs) :
    (∀ job ∈ jobs, pausedTaskKey job.taskName ≠ pauseKey) ∧
    (pauseKey = globalPauseKey → jobs = []) := by
  have hmem := mem_of_getElem? hc
  obtain ⟨tried, htried⟩ := h.progress c hmem
  have hunpaused : ∀ job ∈ jobs,
      globalPauseKey ∉ c.snapshot.pauses ∧ pausedTaskKey job.taskName ∉ c.snapshot.pauses := by
    intro job hjob
    obtain ⟨row, hrow, rfl⟩ := (h.returns c hmem jobs hreply).claimed job hjob
    have hunpaused := eligible_unpaused (htried.locked row hrow).1
    exact hunpaused
  constructor
  · rintro job hjob rfl
    exact (hunpaused job hjob).2 hpaused
  · rintro rfl
    exact eq_nil_iff_forall_not_mem.2 fun job hjob => (hunpaused job hjob).1 hpaused

/-- In every run: every claim that has ended is honoured; a returned job is running,
and pending again before another claim returns it; and after a pause has committed, no
claim that starts before it is lifted returns a job of the paused task. -/
theorem claims_exclusive_and_filtered (inputs : List (Input π)) :
    (∀ c ∈ (exec step inputs System.empty).claims, ∀ jobs, c.reply = some jobs → Honoured c jobs) ∧
    (∀ first i middle j later job again, inputs = first ++ i :: middle ++ j :: later →
      job ∈ (step i (exec step first System.empty)).2 →
      again ∈ (step j (exec step (first ++ i :: middle) System.empty)).2 → again.id = job.id →
      ((exec step (first ++ [i]) System.empty).tables.job? job.id = some job ∧ job.status = .running) ∧
      ∃ row, (exec step (first ++ i :: middle) System.empty).tables.job? job.id = some row ∧
        row.status = .pending) ∧
    ∀ earlier m pauseKey middle now taskNames claimLimit workerId later,
      inputs = earlier ++ .other m (.upsertPauseKey pauseKey) :: middle ++
        .beginClaim now taskNames claimLimit workerId :: later →
      (∀ i ∈ middle, resumes pauseKey i = false) →
      ∃ c, (exec step inputs System.empty).claims[(exec step (earlier ++
          .other m (.upsertPauseKey pauseKey) :: middle) System.empty).claims.length]? = some c ∧
        ∀ jobs, c.reply = some jobs →
          (∀ job ∈ jobs, pausedTaskKey job.taskName ≠ pauseKey) ∧
            (pauseKey = globalPauseKey → jobs = []) := by
  refine ⟨fun c hc jobs hreply => ?_, ?_, ?_⟩
  · obtain ⟨tried, htried⟩ := (valid_run inputs).progress c hc
    exact honoured htried ((valid_run inputs).returns c hc jobs hreply)
  · intro first i middle j later job again _ hfirst hagain hid
    refine ⟨?_, ?_⟩
    · rw [exec_append]
      exact (returned_turns_running (valid_run first) hfirst).2
    · rw [← hid]
      exact (returned_turns_running (valid_run (first ++ i :: middle)) hagain).1
  · rintro earlier m pauseKey middle now taskNames claimLimit workerId later rfl hmiddle
    have hpaused : pauseKey ∈ (exec step (earlier ++ .other m (.upsertPauseKey pauseKey) :: middle)
        System.empty).tables.pauses := by
      rw [exec_append, exec_cons]
      have hcommitted : pauseKey ∈ (step (.other m (.upsertPauseKey pauseKey))
          (exec step earlier System.empty)).1.tables.pauses := mem_insert_self
      have hkept : Valid
        (step (.other m (.upsertPauseKey pauseKey)) (exec step earlier System.empty)).1 ∧
          pauseKey ∈ (step (.other m (.upsertPauseKey pauseKey))
            (exec step earlier System.empty)).1.tables.pauses :=
        ⟨valid_step _ _ (valid_run earlier), hcommitted⟩
      refine (exec_preserves (fun i s hi (h : Valid s ∧ pauseKey ∈ s.tables.pauses) => ?_)
        (meets_of_forall hmiddle _) hkept).2
      exact ⟨valid_step i s h.1, pauses_kept h.1 i h.2 hi⟩
    obtain ⟨c, hc, hsnapshot⟩ := snapshot_run later (k := (exec step (earlier ++
      .other m (.upsertPauseKey pauseKey) :: middle) System.empty).claims.length)
      (s := (step (.beginClaim now taskNames claimLimit workerId) (exec step (earlier ++
        .other m (.upsertPauseKey pauseKey) :: middle) System.empty)).1) getElem?_concat_length
    rw [← exec_cons, ← exec_append] at hc
    refine ⟨c, hc, fun jobs hreply => paused_claim_skips (valid_run _) hc ?_ hreply⟩
    rw [hsnapshot]
    exact hpaused

end Runs

end Paranoid.QueueClaims
