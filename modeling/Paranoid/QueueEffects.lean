import Mathlib.Data.List.Perm.Basic
import Paranoid.QueueOperations

namespace Paranoid.QueueEffects

open List QueueModel QueueStatements
open Postgres (bind_eq_error forall₂_mem_right mapM_eq_error mapM_eq_ok)

section Lists

variable {α β ε : Type} {f : α → Except ε β}

theorem forall₂_imp_mem {R S : α → β → Prop} {xs : List α} {ys : List β} (h : Forall₂ R xs ys)
    (hS : ∀ x ∈ xs, ∀ y, R x y → S x y) : Forall₂ S xs ys :=
  ((forall₂_and_left xs ys).2 ⟨fun _ hx => hx, h⟩).imp fun x y hxy => hS x hxy.1 y hxy.2

theorem eq_map_of_forall₂ {g : α → β} {xs : List α}
    {ys : List β} (h : Forall₂ (fun x y => y = g x) xs ys) :
    ys = xs.map g := by
  rw [← forall₂_eq_eq_eq, forall₂_map_right_iff]
  exact h.flip

theorem filterMap_map_sublist {γ : Type} {g : α → Option β} {key : α → γ} {key' : β → γ} (xs : List α)
    (hg : ∀ x y, g x = some y → key' y = key x) : ((xs.filterMap g).map key').Sublist (xs.map key) := by
  induction xs with
  | nil => exact .slnil
  | cons x xs ih =>
      rw [map_cons, filterMap_cons]
      cases hx : g x with
      | none => exact ih.cons _
      | some y =>
          rw [map_cons, hg x y hx]
          exact ih.cons_cons _

theorem forall₂_map_eq {γ : Type} {R : α → β → Prop}
    {g : α → γ} {g' : β → γ} {xs : List α} {ys : List β}
    (h : Forall₂ R xs ys) (hR : ∀ x y, R x y → g' y = g x) : ys.map g' = xs.map g := by
  induction h with
  | nil => rfl
  | cons hr _ ih => rw [map_cons, map_cons, hR _ _ hr, ih]

theorem filterMap_sublist_of_forall₂ {γ : Type} {g : α → Option γ} {g' : β → Option γ} {xs : List α}
    {ys : List β} (h : Forall₂ (fun x y => g' y = g x ∨ g' y = none) xs ys) :
    (ys.filterMap g').Sublist (xs.filterMap g) := by
  induction h with
  | nil => exact .slnil
  | @cons x y _ _ hxy _ ih =>
      rw [filterMap_cons, filterMap_cons]
      rcases hxy with hsame | hnone
      · rw [hsame]
        cases g x with
        | none => exact ih
        | some _ => exact ih.cons_cons _
      · rw [hnone]
        cases g x with
        | none => exact ih
        | some _ => exact ih.cons _

theorem getElem?_set_cases {xs : List α} {j k : Nat} {x x' y : α} (hx : xs[k]? = some x)
    (hy : (xs.set k x')[j]? = some y) : (j = k ∧ y = x') ∨ (j ≠ k ∧ xs[j]? = some y) := by
  rw [getElem?_set] at hy
  split at hy
  · rename_i heq
    rw [if_pos (heq ▸ (List.getElem?_eq_some_iff.1 hx).1)] at hy
    exact .inl ⟨heq.symm, (Option.some.inj hy).symm⟩
  · rename_i hne
    exact .inr ⟨fun heq => hne heq.symm, hy⟩

end Lists

section Locking

variable {π ρ κ : Type} {key : ρ → JobId} {locked : JobId → Bool} {newest : JobId → Option ρ}
  {matching : ρ → Bool} {seen : List ρ} {row : ρ}

theorem mem_lockRows : row ∈ lockRows key locked newest matching seen ↔
    matching row ∧ ∃ old ∈ seen, matching old ∧
      locked (key old) = false ∧ newest (key old) = some row := by
  simp only [lockRows, mem_filterMap, mem_filter]
  constructor
  · rintro ⟨old, ⟨hseen, hold⟩, h⟩
    split at h
    · cases h
    · rename_i hlock
      obtain ⟨hnew, hrow⟩ := Option.filter_eq_some_iff.1 h
      exact ⟨hrow, old, hseen, hold, by simpa using hlock, hnew⟩
  · rintro ⟨hrow, old, hseen, hold, hlock, hnew⟩
    exact ⟨old, ⟨hseen, hold⟩, by rw [if_neg (by simp [hlock]), hnew]; simp [hrow]⟩

/-- Every row is locked once, where the newest version of a row keeps its key. -/
theorem lockRows_nodup (hkey : ∀ id row, newest id = some row → key row = id)
    (hseen : (seen.map key).Nodup) : ((lockRows key locked newest matching seen).map key).Nodup := by
  refine ((filterMap_map_sublist (seen.filter matching) ?_).trans (filter_sublist.map key)).nodup hseen
  intro old row h
  split at h
  · cases h
  · exact hkey _ _ (Option.filter_eq_some_iff.1 h).1

variable {m : Moment π} {t : Tables π}

theorem mem_lockJobs {matching : JobRow π → Bool} {row : JobRow π} (h : row ∈ lockJobs m t matching) :
    row ∈ t.jobs ∧ matching row ∧ m.lockedJobs row.id = false := by
  obtain ⟨hrow, old, -, -, hlock, hnew⟩ := mem_lockRows.1 h
  obtain ⟨hmem, hid⟩ := Tables.job?_eq_some.1 hnew
  exact ⟨hmem, hrow, by rwa [hid]⟩

theorem mem_lockFirstJobs [LinearOrder κ] {matching : JobRow π → Bool} {sortKey : JobRow π → κ}
    {limit : Nat} {row : JobRow π} (h : row ∈ lockFirstJobs m t matching sortKey limit) :
    row ∈ t.jobs ∧ matching row ∧ m.lockedJobs row.id = false := by
  obtain ⟨hrow, old, -, -, hlock, hnew⟩ := mem_lockRows.1 (mem_of_mem_take h)
  obtain ⟨hmem, hid⟩ := Tables.job?_eq_some.1 hnew
  exact ⟨hmem, hrow, by rwa [hid]⟩

theorem mem_lockDeadLetters {matching : DeadLetterRow π → Bool} {row : DeadLetterRow π}
    (h : row ∈ lockDeadLetters m t matching) : row ∈ t.deadLetters ∧ matching row := by
  obtain ⟨hrow, old, -, -, -, hnew⟩ := mem_lockRows.1 h
  exact ⟨(Tables.deadLetter?_eq_some.1 hnew).1, hrow⟩

theorem lockJobs_nodup (m : Moment π) (t : Tables π) (matching : JobRow π → Bool) :
    (jobIds (lockJobs m t matching)).Nodup :=
  lockRows_nodup (fun _ _ h => (Tables.job?_eq_some.1 h).2) (m.snapshot.constraints .primaryKey)

theorem lockDeadLetters_nodup (m : Moment π) (t : Tables π) (matching : DeadLetterRow π → Bool) :
    (deadLetterIds (lockDeadLetters m t matching)).Nodup :=
  lockRows_nodup (fun _ _ h => (Tables.deadLetter?_eq_some.1 h).2)
    (m.snapshot.constraints .deadLetterPrimaryKey)

end Locking

section Primitives

variable {π : Type} {t t' : Tables π} {targets : List JobId} {c : Constraint}
  {set : JobRow π → Except StatementError (JobRow π)}

/-- The row that replaces a job has its id and content, and the checks accept it. -/
structure Keeps (row row' : JobRow π) : Prop where
  id : row'.id = row.id
  content : row'.content = row.content
  numericDomains : NumericDomains row'.retryCount row'.maxRetries row'.timeoutNanos
  statusLifecycleShape : row'.StatusLifecycleShape

structure Rewrites (set : JobRow π → Except StatementError (JobRow π)) (row : JobRow π) : Prop where
  noViolation : ∀ c, set row ≠ .error (.violation c)
  keeps : ∀ row', set row = .ok row' → Keeps row row'

theorem keeps_self {row : JobRow π} (h : row ∈ t.jobs) : Keeps row row :=
  ⟨rfl, rfl, t.constraints .numericDomains row h, t.constraints .statusLifecycleShape row h⟩

theorem row_of_target {rows : List (JobRow π)} {row : JobRow π} (hrows : ∀ row ∈ rows, row ∈ t.jobs)
    (hrow : row ∈ t.jobs) (hid : row.id ∈ jobIds rows) : row ∈ rows := by
  obtain ⟨other, hother, heq⟩ := mem_map.1 hid
  rwa [inj_on_of_nodup_map (t.constraints .primaryKey) (hrows other hother) hrow heq] at hother

theorem updateJobs_eq_ok (h : updateJobs t targets set = .ok t') :
    Forall₂ (fun row row' =>
      if row.id ∈ targets then set row = .ok row' else row' = row) t.jobs t'.jobs ∧
      t'.deadLetters = t.deadLetters ∧ t'.pauses = t.pauses := by
  obtain ⟨jobs, hjobs, hstore⟩ := Postgres.bind_eq_ok.1 h
  obtain ⟨rfl, hdead, hpauses⟩ := Tables.store_eq_ok hstore
  refine ⟨(mapM_eq_ok hjobs).imp fun row row' hset => ?_, hdead, hpauses⟩
  split at hset
  · rwa [if_pos ‹_›]
  · rw [if_neg ‹_›, Except.ok.inj hset]

/-- An update by a function that cannot fail. -/
theorem updateJobs_ok_eq_ok {f : JobRow π → JobRow π}
    (h : updateJobs t targets (fun row => .ok (f row)) = .ok t') :
    t'.jobs = t.jobs.map (fun row => if row.id ∈ targets then f row else row) ∧
      t'.deadLetters = t.deadLetters ∧ t'.pauses = t.pauses := by
  obtain ⟨hjobs, hsame⟩ := updateJobs_eq_ok h
  refine ⟨eq_map_of_forall₂ (hjobs.imp fun row row' hrow' => ?_), hsame⟩
  split at hrow'
  · rw [if_pos ‹_›, Except.ok.inj hrow']
  · rwa [if_neg ‹_›]

theorem keeps_of_rewrites (hset : ∀ row ∈ t.jobs, row.id ∈ targets → Rewrites set row)
    {jobs : List (JobRow π)}
    (h : Forall₂ (fun row row' =>
      if row.id ∈ targets then set row = .ok row' else row' = row) t.jobs jobs) :
    Forall₂ Keeps t.jobs jobs := by
  refine forall₂_imp_mem h fun row hrow row' hrow' => ?_
  split at hrow'
  · exact (hset row hrow ‹_›).keeps row' hrow'
  · subst hrow'
    exact keeps_self hrow

/-- An update that keeps ids and passes the checks can fail on the index of active
dedupe keys only. -/
theorem updateJobs_violation (hset : ∀ row ∈ t.jobs, row.id ∈ targets → Rewrites set row)
    (h : updateJobs t targets set = .error (.violation c)) :
    c = .dedupeActive ∧ ∃ jobs, Forall₂ (fun row row' =>
      if row.id ∈ targets then set row = .ok row' else row' = row) t.jobs jobs ∧
      ¬c.Holds jobs t.deadLetters := by
  rcases bind_eq_error.1 h with h | ⟨jobs, hjobs, hstore⟩
  · obtain ⟨row, hrow, hfail⟩ := mapM_eq_error h
    split at hfail
    · exact absurd hfail ((hset row hrow ‹_›).noViolation c)
    · cases hfail
  · have hrows := (mapM_eq_ok hjobs).imp (S := fun row row' =>
      if row.id ∈ targets then set row = .ok row' else row' = row) fun row row' hset => by
        split at hset
        · rwa [if_pos ‹_›]
        · rw [if_neg ‹_›, Except.ok.inj hset]
    have hkeeps := keeps_of_rewrites hset hrows
    obtain ⟨c', hc', hbroken⟩ := Tables.store_eq_error hstore
    obtain rfl := StatementError.violation.inj hc'
    refine ⟨?_, jobs, hrows, hbroken⟩
    cases c with
    | dedupeActive => rfl
    | numericDomains =>
        refine absurd (fun row' hrow' => ?_) hbroken
        obtain ⟨row, -, hk⟩ := forall₂_mem_right hkeeps hrow'
        exact hk.numericDomains
    | statusLifecycleShape =>
        refine absurd (fun row' hrow' => ?_) hbroken
        obtain ⟨row, -, hk⟩ := forall₂_mem_right hkeeps hrow'
        exact hk.statusLifecycleShape
    | primaryKey =>
        refine absurd ?_ hbroken
        rw [Constraint.Holds, forall₂_map_eq hkeeps fun _ _ hk => hk.id]
        exact t.constraints .primaryKey
    | deadLetterNumericDomains => exact absurd (t.constraints .deadLetterNumericDomains) hbroken
    | deadLetterPrimaryKey => exact absurd (t.constraints .deadLetterPrimaryKey) hbroken
    | originalJob => exact absurd (t.constraints .originalJob) hbroken

/-- An update that activates no dedupe key violates nothing. -/
theorem updateJobs_ne_violation (hset : ∀ row ∈ t.jobs, row.id ∈ targets → Rewrites set row)
    (hactive : ∀ row ∈ t.jobs, row.id ∈ targets → ∀ row', set row = .ok row' →
      row'.activeDedupeKey = row.activeDedupeKey ∨ row'.activeDedupeKey = none) :
    updateJobs t targets set ≠ .error (.violation c) := by
  intro h
  obtain ⟨rfl, jobs, hrows, hbroken⟩ := updateJobs_violation hset h
  refine hbroken ((filterMap_sublist_of_forall₂ ?_).nodup (t.constraints .dedupeActive))
  refine forall₂_imp_mem hrows fun row hrow row' hrow' => ?_
  split at hrow'
  · exact hactive row hrow ‹_› row' hrow'
  · exact .inl (by rw [hrow'])

variable {deletedJobs deletedDeadLetters : List JobId} {insertedJobs : List (JobRow π)}
  {insertedDeadLetters : List (DeadLetterRow π)}

theorem replaceRows_eq_ok
    (h : replaceRows t deletedJobs insertedJobs deletedDeadLetters insertedDeadLetters = .ok t') :
    t'.jobs = t.jobs.filter (·.id ∉ deletedJobs) ++ insertedJobs ∧
      t'.deadLetters = t.deadLetters.filter (·.id ∉ deletedDeadLetters) ++ insertedDeadLetters ∧
      t'.pauses = t.pauses :=
  Tables.store_eq_ok h

/-- Where the inserted rows pass the checks, only a unique index with an inserted row
can fail. -/
theorem replaceRows_violation
    (hjobs : ∀ row ∈ insertedJobs,
      NumericDomains row.retryCount row.maxRetries row.timeoutNanos ∧ row.StatusLifecycleShape)
    (hdead : ∀ row ∈ insertedDeadLetters, NumericDomains row.retryCount row.maxRetries row.timeoutNanos)
    (h : replaceRows t deletedJobs insertedJobs deletedDeadLetters insertedDeadLetters =
      .error (.violation c)) :
    (c = .primaryKey ∧ insertedJobs ≠ []) ∨
    (c = .dedupeActive ∧ ¬(t.jobs.filterMap JobRow.activeDedupeKey ++
      insertedJobs.filterMap JobRow.activeDedupeKey).Nodup) ∨
    ((c = .deadLetterPrimaryKey ∨ c = .originalJob) ∧ insertedDeadLetters ≠ []) := by
  obtain ⟨c', hc', hbroken⟩ := Tables.store_eq_error h
  obtain rfl := StatementError.violation.inj hc'
  have holdJobs : t.jobs.filter (·.id ∉ deletedJobs) <+ t.jobs := filter_sublist
  have holdDead : t.deadLetters.filter (·.id ∉ deletedDeadLetters) <+ t.deadLetters := filter_sublist
  cases c with
  | numericDomains =>
      refine absurd (fun row hrow => ?_) hbroken
      rcases mem_append.1 hrow with hold | hnew
      · exact t.constraints .numericDomains row (holdJobs.mem hold)
      · exact (hjobs row hnew).1
  | statusLifecycleShape =>
      refine absurd (fun row hrow => ?_) hbroken
      rcases mem_append.1 hrow with hold | hnew
      · exact t.constraints .statusLifecycleShape row (holdJobs.mem hold)
      · exact (hjobs row hnew).2
  | deadLetterNumericDomains =>
      refine absurd (fun row hrow => ?_) hbroken
      rcases mem_append.1 hrow with hold | hnew
      · exact t.constraints .deadLetterNumericDomains row (holdDead.mem hold)
      · exact hdead row hnew
  | primaryKey =>
      refine .inl ⟨rfl, ?_⟩
      rintro rfl
      rw [Constraint.Holds, append_nil] at hbroken
      exact hbroken ((holdJobs.map _).nodup (t.constraints .primaryKey))
  | dedupeActive =>
      refine .inr (.inl ⟨rfl, fun hnodup => hbroken ?_⟩)
      rw [Constraint.Holds, filterMap_append]
      exact ((holdJobs.filterMap _).append_right _).nodup hnodup
  | deadLetterPrimaryKey =>
      refine .inr (.inr ⟨.inl rfl, ?_⟩)
      rintro rfl
      rw [Constraint.Holds, append_nil] at hbroken
      exact hbroken ((holdDead.map _).nodup (t.constraints .deadLetterPrimaryKey))
  | originalJob =>
      refine .inr (.inr ⟨.inr rfl, ?_⟩)
      rintro rfl
      rw [Constraint.Holds, append_nil] at hbroken
      exact hbroken ((holdDead.map _).nodup (t.constraints .originalJob))

end Primitives

end Paranoid.QueueEffects
