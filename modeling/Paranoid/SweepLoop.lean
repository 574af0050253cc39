import Mathlib.Algebra.BigOperators.Group.List.Basic
import Mathlib.Algebra.Ring.Nat
import Paranoid.Transitions

namespace Paranoid.SweepLoop

open Transitions

/-- A deletion made in batches: what one batch leaves, with the number of rows that it
deletes, and how a total grows. -/
structure Sweep (σ β ε : Type*) where
  batchSize : Nat
  batch : β → σ → Except ε (Nat × σ)
  add : Nat → Nat → Except ε Nat

variable {σ β ε : Type*}

inductive Phase (ε : Type*)
  | sweeping
  | pausing
  | returned (result : Except ε Nat)

structure State (σ ε : Type*) where
  tables : σ
  total : Nat
  phase : Phase ε

/-- One step of some party. A batch that fails for its caller may have been committed
before. -/
inductive Input (σ β ε : Type*)
  | others (change : σ → σ)
  | batches (moment : β)
  | fails (error : ε) (committed : Option β)
  | cancels
  | wakes

def start (tables : σ) : State σ ε := ⟨tables, 0, .sweeping⟩

/-- The tables that a batch leaves where its statement succeeds. -/
def committedTables (sweep : Sweep σ β ε) (moment : β) (tables : σ) : σ :=
  match sweep.batch moment tables with
  | .error _ => tables
  | .ok (_, tables) => tables

/-- What the loop does with a batch that deleted so many rows. -/
def count (sweep : Sweep σ β ε) (deleted : Nat) (tables : σ) (s : State σ ε) : State σ ε :=
  match sweep.add s.total deleted with
  | .error error => { s with tables, phase := .returned (.error error) }
  | .ok total =>
      ⟨tables, total, if deleted < sweep.batchSize then .returned (.ok total) else .pausing⟩

@[simp] theorem count_tables (sweep : Sweep σ β ε) (deleted : Nat) (tables : σ) (s : State σ ε) :
    (count sweep deleted tables s).tables = tables := by
  unfold count
  split <;> rfl

/-- The output is the number of rows that a counted batch has deleted. -/
def step (sweep : Sweep σ β ε) (input : Input σ β ε) (s : State σ ε) : State σ ε × Nat :=
  match input, s.phase with
  | .others change, _ => ({ s with tables := change s.tables }, 0)
  | .batches moment, .sweeping =>
      match sweep.batch moment s.tables with
      | .error error => ({ s with phase := .returned (.error error) }, 0)
      | .ok (deleted, tables) => (count sweep deleted tables s, deleted)
  | .fails error committed, .sweeping =>
      (⟨committed.elim s.tables fun moment => committedTables sweep moment s.tables,
        s.total, .returned (.error error)⟩, 0)
  | .cancels, .sweeping | .cancels, .pausing => ({ s with phase := .returned (.ok s.total) }, 0)
  | .wakes, .pausing => ({ s with phase := .sweeping }, 0)
  | _, _ => (s, 0)

variable {sweep : Sweep σ β ε} {s : State σ ε} {input : Input σ β ε} {inputs : List (Input σ β ε)}

def returned : Phase ε → Bool
  | .returned _ => true
  | _ => false

theorem step_batches {moment : β} {deleted : Nat} {tables : σ} (hphase : s.phase = .sweeping)
    (hbatch : sweep.batch moment s.tables = .ok (deleted, tables)) :
    step sweep (.batches moment) s = (count sweep deleted tables s, deleted) := by
  simp only [step, hphase, hbatch]

/-- The step ends the loop: a cancellation is noticed, or a batch finds fewer rows than it
may delete. -/
def Ends (sweep : Sweep σ β ε) (input : Input σ β ε) (s : State σ ε) : Prop :=
  (input = .cancels ∧ returned s.phase = false) ∨
    ∃ moment deleted tables, input = .batches moment ∧ s.phase = .sweeping ∧
      sweep.batch moment s.tables = .ok (deleted, tables) ∧ deleted < sweep.batchSize

/-- A total that grows by what is added to it. -/
def AddsUp (sweep : Sweep σ β ε) : Prop :=
  ∀ total deleted total', sweep.add total deleted = .ok total' → total' = total + deleted

/-- What one step of the loop does. -/
inductive Steps (sweep : Sweep σ β ε) (s : State σ ε) : Input σ β ε → State σ ε → Nat → Prop
  | keeps {i : Input σ β ε} {tables} : Steps sweep s i { s with tables } 0
  | wakes (phase : s.phase = .pausing) : Steps sweep s .wakes { s with phase := .sweeping } 0
  | cancels (running : returned s.phase = false) :
      Steps sweep s .cancels { s with phase := .returned (.ok s.total) } 0
  | stops {i : Input σ β ε} {tables error deleted} (running : returned s.phase = false) :
      Steps sweep s i ⟨tables, s.total, .returned (.error error)⟩ deleted
  | counts {moment deleted tables total} (phase : s.phase = .sweeping)
      (batch : sweep.batch moment s.tables = .ok (deleted, tables))
      (add : sweep.add s.total deleted = .ok total) :
      Steps sweep s (.batches moment)
        ⟨tables, total, if deleted < sweep.batchSize then .returned (.ok total) else .pausing⟩ deleted

theorem steps (sweep : Sweep σ β ε) (input : Input σ β ε) (s : State σ ε) :
    Steps sweep s input (step sweep input s).1 (step sweep input s).2 := by
  unfold step
  split
  · exact .keeps
  · rename_i moment hphase
    split
    · exact .stops (by rw [hphase]; rfl)
    · rename_i deleted tables hbatch
      unfold count
      dsimp only
      split
      · exact .stops (by rw [hphase]; rfl)
      · rename_i total hadd
        exact .counts hphase hbatch hadd
  · rename_i hphase
    exact .stops (by rw [hphase]; rfl)
  · rename_i hphase
    exact .cancels (by rw [hphase]; rfl)
  · rename_i hphase
    exact .cancels (by rw [hphase]; rfl)
  · rename_i hphase
    exact .wakes hphase
  · exact .keeps

theorem phase_of_returned (h : returned s.phase = true) :
    (exec (step sweep) inputs s).phase = s.phase := by
  induction inputs generalizing s with
  | nil => rfl
  | cons input inputs ih =>
      have hsame : (step sweep input s).1.phase = s.phase := by
        have hsteps := steps sweep input s
        generalize (step sweep input s).1 = s', (step sweep input s).2 = deleted at hsteps
        cases hsteps with
        | keeps => rfl
        | wakes hphase => rw [hphase] at h; cases h
        | cancels hrunning | stops hrunning => rw [h] at hrunning; cases hrunning
        | counts hphase => rw [hphase] at h; cases h
      rw [exec_cons, ih (by rwa [hsame]), hsame]

/-- The total is the number of rows that the counted batches have deleted, for as long as
the loop runs and where it returns it. -/
structure Totals (n : Nat) (s : State σ ε) : Prop where
  running : returned s.phase = false → s.total = n
  returns : ∀ total, s.phase = .returned (.ok total) → total = n

theorem totals_step (input : Input σ β ε) (hadds : AddsUp sweep) {n : Nat} (h : Totals n s) :
    Totals (n + (step sweep input s).2) (step sweep input s).1 := by
  have hsteps := steps sweep input s
  generalize (step sweep input s).1 = s', (step sweep input s).2 = deleted at hsteps
  cases hsteps with
  | keeps => exact ⟨h.running, h.returns⟩
  | wakes hphase => exact ⟨fun _ => h.running (by rw [hphase]; rfl), by simp⟩
  | cancels hrunning =>
      refine ⟨by simp [returned], ?_⟩
      rintro total ⟨⟩
      exact h.running hrunning
  | stops => exact ⟨by simp [returned], by simp⟩
  | @counts moment deleted tables total hphase hbatch hadd =>
      have htotal : total = n + deleted := by rw [hadds _ _ _ hadd, h.running (by rw [hphase]; rfl)]
      refine ⟨fun _ => htotal, ?_⟩
      intro returned hreturned
      dsimp only at hreturned
      split at hreturned
      · cases hreturned
        exact htotal
      · cases hreturned

theorem totals_exec (hadds : AddsUp sweep) (inputs : List (Input σ β ε)) (tables : σ) :
    Totals ((trace (step sweep) inputs (start tables)).map Prod.snd).sum
      (exec (step sweep) inputs (start tables)) := by
  induction inputs using List.reverseRecOn with
  | nil => exact ⟨fun _ => rfl, by simp [start]⟩
  | append_singleton past input ih =>
      rw [exec_append, trace_append, List.map_append, List.sum_append]
      simpa using totals_step input hadds ih

/-- The last step of the loop has ended it with this total. -/
def EndedWith (sweep : Sweep σ β ε) (tables : σ) (total : Nat) (inputs : List (Input σ β ε)) : Prop :=
  ∃ earlier input later, inputs = earlier ++ input :: later ∧
    Ends sweep input (exec (step sweep) earlier (start tables)) ∧
    (exec (step sweep) (earlier ++ [input]) (start tables)).phase = .returned (.ok total)

theorem ended_exec (inputs : List (Input σ β ε)) (tables : σ) {total : Nat}
    (h : (exec (step sweep) inputs (start tables)).phase = .returned (.ok total)) :
    EndedWith sweep tables total inputs := by
  induction inputs using List.reverseRecOn with
  | nil => cases h
  | append_singleton past input ih =>
      have hnow : Ends sweep input (exec (step sweep) past (start tables)) →
          EndedWith sweep tables total (past ++ [input]) :=
        fun hends => ⟨past, input, [], rfl, hends, h⟩
      have hearlier : (exec (step sweep) past (start tables)).phase = .returned (.ok total) →
          EndedWith sweep tables total (past ++ [input]) := by
        intro hpast
        obtain ⟨earlier, ending, later, rfl, hends, hreturned⟩ := ih hpast
        exact ⟨earlier, ending, later ++ [input], by simp, hends, hreturned⟩
      have hphase := h
      rw [exec_append, exec_cons, exec_nil] at hphase
      have hsteps := steps sweep input (exec (step sweep) past (start tables))
      generalize (step sweep input (exec (step sweep) past (start tables))).1 = s',
        (step sweep input (exec (step sweep) past (start tables))).2 = deleted at hsteps hphase
      cases hsteps with
      | keeps => exact hearlier hphase
      | wakes | stops => cases hphase
      | cancels hrunning => exact hnow (.inl ⟨rfl, hrunning⟩)
      | @counts moment deleted tables' total' hsweeping hbatch hadd =>
          dsimp only at hphase
          split at hphase
          · rename_i hshort
            exact hnow (.inr ⟨moment, deleted, tables', rfl, hsweeping, hbatch, hshort⟩)
          · cases hphase

section Alone

/-- The batches of a loop that nobody interferes with, until one is short. -/
inductive Drains (sweep : Sweep σ β ε) : List β → σ → σ → Prop
  | last {moment tables deleted tables'} (batch : sweep.batch moment tables = .ok (deleted, tables'))
      (short : deleted < sweep.batchSize) : Drains sweep [moment] tables tables'
  | full {moment moments tables deleted tables' final}
      (batch : sweep.batch moment tables = .ok (deleted, tables')) (enough : sweep.batchSize ≤ deleted)
      (rest : Drains sweep moments tables' final) : Drains sweep (moment :: moments) tables final

/-- The steps of a loop that nobody interferes with. -/
def aloneInputs (moments : List β) : List (Input σ β ε) :=
  moments.flatMap fun moment => [.batches moment, .wakes]

theorem exec_of_returned (hreturned : returned s.phase = true)
    (hothers : ∀ input ∈ inputs, ∀ change, input ≠ .others change) : exec (step sweep) inputs s = s := by
  induction inputs with
  | nil => rfl
  | cons input inputs ih =>
      obtain ⟨tables, total, phase⟩ := s
      cases phase with
      | sweeping | pausing => cases hreturned
      | returned result =>
          have hsame : (step sweep input ⟨tables, total, .returned result⟩).1 =
              ⟨tables, total, .returned result⟩ := by
            cases input with
            | others change => exact absurd rfl (hothers _ List.mem_cons_self change)
            | batches | fails | cancels | wakes => rfl
          rw [exec_cons, hsame]
          exact ih (fun input hinput => hothers input (List.mem_cons_of_mem _ hinput))

theorem not_others_of_mem_aloneInputs {moments : List β} (hinput : input ∈ aloneInputs moments)
    (change : σ → σ) : input ≠ .others change := by
  obtain ⟨moment, -, hmem⟩ := List.mem_flatMap.1 hinput
  rcases List.mem_cons.1 hmem with rfl | hmem
  · simp
  · rw [List.mem_singleton.1 hmem]
    simp

theorem aloneInputs_append (earlier moments : List β) :
    (aloneInputs (earlier ++ moments) : List (Input σ β ε)) = aloneInputs earlier ++ aloneInputs moments :=
  List.flatMap_append

/-- Nothing happens after the batch with which a loop alone has returned. -/
theorem exec_alone_of_returned {earlier later : List β} {last : β} {s' : State σ ε}
    (h : exec (step sweep) (aloneInputs earlier ++ [.batches last]) s = s')
    (hreturned : returned s'.phase = true) :
    exec (step sweep) (aloneInputs (earlier ++ last :: later)) s = s' := by
  have hinputs : (aloneInputs (earlier ++ last :: later) : List (Input σ β ε)) =
      (aloneInputs earlier ++ [.batches last]) ++ (.wakes :: aloneInputs later) := by
    rw [aloneInputs_append, List.append_assoc]
    rfl
  rw [hinputs, exec_append, h]
  apply exec_of_returned hreturned
  intro input hinput change
  rcases List.mem_cons.1 hinput with rfl | hinput
  · simp
  · exact not_others_of_mem_aloneInputs hinput change

/-- A loop alone drains its table, when it is given one batch more than full batches fit
into the rows that it may delete. It returns with its first short batch. -/
theorem drains_alone (size : σ → Nat)
    (hadd : ∀ total deleted, total + deleted ≤ size s.tables + s.total →
      sweep.add total deleted = .ok (total + deleted))
    {moments : List β} (hbatch : ∀ moment ∈ moments, ∀ tables, ∃ deleted tables',
      sweep.batch moment tables = .ok (deleted, tables') ∧ deleted + size tables' = size tables)
    (hs : s.phase = .sweeping)
    (hmoments : size s.tables < moments.length * sweep.batchSize) :
    ∃ earlier last later final total, moments = earlier ++ last :: later ∧
      Drains sweep (earlier ++ [last]) s.tables final ∧
      (exec (step sweep) (aloneInputs earlier) s).phase = .sweeping ∧
      exec (step sweep) (aloneInputs earlier ++ [.batches last]) s = ⟨final, total, .returned (.ok total)⟩ ∧
      total + size final = s.total + size s.tables := by
  induction moments generalizing s with
  | nil => simp at hmoments
  | cons moment moments ih =>
      obtain ⟨tables, total, phase⟩ := s
      obtain rfl : phase = .sweeping := hs
      obtain ⟨deleted, tables', hdeleted, hsize⟩ := hbatch moment List.mem_cons_self tables
      have hroom : sweep.add total deleted = .ok (total + deleted) := hadd _ _ (by dsimp only; omega)
      have hstep : (step sweep (.batches moment) ⟨tables, total, .sweeping⟩).1 =
          ⟨tables', total + deleted,
            if deleted < sweep.batchSize then .returned (.ok (total + deleted)) else .pausing⟩ := by
        simp only [step, hdeleted, count, hroom]
      by_cases hshort : deleted < sweep.batchSize
      · rw [if_pos hshort] at hstep
        exact ⟨[], moment, moments, tables', total + deleted, rfl, .last hdeleted hshort, rfl, hstep,
          by dsimp only; omega⟩
      · have hexec (inputs : List (Input σ β ε)) :
            exec (step sweep) (.batches moment :: .wakes :: inputs) ⟨tables, total, .sweeping⟩ =
              exec (step sweep) inputs ⟨tables', total + deleted, .sweeping⟩ := by
          rw [exec_cons, hstep, if_neg hshort]
          rfl
        have hmoments' : size tables' < moments.length * sweep.batchSize := by
          rw [List.length_cons, Nat.succ_mul] at hmoments
          dsimp only at hmoments
          omega
        obtain ⟨earlier, last, later, final, total', rfl, hdrains, hsweeping, hreturned, htotal⟩ :=
          ih (s := ⟨tables', total + deleted, .sweeping⟩)
            (fun total' deleted' h => hadd _ _ (by dsimp only at h ⊢; omega))
            (fun moment hmoment => hbatch moment (List.mem_cons_of_mem _ hmoment)) rfl hmoments'
        refine ⟨moment :: earlier, last, later, final, total', rfl,
          .full hdeleted (Nat.le_of_not_lt hshort) hdrains, ?_, (hexec _).trans hreturned, ?_⟩
        · exact (congrArg State.phase (hexec _)).trans hsweeping
        · dsimp only at htotal ⊢
          omega

end Alone

end Paranoid.SweepLoop
